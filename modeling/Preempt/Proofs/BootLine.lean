import Mathlib.Algebra.Ring.Parity
import Mathlib.Data.List.Basic
import Preempt.Policy.BootOption

/-!
# What a boot line selects

Whether a word `-o` on the boot line is an option, or the value of the option before it, depends
on everything to the left of it. It can be told from the words nearby all the same. Of several
words `-o` in a row the first is an option, because the word before it is not `-o` and so wants
no value; the second is its value, the third an option again, and so on. The word behind them is
a value exactly if their number is odd.

So the feedback policy is selected exactly by a word `mlfqs` behind an odd number of words `-o`,
with no more of these before them (`Policy.ofBootLine_selects`). The proof goes through the words
from left to right and keeps the words `-o` just passed in front of those still to come.

The words of a line are the only list of words that the line is made of, with blanks between them
(`Text.spaced_iff`).
-/

set_option autoImplicit false

namespace Preempt

/-! ## Words and blanks -/

namespace Text

/-- The text is made of these words, with blanks between them and maybe around them. A word has at
least one character, and none that is blank. -/
inductive Spaced : List Char → List String → Prop where
  | nil : Spaced [] []
  | blank {c : Char} {rest : List Char} {found : List String} (blank : isBlank c = true)
      (spaced : Spaced rest found) : Spaced (c :: rest) found
  | last {word : List Char} (filled : word ≠ []) (solid : ∀ c ∈ word, isBlank c = false) :
      Spaced word [String.ofList word]
  | word {word : List Char} {c : Char} {rest : List Char} {found : List String}
      (filled : word ≠ []) (solid : ∀ c ∈ word, isBlank c = false) (blank : isBlank c = true)
      (spaced : Spaced rest found) : Spaced (word ++ c :: rest) (String.ofList word :: found)

theorem words_ofList (text : List Char) : words (String.ofList text) =
    ((text.splitOnP isBlank).filter fun piece => !piece.isEmpty).map String.ofList := by
  rw [words, String.toList_ofList]

/-- **A blank parts the words before it from those behind it.** -/
theorem words_append_blank (front rest : List Char) {c : Char} (blank : isBlank c = true) :
    words (String.ofList (front ++ c :: rest)) =
      words (String.ofList front) ++ words (String.ofList rest) := by
  rw [words_ofList, words_ofList, words_ofList, List.splitOnP_append_cons _ _ blank,
    List.filter_append, List.map_append]

/-- Characters without a blank are one word. -/
theorem words_solid {word : List Char} (filled : word ≠ [])
    (solid : ∀ c ∈ word, isBlank c = false) :
    words (String.ofList word) = [String.ofList word] := by
  have kept : (!word.isEmpty) = true := by simpa using filled
  rw [words_ofList, List.splitOnP_eq_singleton solid, List.filter_singleton, kept]
  rfl

theorem Spaced.eq_words {text : List Char} {found : List String} (spaced : Spaced text found) :
    found = words (String.ofList text) := by
  induction spaced with
  | nil => rfl
  | @blank c rest _ blank _ ih =>
      rw [ih]
      exact (words_append_blank [] rest blank).symm
  | last filled solid => exact (words_solid filled solid).symm
  | word filled solid blank _ ih =>
      rw [words_append_blank _ _ blank, words_solid filled solid, ih]
      rfl

/-- A character that is not blank begins the first word, or a word of its own. -/
theorem Spaced.cons {text : List Char} {found : List String} (spaced : Spaced text found) {c : Char}
    (solid : isBlank c = false) : ∃ more, Spaced (c :: text) more := by
  cases spaced with
  | nil => exact ⟨_, .last (List.cons_ne_nil c []) (by simpa using solid)⟩
  | blank blank spaced => exact ⟨_, .word (List.cons_ne_nil c []) (by simpa using solid) blank spaced⟩
  | last _ others =>
      exact ⟨_, .last (List.cons_ne_nil c _) (List.forall_mem_cons.mpr ⟨solid, others⟩)⟩
  | word _ others blank spaced =>
      exact ⟨_, .word (List.cons_ne_nil c _) (List.forall_mem_cons.mpr ⟨solid, others⟩) blank spaced⟩

theorem exists_spaced (text : List Char) : ∃ found, Spaced text found := by
  induction text with
  | nil => exact ⟨[], .nil⟩
  | cons c rest ih =>
      obtain ⟨found, spaced⟩ := ih
      cases solid : isBlank c with
      | true => exact ⟨found, .blank solid spaced⟩
      | false => exact spaced.cons solid

/-- **The words of a text are the words that it is made of.** -/
theorem spaced_iff {text : String} {found : List String} :
    Spaced text.toList found ↔ found = words text := by
  have only : ∀ {other}, Spaced text.toList other → other = words text := by
    intro other spaced
    have same := spaced.eq_words
    rwa [String.ofList_toList] at same
  constructor
  · exact only
  · rintro rfl
    obtain ⟨found, spaced⟩ := exists_spaced text.toList
    exact only spaced ▸ spaced

end Text

/-! ## Options and values -/

namespace Policy

/-- A word `mlfqs` stands behind an odd number of words `-o`, and the word before these is not
`-o`. -/
def Selected (words : List String) : Prop :=
  ∃ front count back, words = front ++ (List.replicate count "-o" ++ "mlfqs" :: back) ∧
    front.getLast? ≠ some "-o" ∧ Odd count

section Rows

variable {word : String} {rest : List String}

theorem ofName?_eq_mlfqs_iff {text : String} : ofName? text = some mlfqs ↔ text = "mlfqs" := by
  constructor
  · intro found
    unfold ofName? at found
    split at found
    · cases found
    · split at found
      · assumption
      · cases found
  · rintro rfl
    exact ofName?_name mlfqs

/-- A word that is no option is passed over. -/
theorem ofWords_cons (other : word ≠ "-o") : ofWords (word :: rest) = ofWords rest := by
  cases rest with
  | nil => rfl
  | cons => rw [ofWords, if_neg other]

/-- An option takes the next word with it. -/
theorem ofWords_option :
    ofWords ("-o" :: word :: rest) = if word = "mlfqs" then mlfqs else ofWords rest := by
  simp only [ofWords, if_true, ofName?_eq_mlfqs_iff]

/-- **What the words `-o` in a row make of the word behind them depends on their number.** Two of
them are an option and its value. -/
theorem ofWords_row (other : word ≠ "-o") : ∀ count : Nat,
    ofWords (List.replicate count "-o" ++ word :: rest) = mlfqs ↔
      Odd count ∧ word = "mlfqs" ∨ ofWords rest = mlfqs
  | 0 => by
      have passed : ofWords (word :: rest) = ofWords rest := ofWords_cons other
      simp [passed]
  | 1 => by
      have taken : ofWords (["-o"] ++ word :: rest) = _ := ofWords_option
      rw [List.replicate_one, taken]
      split
      · rename_i chosen
        simp [chosen]
      · rename_i passed
        simp [passed]
  | count + 2 => by
      have paired : Odd (count + 2) ↔ Odd count := by
        rw [Nat.odd_add]
        simp
      rw [paired, ← ofWords_row other count]
      exact iff_of_eq (congrArg (· = mlfqs) (ofWords_option.trans (if_neg (by decide))))

/-- With no word behind them, words `-o` select nothing. -/
theorem ofWords_replicate : ∀ count : Nat, ofWords (List.replicate count "-o") = priority
  | 0 => rfl
  | 1 => rfl
  | count + 2 => (ofWords_option.trans (if_neg (by decide))).trans (ofWords_replicate count)

theorem not_selected_replicate (count : Nat) : ¬ Selected (List.replicate count "-o") := by
  rintro ⟨front, options, back, same, -, -⟩
  have member : "mlfqs" ∈ List.replicate count "-o" := by simp [same]
  have equal := List.eq_of_mem_replicate member
  revert equal
  decide

/-- Where words `-o` in a row end is where the first other word stands. -/
theorem row_unique {first second : String} {behind : List String} (one : first ≠ "-o")
    (other : second ≠ "-o") : ∀ {count options : Nat},
    List.replicate count "-o" ++ first :: rest = List.replicate options "-o" ++ second :: behind →
      count = options ∧ first = second ∧ rest = behind
  | 0, 0, same => ⟨rfl, List.cons.inj same⟩
  | 0, _ + 1, same => absurd (List.cons.inj same).1 one
  | _ + 1, 0, same => absurd (List.cons.inj same).1.symm other
  | _ + 1, _ + 1, same => by
      obtain ⟨equal, both⟩ := row_unique one other (List.cons.inj same).2
      exact ⟨congrArg Nat.succ equal, both⟩

/-- Words that end with another word than `-o` are not all `-o`. -/
theorem exists_other {front : List String} (filled : front ≠ []) (ends : front.getLast? ≠ some "-o") :
    ∃ word ∈ front, word ≠ "-o" := by
  refine ⟨front.getLast filled, List.getLast_mem filled, fun last => ends ?_⟩
  rw [List.getLast?_eq_some_getLast filled, last]

/-- How words end does not depend on those before another word than `-o`. -/
theorem ends_append_cons (other : word ≠ "-o") {row front : List String} :
    (row ++ word :: front).getLast? ≠ some "-o" ↔ front.getLast? ≠ some "-o" := by
  rw [List.getLast?_append, List.getLast?_cons]
  cases front.getLast? with
  | none => simpa using other
  | some last => simp

/-- **A word behind words `-o` is selected by their number, or there is a selection behind it.** -/
theorem selected_row (other : word ≠ "-o") (count : Nat) :
    Selected (List.replicate count "-o" ++ word :: rest) ↔
      Odd count ∧ word = "mlfqs" ∨ Selected rest := by
  constructor
  · rintro ⟨front, options, back, same, ends, odd⟩
    by_cases none : front = []
    · subst none
      obtain ⟨rfl, rfl, -⟩ := row_unique other (by decide) same
      exact Or.inl ⟨odd, rfl⟩
    · -- Then there is another word than `-o` in front, so the selected row is behind that.
      obtain ⟨first, inside, differs⟩ := exists_other none ends
      rcases List.append_eq_append_iff.mp same with ⟨beyond, rfl, behind⟩ | ⟨within, row, -⟩
      · cases beyond with
        | nil =>
            rw [List.append_nil] at inside
            exact absurd (List.eq_of_mem_replicate inside) differs
        | cons =>
            obtain ⟨rfl, rfl⟩ := List.cons.inj behind
            exact Or.inr ⟨_, options, back, rfl, (ends_append_cons other).mp ends, odd⟩
      · have member : first ∈ List.replicate count "-o" := row ▸ List.mem_append_left _ inside
        exact absurd (List.eq_of_mem_replicate member) differs
  · rintro (⟨odd, rfl⟩ | ⟨front, options, back, rfl, ends, odd⟩)
    · exact ⟨[], count, rest, rfl, by simp, odd⟩
    · exact ⟨List.replicate count "-o" ++ word :: front, options, back, by simp,
        (ends_append_cons other).mpr ends, odd⟩

/-- By induction on the words to come, with the words `-o` just passed in front of them. -/
theorem ofWords_eq_mlfqs_iff (words : List String) : ∀ count : Nat,
    ofWords (List.replicate count "-o" ++ words) = mlfqs ↔
      Selected (List.replicate count "-o" ++ words) := by
  induction words with
  | nil =>
      intro count
      rw [List.append_nil, ofWords_replicate]
      exact iff_of_false (by decide) (not_selected_replicate count)
  | cons word rest ih =>
      intro count
      by_cases option : word = "-o"
      · subst option
        have passed : List.replicate count "-o" ++ "-o" :: rest =
            List.replicate (count + 1) "-o" ++ rest := by
          rw [List.replicate_succ', List.append_assoc, List.singleton_append]
        rw [passed]
        exact ih (count + 1)
      · rw [ofWords_row option, selected_row option]
        exact or_congr_right (ih 0)

end Rows

/-- **The boot line selects the feedback policy exactly by a word `mlfqs` behind an odd number of
words `-o` in a row.** With every other line priorities are strict. -/
theorem ofBootLine_selects (line : String) :
    (∀ found, Text.Spaced line.toList found ↔ found = Text.words line) ∧
      (ofBootLine line = mlfqs ↔ Selected (Text.words line)) ∧
      (ofBootLine line = priority ↔ ¬ Selected (Text.words line)) := by
  have selects : ofBootLine line = mlfqs ↔ Selected (Text.words line) :=
    ofWords_eq_mlfqs_iff (Text.words line) 0
  refine ⟨fun found => Text.spaced_iff, selects, ?_⟩
  rw [← selects]
  cases ofBootLine line <;> simp

example : ofBootLine "-o -o mlfqs" = priority := by decide

end Policy

end Preempt
