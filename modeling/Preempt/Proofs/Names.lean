import Mathlib.Data.String.Basic
import Preempt.Thread.Basic

/-!
# Names cut between characters

A thread keeps the longest beginning of its name that has at most fifteen bytes and splits no
character (`Thread.name_cut`).

Where a text may be cut is told in two ways. By characters, it may be cut wherever it is one text
put in front of another. The search for the end of a name knows nothing of characters: it goes back
from byte 15 and looks at single bytes, of which those from 0x80 to 0xbf continue a character and all
others begin one. Both ways come to the same because of how characters are encoded
(`Text.isBoundary_iff`).

A character has at most four bytes, so of four positions in a row one is a boundary, and a search
that starts inside the text ends after three steps at the latest (`Text.GoesBack.steps_le`). A step
back from byte 0 is never asked for, because every text has a boundary there.
-/

set_option autoImplicit false

namespace Preempt

namespace Text

/-! ## Boundaries, told by bytes and by characters -/

/-- A byte of a character that is not its first one. -/
def Continues (byte : UInt8) : Prop :=
  0x80 ≤ byte ∧ byte < 0xc0

instance : DecidablePred Continues :=
  fun byte => inferInstanceAs (Decidable (0x80 ≤ byte ∧ byte < 0xc0))

/-- The text begins or ends at this position, or the byte there does not continue a character. -/
def IsBoundary (text : String) (position : ℕ) : Prop :=
  position = 0 ∨ position = text.utf8ByteSize ∨
    ∃ inside : position < text.toByteArray.size, ¬ Continues text.toByteArray[position]

/-- The larger bytes neither continue a character nor begin one. -/
theorem isUTF8FirstByte_iff {byte : UInt8} (small : byte < 0xf8) :
    byte.IsUTF8FirstByte ↔ ¬ Continues byte := by
  have all : ∀ value < 0xf8,
      (UInt8.ofNat value).IsUTF8FirstByte ↔ ¬ Continues (UInt8.ofNat value) := by decide +kernel
  have one := all byte.toNat (UInt8.lt_iff_toNat_lt.mp small)
  rwa [UInt8.ofNat_toNat] at one

theorem lt_of_mem_utf8EncodeChar {c : Char} {byte : UInt8}
    (member : byte ∈ String.utf8EncodeChar c) : byte < 0xf8 := by
  have small : ∀ value < 0xf8, UInt8.ofNat value < 0xf8 := by decide +kernel
  grind [String.utf8EncodeChar]

variable {text : String} {limit position steps found : ℕ}

theorem getElem_toByteArray_lt (inside : position < text.toByteArray.size) :
    text.toByteArray[position] < 0xf8 := by
  have bytes : (text.toList.flatMap String.utf8EncodeChar).toByteArray = text.toByteArray :=
    String.utf8Encode_toList
  have member : text.toByteArray[position] ∈ text.toList.flatMap String.utf8EncodeChar := by
    simp only [← bytes, List.getElem_toByteArray]
    exact List.getElem_mem _
  obtain ⟨c, -, member⟩ := List.mem_flatMap.mp member
  exact lt_of_mem_utf8EncodeChar member

theorem isBoundary_iff_isValid :
    IsBoundary text position ↔ (String.Pos.Raw.mk position).IsValid text := by
  constructor
  · rintro (rfl | rfl | ⟨inside, begins⟩)
    · exact String.Pos.Raw.isValid_zero
    · exact String.Pos.Raw.isValid_rawEndPos
    · exact String.Pos.Raw.isValid_iff_isUTF8FirstByte.mpr
        (.inr ⟨inside, (isUTF8FirstByte_iff (getElem_toByteArray_lt inside)).mpr begins⟩)
  · intro valid
    rcases String.Pos.Raw.isValid_iff_isUTF8FirstByte.mp valid with last | ⟨inside, begins⟩
    · exact .inr (.inl (congrArg String.Pos.Raw.byteIdx last))
    · exact .inr (.inr ⟨inside, (isUTF8FirstByte_iff (getElem_toByteArray_lt inside)).mp begins⟩)

/-- **A position is a boundary exactly if the text is one text in front of another there.** -/
theorem isBoundary_iff : IsBoundary text position ↔
    ∃ front rest, text = front ++ rest ∧ position = front.utf8ByteSize := by
  rw [isBoundary_iff_isValid, String.Pos.Raw.isValid_iff_exists_append]
  simp only [String.Pos.Raw.ext_iff, String.byteIdx_rawEndPos]

/-- Behind a boundary inside the text there is another one, at most four bytes away. -/
theorem IsBoundary.exists_next (boundary : IsBoundary text position)
    (inside : position < text.utf8ByteSize) :
    ∃ next, IsBoundary text next ∧ position < next ∧ next ≤ position + 4 := by
  obtain ⟨front, rest, rfl, rfl⟩ := isBoundary_iff.mp boundary
  rcases characters : rest.toList with _ | ⟨c, others⟩
  · rw [String.toList_eq_nil_iff.mp characters, String.append_empty] at inside
    exact absurd inside (lt_irrefl _)
  · have parted : rest = String.singleton c ++ String.ofList others := by
      rw [← String.ofList_toList (s := rest), characters]
      exact String.ofList_cons
    have size : (front ++ String.singleton c).utf8ByteSize = front.utf8ByteSize + c.utf8Size := by
      rw [String.utf8ByteSize_append, String.utf8ByteSize_singleton]
    refine ⟨front.utf8ByteSize + c.utf8Size, ?_, ?_, ?_⟩
    · apply isBoundary_iff.mpr
      exact ⟨_, String.ofList others, by rw [parted, String.append_assoc], size.symm⟩
    · exact Nat.lt_add_of_pos_right c.utf8Size_pos
    · exact Nat.add_le_add_left c.utf8Size_le_four _

/-! ## The search -/

/-- From a position the search goes back a number of bytes, one after another, until a boundary is
found. From byte 0 it cannot go back. -/
inductive GoesBack (text : String) : ℕ → ℕ → ℕ → Prop where
  | stop {position : ℕ} (boundary : IsBoundary text position) : GoesBack text position 0 position
  | back {position steps found : ℕ} (within : ¬ IsBoundary text (position + 1))
      (goes : GoesBack text position steps found) : GoesBack text (position + 1) (steps + 1) found

theorem goesBack_boundaryUpTo (text : String) (position : ℕ) :
    ∃ steps, GoesBack text position steps (boundaryUpTo text position) := by
  induction position with
  | zero => exact ⟨0, .stop (.inl rfl)⟩
  | succ position ih =>
      have tested : String.Pos.Raw.isValid text ⟨position + 1⟩ = true ↔
          IsBoundary text (position + 1) := by
        rw [isBoundary_iff_isValid, String.Pos.Raw.isValid_eq_true_iff]
      rw [boundaryUpTo]
      split
      · rename_i boundary
        exact ⟨0, .stop (tested.mp boundary)⟩
      · rename_i within
        obtain ⟨steps, goes⟩ := ih
        exact ⟨steps + 1, .back (mt tested.mpr within) goes⟩

namespace GoesBack

theorem boundary (goes : GoesBack text position steps found) : IsBoundary text found := by
  induction goes with
  | stop boundary => exact boundary
  | back _ _ ih => exact ih

theorem add_steps (goes : GoesBack text position steps found) : found + steps = position := by
  induction goes with
  | stop _ => rfl
  | back _ _ ih => rw [← Nat.add_assoc, ih]

/-- The search passes no boundary. -/
theorem le_found (goes : GoesBack text position steps found) {other : ℕ}
    (boundary : IsBoundary text other) (before : other ≤ position) : other ≤ found := by
  induction goes with
  | stop _ => exact before
  | back within _ ih =>
      rcases Nat.le_succ_iff.mp before with before | rfl
      · exact ih before
      · exact absurd boundary within

/-- **A search that starts inside the text ends after at most three steps.** -/
theorem steps_le (goes : GoesBack text position steps found)
    (inside : position < text.utf8ByteSize) : steps ≤ 3 := by
  have total := goes.add_steps
  obtain ⟨next, boundary, behind, near⟩ := goes.boundary.exists_next (by omega)
  -- The next boundary lies behind the start, or the search would have stopped there.
  have beyond : position < next := by
    by_contra before
    have passed := goes.le_found boundary (Nat.le_of_not_lt before)
    omega
  omega

end GoesBack

/-! ## The part that is kept -/

theorem extract_append (front rest : String) :
    String.Pos.Raw.extract (front ++ rest) ⟨0⟩ ⟨front.utf8ByteSize⟩ = front := by
  have extracted := String.extract_of_valid [] front.toList rest.toList
  simpa [String.ofList_append, ← String.utf8ByteSize_ofList] using extracted

theorem cut_of_le (fits : text.utf8ByteSize ≤ limit) : cut limit text = text :=
  if_pos fits

/-- A text that is too long is cut where the search ends. -/
theorem exists_append_cut (long : limit < text.utf8ByteSize) :
    ∃ rest, text = cut limit text ++ rest ∧
      (cut limit text).utf8ByteSize = boundaryUpTo text limit := by
  obtain ⟨steps, goes⟩ := goesBack_boundaryUpTo text limit
  obtain ⟨front, rest, parted, size⟩ := isBoundary_iff.mp goes.boundary
  have kept : cut limit text = front := by
    rw [cut, if_neg (Nat.not_le.mpr long), size, parted, extract_append]
  exact ⟨rest, kept ▸ parted, kept ▸ size.symm⟩

/-- The longest beginning of a text that has at most `limit` bytes and splits no character, and the
search that finds its end. -/
structure CutAt (limit : ℕ) (text part : String) : Prop where
  front : ∃ rest, text = part ++ rest
  fits : part.utf8ByteSize ≤ limit
  longest : ∀ other rest, text = other ++ rest → other.utf8ByteSize ≤ limit →
    other.utf8ByteSize ≤ part.utf8ByteSize
  whole : text.utf8ByteSize ≤ limit → part = text
  /-- A text that is too long is searched for its last boundary from the limit on. -/
  search : limit < text.utf8ByteSize →
    ∃ steps ≤ 3, part.utf8ByteSize + steps = limit ∧ GoesBack text limit steps part.utf8ByteSize

end Text

/-- **The name of a thread is the longest beginning of the name given** that has at most fifteen
bytes and splits no character. -/
theorem Thread.name_cut (tid : Tid) (name : String) (priority : ℤ) (stack : Option Stack) :
    Text.CutAt 15 name (Thread.fresh tid name priority stack).name := by
  change Text.CutAt 15 name (Text.cut 15 name)
  rcases Nat.lt_or_ge 15 name.utf8ByteSize with long | short
  · obtain ⟨rest, parted, size⟩ := Text.exists_append_cut long
    obtain ⟨steps, goes⟩ := Text.goesBack_boundaryUpTo name 15
    rw [← size] at goes
    exact {
      front := ⟨rest, parted⟩
      fits := Nat.le.intro goes.add_steps
      longest := fun other rest parted fits =>
        goes.le_found (Text.isBoundary_iff.mpr ⟨other, rest, parted, rfl⟩) fits
      whole := fun fits => absurd long (Nat.not_lt.mpr fits)
      search := fun _ => ⟨steps, goes.steps_le long, goes.add_steps, goes⟩ }
  · rw [Text.cut_of_le short]
    exact {
      front := ⟨"", String.append_empty.symm⟩
      fits := short
      longest := by
        rintro other rest rfl -
        rw [String.utf8ByteSize_append]
        exact Nat.le_add_right _ _
      whole := fun _ => rfl
      search := fun long => absurd short (Nat.not_le.mpr long) }

/-- Fifteen bytes would keep three of the four bytes of the last character. -/
example : Text.cut nameLimit "twelve bytes😀" = "twelve bytes" := by decide +kernel

end Preempt
