import Std.Data.TreeMap

/-!
# Tables keyed by numbers

Several kinds of things are known by a number, each kind by itself. A `Table`
holds values under such keys and lists them in ascending order of number. Two
keys of one kind are the same key exactly when their numbers agree
(`byNumber_eq_iff`), so what a table holds after a change is said with plain
equality of keys.
-/

set_option autoImplicit false

namespace Preempt

/-- A key that is a number under another type. -/
class Numbered (κ : Type) where
  number : κ → Nat
  number_injective : ∀ {a b : κ}, number a = number b → a = b

/-- Keys are ordered by number. -/
def byNumber {κ : Type} [Numbered κ] (a b : κ) : Ordering :=
  compare (Numbered.number a) (Numbered.number b)

variable {κ : Type} [Numbered κ]

instance : Std.TransCmp (byNumber (κ := κ)) where
  eq_swap := by
    intro a b
    exact Std.OrientedOrd.eq_swap
  isLE_trans := by
    intro a b c
    exact Std.TransOrd.isLE_trans

instance : Std.LawfulEqCmp (byNumber (κ := κ)) where
  eq_of_compare same := Numbered.number_injective (Std.LawfulEqOrd.eq_of_compare same)

/-- Keys compare as equal exactly when they are the same key. -/
theorem byNumber_eq_iff {a b : κ} : byNumber a b = .eq ↔ a = b :=
  Std.LawfulEqCmp.compare_eq_iff_eq

/-- A table keyed by numbered keys, in ascending order of number. -/
abbrev Table (κ : Type) [Numbered κ] (α : Type) : Type :=
  Std.TreeMap κ α byNumber

namespace Table

variable {α : Type} {table : Table κ α} {key other : κ} {value : α}

/-- An inserted value is found under its own key and hides no other. -/
theorem getElem?_insert [DecidableEq κ] :
    (table.insert key value)[other]? = if key = other then some value else table[other]? := by
  simp only [Std.TreeMap.getElem?_insert, byNumber_eq_iff]

/-- An erased key is gone and no other is. -/
theorem getElem?_erase [DecidableEq κ] :
    (table.erase key)[other]? = if key = other then none else table[other]? := by
  simp only [Std.TreeMap.getElem?_erase, byNumber_eq_iff]

/-- A change reaches the value under its own key and no other. -/
theorem getElem?_modify [DecidableEq κ] {change : α → α} :
    (table.modify key change)[other]? =
      if key = other then table[key]?.map change else table[other]? := by
  simp only [Std.TreeMap.getElem?_modify, byNumber_eq_iff]

/-- What a change keeps about the value it finds is the same about all values. -/
theorem map_modify [DecidableEq κ] {change : α → α} {β : Type} {view : α → β}
    (keeps : ∀ value, table[key]? = some value → view (change value) = view value) :
    (table.modify key change)[other]?.map view = table[other]?.map view := by
  rw [getElem?_modify]
  split
  · rename_i same
    subst same
    cases found : table[key]? with
    | none => rfl
    | some value => exact congrArg some (keeps value found)
  · rfl

/-- A change makes no value and removes none. -/
theorem modify_eq_none_iff [DecidableEq κ] {change : α → α} :
    (table.modify key change)[other]? = none ↔ table[other]? = none := by
  rw [getElem?_modify]
  split
  · rename_i same
    rw [same, Option.map_eq_none_iff]
  · rfl

end Table

end Preempt
