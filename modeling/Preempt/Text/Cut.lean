/-!
# Cutting a text to a number of bytes

A text is stored in one to four bytes per character. Cutting it to at most
`limit` bytes must not split a character, so the cut goes back from `limit`
to the nearest position where a character begins or the text ends.
-/

set_option autoImplicit false

namespace Preempt.Text

/-- The last character boundary at or before byte `position`. -/
def boundaryUpTo (text : String) : Nat → Nat
  | 0 => 0
  | position + 1 =>
    if (String.Pos.Raw.mk (position + 1)).isValid text then position + 1
    else boundaryUpTo text position

/-- The text itself if it has at most `limit` bytes, else the part before the
last character boundary up to `limit`. -/
def cut (limit : Nat) (text : String) : String :=
  if text.utf8ByteSize ≤ limit then text
  else String.Pos.Raw.extract text ⟨0⟩ ⟨boundaryUpTo text limit⟩

end Preempt.Text
