/-!
# Words between white space

A line of text is split at characters with the Unicode property
`White_Space`, and empty pieces are dropped.
-/

set_option autoImplicit false

namespace Preempt.Text

/-- The characters with the Unicode property `White_Space`. -/
def isBlank (c : Char) : Bool :=
  let code := c.toNat
  (9 ≤ code && code ≤ 13) || code == 0x20 || code == 0x85 || code == 0xa0 || code == 0x1680 ||
    (0x2000 ≤ code && code ≤ 0x200a) || code == 0x2028 || code == 0x2029 || code == 0x202f ||
    code == 0x205f || code == 0x3000

/-- The words of a text, from left to right. -/
def words (text : String) : List String :=
  ((text.toList.splitOnP isBlank).filter fun piece => !piece.isEmpty).map String.ofList

end Preempt.Text
