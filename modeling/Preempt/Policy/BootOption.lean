import Preempt.Policy.Basic
import Preempt.Text.Words

/-!
# Choosing the policy on the boot line

The boot line is read word by word. The word `-o` takes the next word as its
value, whatever that word is, and the value `mlfqs` selects the feedback
policy. Every other line keeps strict priorities.
-/

set_option autoImplicit false

namespace Preempt.Policy

/-- The policy that a list of boot words selects. -/
def ofWords : List String → Policy
  | [] => priority
  | [_] => priority
  | word :: value :: rest =>
    if word = "-o" then
      if ofName? value = some mlfqs then mlfqs else ofWords rest
    else ofWords (value :: rest)

/-- The policy that a boot line selects. -/
def ofBootLine (line : String) : Policy :=
  ofWords (Text.words line)

end Preempt.Policy
