/-!
# Runs of characters

A class of characters, given as runs of neighbours in ascending order.
-/

set_option autoImplicit false

namespace InkCompositor.Text

abbrev Runs := List (Nat × Nat)

def Runs.contains (runs : Runs) (c : Char) : Bool :=
  runs.any fun (first, last) => decide (first ≤ c.toNat ∧ c.toNat ≤ last)

end InkCompositor.Text
