/-!
# Blank text

White space is what the Unicode standard lists as such.
-/

set_option autoImplicit false

namespace InkCompositor.Text

def isWhiteSpace (c : Char) : Bool :=
  let n := c.toNat
  decide (9 ≤ n ∧ n ≤ 13) || n == 0x20 || n == 0x85 || n == 0xa0 || n == 0x1680 ||
    decide (0x2000 ≤ n ∧ n ≤ 0x200a) || n == 0x2028 || n == 0x2029 || n == 0x202f ||
    n == 0x205f || n == 0x3000

def isBlank (s : String) : Bool := s.toList.all isWhiteSpace

end InkCompositor.Text
