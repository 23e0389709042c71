import Mathlib.Data.List.Basic

/-! White space, as the Unicode property `White_Space` has it. -/
namespace Whitespace

/-- The property of a single character. -/
def isWhitespace (c : Char) : Bool :=
  let code := c.toNat
  (9 ≤ code && code ≤ 13) || code == 32 || code == 0x85 || code == 0xA0 || code == 0x1680
    || (0x2000 ≤ code && code ≤ 0x200A) || code == 0x2028 || code == 0x2029 || code == 0x202F
    || code == 0x205F || code == 0x3000

def isBlank (text : String) : Bool := text.toList.all isWhitespace

/-- The text without the white space at its two ends. -/
def trimText (text : String) : String :=
  String.ofList
    (((text.toList.dropWhile isWhitespace).reverse.dropWhile isWhitespace).reverse)

end Whitespace
