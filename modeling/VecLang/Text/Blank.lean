import VecLang.Text.Utf8

/-!
# White space

The characters that count as white space around a text.
-/

namespace VecLang.Blank

def isBlank (c : Char) : Bool :=
  let n := c.toNat
  (0x09 ≤ n && n ≤ 0x0d) || n = 0x20 || n = 0x85 || n = 0xa0 || n = 0x1680
    || (0x2000 ≤ n && n ≤ 0x200a) || n = 0x2028 || n = 0x2029 || n = 0x202f || n = 0x205f
    || n = 0x3000

/-- The text without white space at its ends. -/
def trim (b : Bytes) : Bytes :=
  let blank (p : Char × Bytes) : Bool := isBlank p.1
  let inner := (((Utf8.pieces b).dropWhile blank).reverse.dropWhile blank).reverse
  inner.flatMap (·.2)

end VecLang.Blank
