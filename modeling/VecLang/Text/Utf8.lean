import VecLang.Text.Bytes

/-!
# UTF-8

Reading characters off the front of a byte string. A byte that does not start a well-formed
character stands for itself alone: it reads as the replacement character and takes one byte.
-/

namespace VecLang.Utf8

/-- The character read for a byte that is not part of a well-formed character. -/
def replacement : Char := '�'

/-- A byte that continues a character. -/
def isTail (b : UInt8) : Bool := 0x80 ≤ b && b ≤ 0xbf

/-- The six low bits of a continuation byte. -/
def tailBits (b : UInt8) : Nat := b.toNat % 64

/-- The first character of the text and its length in bytes, when it is well formed: no
overlong form, no surrogate, nothing above U+10FFFF. -/
def first? : Bytes → Option (Char × Nat)
  | [] => none
  | a :: rest =>
    if a < 0x80 then some (Char.ofNat a.toNat, 1)
    else match rest with
      | b :: rest =>
        if 0xc2 ≤ a && a ≤ 0xdf then
          if isTail b then some (Char.ofNat (a.toNat % 32 * 64 + tailBits b), 2) else none
        else match rest with
          | c :: rest =>
            if 0xe0 ≤ a && a ≤ 0xef then
              if isTail b && isTail c && !(a == 0xe0 && b < 0xa0) && !(a == 0xed && b > 0x9f) then
                some (Char.ofNat ((a.toNat % 16 * 64 + tailBits b) * 64 + tailBits c), 3)
              else none
            else match rest with
              | d :: _ =>
                if 0xf0 ≤ a && a ≤ 0xf4 && isTail b && isTail c && isTail d
                    && !(a == 0xf0 && b < 0x90) && !(a == 0xf4 && b > 0x8f) then
                  some (Char.ofNat (((a.toNat % 8 * 64 + tailBits b) * 64 + tailBits c) * 64
                    + tailBits d), 4)
                else none
              | [] => none
          | [] => none
      | [] => none

/-- The first character of the text and its length in bytes, the replacement character of
length one where the text is ill formed. -/
def first (b : Bytes) : Char × Nat :=
  (first? b).getD (replacement, 1)

def pieces : Bytes → List (Char × Bytes)
  | [] => []
  | a :: rest =>
    let (c, n) := first (a :: rest)
    (c, a :: rest.take (n - 1)) :: pieces (rest.drop (n - 1))
termination_by b => b.length
decreasing_by simp only [List.length_drop, List.length_cons]; omega

def chars (b : Bytes) : List Char :=
  (pieces b).map (·.1)

def encode (cs : List Char) : Bytes :=
  cs.flatMap String.utf8EncodeChar

def length (b : Bytes) : Nat :=
  (pieces b).length

/-- Whether the text is well-formed UTF-8. -/
def valid : Bytes → Bool
  | [] => true
  | a :: rest =>
    match first? (a :: rest) with
    | none => false
    | some (_, n) => valid (rest.drop (n - 1))
termination_by b => b.length
decreasing_by simp only [List.length_drop, List.length_cons]; omega

/-- The text with every ill-formed byte replaced by the replacement character. -/
def sanitize (b : Bytes) : Bytes :=
  encode (chars b)

/-- A text with blanks in front up to a number of characters. -/
def padLeft (n : Nat) (b : Bytes) : Bytes := Bytes.spaces (n - length b) ++ b

/-- A text with blanks behind up to a number of characters. -/
def padRight (n : Nat) (b : Bytes) : Bytes := b ++ Bytes.spaces (n - length b)

end VecLang.Utf8
