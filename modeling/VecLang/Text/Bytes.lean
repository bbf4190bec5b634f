/-!
# Byte strings

Source text, names and messages are kept as their bytes: a source file may hold bytes that
are not UTF-8, and spans count bytes. A string literal stands for its UTF-8 bytes.
-/

namespace VecLang

abbrev Bytes := List UInt8

namespace Bytes

def ofString (s : String) : Bytes :=
  s.toList.flatMap String.utf8EncodeChar

/-- A string literal may stand where a byte string is expected. -/
instance : Coe String Bytes := ⟨ofString⟩

/-- A natural number in decimal. -/
def ofNat (n : Nat) : Bytes :=
  ofString (toString n)

/-- An integer in decimal, with a minus sign when negative. -/
def ofInt (n : Int) : Bytes :=
  if n < 0 then "-" ++ ofNat n.natAbs else ofNat n.natAbs

/-- The two truth values as words. -/
def ofBool (b : Bool) : Bytes :=
  if b then "true" else "false"

def replicate (n : Nat) (c : UInt8) : Bytes :=
  List.replicate n c

def spaces (n : Nat) : Bytes :=
  replicate n 0x20

def padLeft (width : Nat) (b : Bytes) : Bytes :=
  spaces (width - b.length) ++ b

def padRight (width : Nat) (b : Bytes) : Bytes :=
  b ++ spaces (width - b.length)

def join (sep : Bytes) : List Bytes → Bytes
  | [] => []
  | [p] => p
  | p :: q :: rest => p ++ sep ++ join sep (q :: rest)

def hasInfix (pattern : Bytes) : Bytes → Bool
  | [] => pattern.isEmpty
  | c :: rest => pattern.isPrefixOf (c :: rest) || hasInfix pattern rest

def trimLeft (p : UInt8 → Bool) (b : Bytes) : Bytes :=
  b.dropWhile p

def trimRight (p : UInt8 → Bool) (b : Bytes) : Bytes :=
  (b.reverse.dropWhile p).reverse

/-- The text without the bytes at both ends that satisfy `p`. -/
def trim (p : UInt8 → Bool) (b : Bytes) : Bytes :=
  trimRight p (trimLeft p b)

/-- The pieces of the text between occurrences of the byte `sep`; always at least one. -/
def splitOn (sep : UInt8) : Bytes → List Bytes
  | [] => [[]]
  | c :: rest =>
    match splitOn sep rest with
    | [] => [[c]]
    | piece :: more => if c = sep then [] :: piece :: more else (c :: piece) :: more

def cut (sep : UInt8) (b : Bytes) : Option (Bytes × Bytes) :=
  match b.dropWhile (· != sep) with
  | [] => none
  | _ :: rest => some (b.takeWhile (· != sep), rest)

def toLower (b : Bytes) : Bytes :=
  b.map fun c => if 0x41 ≤ c && c ≤ 0x5a then c + 0x20 else c

def lt : Bytes → Bytes → Bool
  | _, [] => false
  | [], _ :: _ => true
  | a :: as, b :: bs => a < b || (a == b && lt as bs)

def le (a b : Bytes) : Bool := !lt b a

def hexDigit (n : Nat) : UInt8 :=
  if n < 10 then (0x30 + n).toUInt8 else (0x57 + n).toUInt8

/-- `n` as exactly `width` hexadecimal digits in lower case, higher digits being cut off. -/
def hexFixed : (width : Nat) → Nat → Bytes
  | 0, _ => []
  | w + 1, n => hexFixed w (n / 16) ++ [hexDigit (n % 16)]

/-- Two hexadecimal digits per byte, in lower case. -/
def toHex (b : Bytes) : Bytes :=
  b.flatMap fun c => hexFixed 2 c.toNat

def hexValue? (c : UInt8) : Option Nat :=
  if 0x30 ≤ c && c ≤ 0x39 then some (c.toNat - 0x30)
  else if 0x61 ≤ c && c ≤ 0x66 then some (c.toNat - 0x57)
  else if 0x41 ≤ c && c ≤ 0x46 then some (c.toNat - 0x37)
  else none

/-- The bytes written by pairs of hexadecimal digits. -/
def ofHex? : Bytes → Option Bytes
  | [] => some []
  | [_] => none
  | h :: l :: rest => do
    let hi ← hexValue? h
    let lo ← hexValue? l
    let more ← ofHex? rest
    return (16 * hi + lo).toUInt8 :: more

def isDigit (c : UInt8) : Bool := 0x30 ≤ c && c ≤ 0x39

/-- The number written by a non-empty run of decimal digits. -/
def toNat? (b : Bytes) : Option Nat :=
  if b.isEmpty || !b.all isDigit then none
  else some (b.foldl (fun n c => 10 * n + (c.toNat - 0x30)) 0)

end Bytes

end VecLang
