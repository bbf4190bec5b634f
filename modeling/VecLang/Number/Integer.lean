import VecLang.Text.Bytes

/-!
# Integers of 64 bits as text
-/

namespace VecLang.Integer

/-- Whether a number fits into a signed word of 64 bits. -/
def fits (n : Int) : Bool := -0x8000000000000000 ≤ n && n < 0x8000000000000000

def splitSign : Bytes → Bool × Bytes
  | 0x2d :: rest => (true, rest)
  | 0x2b :: rest => (false, rest)
  | b => (false, b)

def signed (negative : Bool) (n : Nat) : Int := if negative then -(n : Int) else n

/-- The number written by decimal digits behind an optional sign, when a word can hold it. -/
def ofDecimal? (b : Bytes) : Option Int :=
  let (negative, digits) := splitSign b
  match Bytes.toNat? digits with
  | some n => if fits (signed negative n) then some (signed negative n) else none
  | none => none

/-! ## Numbers in any base -/

/-- Why a text is not a number. -/
inductive Fault where
  /-- It is not written like a number. -/
  | malformed
  /-- No word can hold the number. -/
  | outOfRange
deriving DecidableEq, Inhabited

/-- The base that is written in front of digits, and the digits. A zero in front of other digits
stands for base eight. -/
def splitBase : Bytes → Nat × Bytes
  | 0x30 :: c :: d :: rest =>
    if c = 0x78 || c = 0x58 then (16, d :: rest)
    else if c = 0x6f || c = 0x4f then (8, d :: rest)
    else if c = 0x62 || c = 0x42 then (2, d :: rest)
    else (8, c :: d :: rest)
  | 0x30 :: rest => (8, rest)
  | b => (10, b)

/-- Add digits to a number below 2 ^ 64. Underscores do not count. -/
def addDigits (base n : Nat) : Bytes → Except Fault Nat
  | [] => .ok n
  | 0x5f :: rest => addDigits base n rest
  | c :: rest =>
    match Bytes.hexValue? c with
    | none => .error .malformed
    | some d =>
      if base ≤ d then .error .malformed
      else if 0x10000000000000000 ≤ base * n + d then .error .outOfRange
      else addDigits base (base * n + d) rest

/-- Whether underscores stand only between digits, or between the mark of a base and a digit.
`after` tells whether a digit or such a mark was just seen. -/
def underscoresOk (after : Bool) : Bytes → Bool
  | [] => true
  | 0x5f :: c :: rest => after && c ≠ 0x5f && underscoresOk true rest
  | [0x5f] => false
  | _ :: rest => underscoresOk true rest

/-- The number written behind an optional sign, in base ten or in the base written in front. -/
def ofText (b : Bytes) : Except Fault Int := do
  let (negative, body) := splitSign b
  if body.isEmpty then throw .malformed
  let (base, digits) := splitBase body
  let n ← addDigits base 0 digits
  if !underscoresOk (base ≠ 10) digits then throw .malformed
  let v := signed negative n
  if fits v then return v else throw .outOfRange

end VecLang.Integer
