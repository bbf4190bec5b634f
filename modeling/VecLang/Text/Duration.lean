import VecLang.Text.Bytes

/-!
# Durations as text

A duration is a sum of numbers with units, such as `1h30m` or `1.5s`, behind an optional sign.
-/

namespace VecLang.Duration

def units : List (Bytes × Nat) :=
  [("ns", 1), ("us", 1000), ("µs", 1000), ("μs", 1000), ("ms", 1000000), ("s", 1000000000),
   ("m", 60000000000), ("h", 3600000000000)]

/-- Why a text is not a duration. -/
inductive Fault where
  | malformed
  | missingUnit
  | unknownUnit (name : Bytes)
deriving DecidableEq, Inhabited

/-- A text in quotes, with every byte outside of printable ASCII escaped. -/
def quote (b : Bytes) : Bytes :=
  let char (c : UInt8) : Bytes :=
    if c < 0x20 || 0x80 ≤ c then "\\x" ++ Bytes.hexFixed 2 c.toNat
    else if c = 0x22 || c = 0x5c then [0x5c, c]
    else [c]
  "\"" ++ b.flatMap char ++ "\""

def Fault.message (text : Bytes) : Fault → Bytes
  | malformed => "time: invalid duration " ++ quote text
  | missingUnit => "time: missing unit in duration " ++ quote text
  | unknownUnit u => "time: unknown unit " ++ quote u ++ " in duration " ++ quote text

def limit : Nat := 0x8000000000000000

def digitsValue (ds : Bytes) : Nat := ds.foldl (fun n d => 10 * n + (d.toNat - 0x30)) 0

/-- A number with its unit, in nanoseconds, and the text behind it. -/
def part (b : Bytes) : Except Fault (Nat × Bytes) := do
  let whole := b.takeWhile Bytes.isDigit
  let rest := b.drop whole.length
  let (frac, rest) := match rest with
    | 0x2e :: more => (more.takeWhile Bytes.isDigit, more.dropWhile Bytes.isDigit)
    | _ => ([], rest)
  if whole.isEmpty && frac.isEmpty then throw .malformed
  if limit < digitsValue whole then throw .malformed
  let name := rest.takeWhile fun c => c ≠ 0x2e && !Bytes.isDigit c
  if name.isEmpty then throw .missingUnit
  match units.lookup name with
  | none => throw (.unknownUnit name)
  | some unit =>
    let n := digitsValue whole * unit + digitsValue frac * unit / Nat.pow 10 frac.length
    if limit < n then throw .malformed
    return (n, rest.drop name.length)

def parts : (fuel : Nat) → (sum : Nat) → Bytes → Except Fault Nat
  | 0, sum, _ => .ok sum
  | _ + 1, sum, [] => .ok sum
  | fuel + 1, sum, b => do
    let (n, rest) ← part b
    if limit < sum + n then throw .malformed
    parts fuel (sum + n) rest

def ofText (b : Bytes) : Except Fault Int := do
  let (negative, body) := match b with
    | 0x2d :: rest => (true, rest)
    | 0x2b :: rest => (false, rest)
    | _ => (false, b)
  if body = "0" then return 0
  if body.isEmpty then throw .malformed
  let n ← parts body.length 0 body
  if negative then return -(n : Int)
  else if n < limit then return n
  else throw .malformed

end VecLang.Duration
