import VecLang.Text.Bytes
import VecLang.Number.Binary32

/-!
# Decimal text of single-precision numbers

Writing a number with the fewest digits that read back as the same number, writing it with a
fixed count of places, and reading a decimal.
-/

namespace VecLang.Decimal

open Binary32

/-- A positive decimal `0.d₁d₂… * 10 ^ point`; the first and the last digit are not zero. -/
structure Digits where
  /-- The digits as one number. -/
  value : Nat
  /-- How many digits there are. -/
  count : Nat
  /-- The position of the decimal point counted from the first digit. -/
  point : Int

def compareRatio (num den k : Nat) (e : Int) : Ordering :=
  if e ≥ 0 then compare num (den * k * Nat.pow 10 e.toNat)
  else compare (num * Nat.pow 10 (-e).toNat) (den * k)

def log10From (num den : Nat) : (fuel : Nat) → Int → Int
  | 0, e => e
  | fuel + 1, e =>
    if compareRatio num den 1 e == .lt then log10From num den fuel (e - 1)
    else if compareRatio num den 1 (e + 1) == .lt then e
    else log10From num den fuel (e + 1)

def numerator (a : Binary32) : Nat :=
  if a.scale ≥ 0 then a.significand * Nat.pow 2 a.scale.toNat else a.significand

def denominator (a : Binary32) : Nat :=
  if a.scale ≥ 0 then 1 else Nat.pow 2 (-a.scale).toNat

/-- Whether the decimal `k * 10 ^ e` reads back as the finite nonzero number `a` up to sign.
The numbers that do lie between the midpoints to the neighbours of `a`; the midpoints belong
to it when its significand is even. -/
def readsBack (a : Binary32) (k : Nat) (e : Int) : Bool :=
  let num := numerator a
  let den := denominator a
  -- in units of a quarter of the last place
  let below := if a.significand = 0x800000 && a.exponent > 1 then 1 else 2
  let step := if a.scale ≥ 0 then Nat.pow 2 a.scale.toNat else 1
  let lower := compareRatio (4 * num - below * step) (4 * den) k e
  let upper := compareRatio (4 * num + 2 * step) (4 * den) k e
  let even := a.significand % 2 = 0
  (lower == .lt || (even && lower == .eq)) && (upper == .gt || (even && upper == .eq))

/-- The value of `num / den` counted in units of `10 ^ e`, rounded down. -/
def floorUnits (num den : Nat) (e : Int) : Nat :=
  if e ≥ 0 then num / (den * Nat.pow 10 e.toNat) else num * Nat.pow 10 (-e).toNat / den

/-- The neighbour of the value on the grid of `10 ^ e` that reads back, the nearer of two and
the even one of two that are equally near. -/
def onGrid (a : Binary32) (e : Int) : Option Nat :=
  let num := numerator a
  let den := denominator a
  let lo := floorUnits num den e
  match readsBack a lo e, readsBack a (lo + 1) e with
  | false, false => none
  | true, false => some lo
  | false, true => some (lo + 1)
  | true, true =>
    -- compare the value with the middle between the two
    match compareRatio (2 * num) den (2 * lo + 1) e with
    | .lt => some lo
    | .eq => some (lo + lo % 2)
    | .gt => some (lo + 1)

/-- Drop trailing zeros, keeping the value `value * 10 ^ e`. -/
def dropZeros : (fuel : Nat) → Nat → Int → Nat × Int
  | 0, v, e => (v, e)
  | fuel + 1, v, e => if v ≠ 0 && v % 10 = 0 then dropZeros fuel (v / 10) (e + 1) else (v, e)

/-- The first grid, from coarse to fine, with a decimal that reads back. -/
def searchGrids (a : Binary32) : (fuel : Nat) → Int → Nat × Int
  | 0, e => (floorUnits (numerator a) (denominator a) e, e)
  | fuel + 1, e =>
    match onGrid a e with
    | some k => (k, e)
    | none => searchGrids a fuel (e - 1)

/-- The shortest decimal that reads back as the finite nonzero number `a`, up to sign. -/
def shortest (a : Binary32) : Digits :=
  let e := log10From (numerator a) (denominator a) 100 0
  let (k, e) := searchGrids a 17 e
  let (k, e) := dropZeros 20 k e
  let count := (toString k).length
  { value := k, count, point := e + count }

/-- The exponent part: a sign and at least two digits. -/
def exponentText (e : Int) : Bytes :=
  let digits := Bytes.ofNat e.natAbs
  (if e < 0 then "e-" else "e+") ++ (if digits.length < 2 then "0" ++ digits else digits)

/-- Decimal digits written positionally when the exponent is at least -4 and below 6, and
with an exponent otherwise. -/
def Digits.text (d : Digits) : Bytes :=
  let digits := Bytes.ofNat d.value
  let e := d.point - 1
  if e < -4 || e ≥ 6 then
    digits.take 1 ++ (if d.count > 1 then "." ++ digits.drop 1 else []) ++ exponentText e
  else if d.point ≤ 0 then "0." ++ Bytes.replicate (-d.point).toNat 0x30 ++ digits
  else
    let n := d.point.toNat
    if d.count ≤ n then digits ++ Bytes.replicate (n - d.count) 0x30
    else digits.take n ++ "." ++ digits.drop n

/-- A number with the fewest digits that read back. -/
def shortestText (a : Binary32) : Bytes :=
  if a.isNaN then "NaN"
  else if a.isInf then if a.negative then "-Inf" else "+Inf"
  else
    let sign : Bytes := if a.negative then "-" else ""
    sign ++ (if a.isZero then ("0" : Bytes) else (shortest a).text)

/-- A number as it is written in a program: the shortest text, with `.0` where it would read
as an integer. -/
def realText (a : Binary32) : Bytes :=
  let t := shortestText a
  -- a point, an exponent or a letter of `NaN` and `Inf`
  if t.any fun c => [0x2e, 0x65, 0x45, 0x6e, 0x4e].contains c then t else t ++ ".0"

/-- A number with six places, rounded half to even on its exact value. -/
def sixPlaces (a : Binary32) : Bytes :=
  let sign : Bytes := if a.negative then "-" else ""
  if a.isNaN then sign ++ "nan"
  else if a.isInf then sign ++ "inf"
  else
    let n := roundDiv (numerator a * 1000000) (denominator a)
    let frac := Bytes.ofNat (n % 1000000)
    sign ++ Bytes.ofNat (n / 1000000) ++ "." ++ Bytes.replicate (6 - frac.length) 0x30 ++ frac

/-- The nearest number to `k * 10 ^ e`, none when it is too large. Far exponents are decided
by the count of digits. -/
def ofDecimal (k : Nat) (e : Int) : Option Binary32 :=
  let reach : Int := (toString k).length + e
  if k = 0 || reach < -60 then some .zero
  else if reach > 60 then none
  else
    let r := if e ≥ 0 then ofRatio false (k * Nat.pow 10 e.toNat) 1
      else ofRatio false k (Nat.pow 10 (-e).toNat)
    if r.isInf then none else some r

def digitsValue (b : Bytes) : Nat :=
  b.foldl (fun n c => 10 * n + (c.toNat - 0x30)) 0

/-- Read digits with an optional point and an optional exponent; none when the number is too
large. -/
def parse? (b : Bytes) : Option Binary32 :=
  let whole := b.takeWhile Bytes.isDigit
  let rest := b.dropWhile Bytes.isDigit
  let frac := if rest.head? = some 0x2e then (rest.drop 1).takeWhile Bytes.isDigit else []
  let rest := if rest.head? = some 0x2e then (rest.drop 1).dropWhile Bytes.isDigit else rest
  let expo : Int := match rest with
    | [] => 0
    | _ :: 0x2d :: ds => -(digitsValue ds : Int)
    | _ :: 0x2b :: ds => digitsValue ds
    | _ :: ds => digitsValue ds
  ofDecimal (digitsValue (whole ++ frac)) (expo - frac.length)

end VecLang.Decimal
