/-!
# Single-precision numbers

Binary floating point with 24 significant bits, by exact integer arithmetic: every operation
computes the exact result and rounds it once, to the nearest number, a tie going to the even
one. An invalid operation gives the negative quiet NaN with an empty payload; an operation on
a NaN returns that NaN.
-/

namespace VecLang

/-- A single-precision number as its 32 bits: sign, eight exponent bits, 23 fraction bits. -/
structure Binary32 where
  bits : UInt32
  deriving DecidableEq, Inhabited

namespace Binary32

def zero : Binary32 := ⟨0⟩

def invalid : Binary32 := ⟨0xffc00000⟩

def negative (a : Binary32) : Bool := a.bits ≥ 0x80000000

def magnitude (a : Binary32) : Nat := a.bits.toNat % 0x80000000

def isNaN (a : Binary32) : Bool := a.magnitude > 0x7f800000

def isInf (a : Binary32) : Bool := a.magnitude = 0x7f800000

def isZero (a : Binary32) : Bool := a.magnitude = 0

def exponent (a : Binary32) : Nat := a.magnitude / 0x800000

def significand (a : Binary32) : Nat :=
  if a.exponent = 0 then a.magnitude else a.magnitude % 0x800000 + 0x800000

/-- The power of two that goes with `significand`. -/
def scale (a : Binary32) : Int :=
  if a.exponent = 0 then -149 else (a.exponent : Int) - 150

def ofMagnitude (neg : Bool) (m : Nat) : Binary32 :=
  ⟨(if neg then 0x80000000 + m else m).toUInt32⟩

def signedZero (neg : Bool) : Binary32 := ofMagnitude neg 0

def infinity (neg : Bool) : Binary32 := ofMagnitude neg 0x7f800000

/-- The quotient rounded to the nearest integer, a tie going to the even one. -/
def roundDiv (num den : Nat) : Nat :=
  let q := num / den
  let r := num % den
  if 2 * r < den then q else if 2 * r > den then q + 1 else q + q % 2

def shift (n : Nat) (k : Int) : Nat :=
  if k ≥ 0 then n * Nat.pow 2 k.toNat else n / Nat.pow 2 (-k).toNat

def log2Ratio (num den : Nat) : Int :=
  let k : Int := (num.log2 : Int) - (den.log2 : Int)
  let small := if k ≥ 0 then num < den * Nat.pow 2 k.toNat else num * Nat.pow 2 (-k).toNat < den
  if small then k - 1 else k

/-- The nearest number to `num / den`, for a positive numerator and denominator. -/
def ofRatio (neg : Bool) (num den : Nat) : Binary32 :=
  let q := max (log2Ratio num den - 23) (-149)
  let m := if q ≥ 0 then roundDiv num (den * Nat.pow 2 q.toNat)
    else roundDiv (num * Nat.pow 2 (-q).toNat) den
  let bits := (q + 149).toNat * 0x800000 + m
  if bits ≥ 0x7f800000 then infinity neg else ofMagnitude neg bits

def ofScaled (neg : Bool) (m : Nat) (q : Int) : Binary32 :=
  if q ≥ 0 then ofRatio neg (m * Nat.pow 2 q.toNat) 1 else ofRatio neg m (Nat.pow 2 (-q).toNat)

def quiet (a : Binary32) : Binary32 := ⟨a.bits ||| 0x00400000⟩

def neg (a : Binary32) : Binary32 := ⟨a.bits ^^^ 0x80000000⟩

def units (a : Binary32) (q : Int) : Int :=
  let m : Int := a.significand * Nat.pow 2 (a.scale - q).toNat
  if a.negative then -m else m

def addNumbers (a b : Binary32) : Binary32 :=
  if a.isInf then
    if b.isInf && a.negative != b.negative then invalid else a
  else if b.isInf then b
  else
    let q := min a.scale b.scale
    let sum := a.units q + b.units q
    if sum = 0 then signedZero (a.negative && b.negative)
    else ofScaled (sum < 0) sum.natAbs q

def add (a b : Binary32) : Binary32 :=
  if a.isNaN then a.quiet else if b.isNaN then b.quiet else addNumbers a b

def sub (a b : Binary32) : Binary32 :=
  if a.isNaN then a.quiet else if b.isNaN then b.quiet else addNumbers a b.neg

def mul (a b : Binary32) : Binary32 :=
  let neg := a.negative != b.negative
  if a.isNaN then a.quiet else if b.isNaN then b.quiet
  else if a.isInf || b.isInf then
    if a.isZero || b.isZero then invalid else infinity neg
  else if a.isZero || b.isZero then signedZero neg
  else ofScaled neg (a.significand * b.significand) (a.scale + b.scale)

def div (a b : Binary32) : Binary32 :=
  let neg := a.negative != b.negative
  if a.isNaN then a.quiet else if b.isNaN then b.quiet
  else if a.isInf then if b.isInf then invalid else infinity neg
  else if b.isInf then signedZero neg
  else if b.isZero then if a.isZero then invalid else infinity neg
  else if a.isZero then signedZero neg
  else
    let q := a.scale - b.scale
    if q ≥ 0 then ofRatio neg (a.significand * Nat.pow 2 q.toNat) b.significand
    else ofRatio neg a.significand (b.significand * Nat.pow 2 (-q).toNat)

/-- The place of a number that is not NaN in the order of all numbers; both zeros are at 0. -/
def rank (a : Binary32) : Int :=
  if a.negative then -(a.magnitude : Int) else a.magnitude

/-- Less than; false when either side is a NaN. -/
def lt (a b : Binary32) : Bool := !a.isNaN && !b.isNaN && a.rank < b.rank

/-- At most; false when either side is a NaN. -/
def le (a b : Binary32) : Bool := !a.isNaN && !b.isNaN && a.rank ≤ b.rank

/-- Equality as numbers: the two zeros are equal and a NaN equals nothing. -/
def eq (a b : Binary32) : Bool := !a.isNaN && !b.isNaN && a.rank = b.rank

end Binary32

end VecLang
