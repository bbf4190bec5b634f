import VecLang.Types.Basic
import VecLang.Number.Decimal

/-!
# Values

A value of the language: a type, the word of an integer or truth value, and four lanes of
single precision. The type tells which part counts.
-/

namespace VecLang

structure Lanes where
  x : Binary32 := .zero
  y : Binary32 := .zero
  z : Binary32 := .zero
  w : Binary32 := .zero
deriving DecidableEq, Inhabited

namespace Lanes

def toList (l : Lanes) : List Binary32 := [l.x, l.y, l.z, l.w]

def ofList (ls : List Binary32) : Lanes :=
  ⟨ls.getD 0 .zero, ls.getD 1 .zero, ls.getD 2 .zero, ls.getD 3 .zero⟩

def zipFirst (n : Nat) (f : Binary32 → Binary32 → Binary32) (a b : Lanes) : Lanes :=
  ofList ((List.zipWith f a.toList b.toList).take n)

def mapFirst (n : Nat) (f : Binary32 → Binary32) (a : Lanes) : Lanes :=
  ofList ((a.toList.take n).map f ++ a.toList.drop n)

end Lanes

structure Value where
  ty : Ty
  /-- An integer, or a truth value as zero or one. -/
  word : Int64 := 0
  /-- The lanes of a number or vector, of which the type tells how many count. -/
  lanes : Lanes := {}
deriving DecidableEq, Inhabited

namespace Value

def int (n : Int64) : Value := { ty := .int, word := n }

def bool (b : Bool) : Value := { ty := .bool, word := if b then 1 else 0 }

def real (x : Binary32) : Value := { ty := .real, lanes := { x } }

def complex (re im : Binary32) : Value := { ty := .complex, lanes := { x := re, y := im } }

def zero (t : Ty) : Value := { ty := t }

def isTrue (v : Value) : Bool := v.word ≠ 0

def parts (v : Value) : List Binary32 := v.lanes.toList.take v.ty.lanes

/-- The sixteen bytes that hold the value in memory. -/
structure Bits where
  low : UInt64
  high : UInt64
deriving DecidableEq, Inhabited

/-- Two lanes as one word, the first in the low half. -/
def pairBits (a b : Binary32) : UInt64 := a.bits.toUInt64 ||| b.bits.toUInt64 <<< 32

def bits (v : Value) : Bits :=
  if v.ty.isFloat then
    let l := Lanes.ofList v.parts
    ⟨pairBits l.x l.y, pairBits l.z l.w⟩
  else ⟨v.word.toUInt64, 0⟩

def text (v : Value) : Bytes :=
  match v.ty with
  | .invalid => "<invalid>"
  | .int => Bytes.ofInt v.word.toInt
  | .bool => Bytes.ofBool v.isTrue
  | .real => Decimal.realText v.lanes.x
  | t => t.name ++ "(" ++ Bytes.join ", " (v.parts.map Decimal.realText) ++ ")"

end Value

end VecLang
