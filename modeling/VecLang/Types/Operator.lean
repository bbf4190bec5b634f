import VecLang.Types.TypeVar

/-!
# Operators and their types
-/

namespace VecLang

inductive BinaryOp where
  /-- No operator at all. -/
  | invalid
  | add
  | sub
  | mul
  | div
  | lt
  | le
  | gt
  | ge
  | eq
  | ne
  | and
  | or
deriving DecidableEq, Inhabited

namespace BinaryOp

/-- Every operator, in order of declaration. -/
def all : List BinaryOp := [invalid, add, sub, mul, div, lt, le, gt, ge, eq, ne, and, or]

def name : BinaryOp → Bytes
  | invalid => "?"
  | add => "+"
  | sub => "-"
  | mul => "*"
  | div => "/"
  | lt => "<"
  | le => "<="
  | gt => ">"
  | ge => ">="
  | eq => "=="
  | ne => "!="
  | and => "and"
  | or => "or"

def isArith : BinaryOp → Bool
  | add | sub | mul | div => true
  | _ => false

/-- Whether the operator compares by order. -/
def isOrdering : BinaryOp → Bool
  | lt | le | gt | ge => true
  | _ => false

def isRel : BinaryOp → Bool
  | eq | ne => true
  | op => op.isOrdering

def isLogic : BinaryOp → Bool
  | and | or => true
  | _ => false

/-- The comparison with the opposite outcome; any other operator is left as it is. -/
def negate : BinaryOp → BinaryOp
  | lt => ge
  | le => gt
  | gt => le
  | ge => lt
  | eq => ne
  | ne => eq
  | op => op

/-- Whether the operation scales a vector by a real number: times on either side, or divided
by it. -/
def isScaling (op : BinaryOp) (l r : Ty) : Bool :=
  match op with
  | mul => (l.isVector && r = .real) || (l = .real && r.isVector)
  | div => l.isVector && r = .real
  | _ => false

def result? (op : BinaryOp) (l r : Ty) : Option Ty :=
  if op.isScaling l r then some (if l.isVector then l else r)
  else if l ≠ r then none
  else
    let accepted (c : TypeVar) (t : Ty) := if (TypeVar.exact l).within c then some t else none
    match op with
    | add | sub => accepted .linear l
    | mul | div => accepted .number l
    | lt | le | gt | ge => accepted .scalar .bool
    | eq | ne => accepted .linear .bool
    | and | or => if l = .bool then some .bool else none
    | invalid => none

end BinaryOp

inductive UnaryOp where
  /-- No operator at all. -/
  | invalid
  | neg
  | not
deriving DecidableEq, Inhabited

namespace UnaryOp

/-- Every operator, in order of declaration. -/
def all : List UnaryOp := [invalid, neg, not]

def name : UnaryOp → Bytes
  | invalid => "?"
  | neg => "-"
  | not => "not"

def result? (op : UnaryOp) (t : Ty) : Option Ty :=
  match op with
  | neg => if (TypeVar.exact t).within .linear then some t else none
  | not => if t = .bool then some t else none
  | invalid => none

end UnaryOp

namespace Swizzle

def operandClass (maxLane : Nat) : TypeVar :=
  match maxLane with
  | 3 => .exact .vec4
  | 2 => .vec34
  | _ => .vec

/-- The type of a choice of `n` lanes: a number for one, a vector for more. -/
def result? (n : Nat) : Option Ty := if n = 1 then some .real else Ty.vector? n

end Swizzle

end VecLang
