import VecLang.Value.Basic
import VecLang.Types.Operator
import VecLang.Breakdown

/-!
# Evaluation

The operators on values. Every operation on lanes rounds once to single precision, in the order
of the machine instructions, so a constant worked out here is the number the machine computes.
-/

namespace VecLang.Value

/-- Arithmetic of integers, which wraps. A division by zero, and of the least integer by minus
one, has no result: it stops the machine. -/
def intArith? (op : BinaryOp) (a b : Int64) : Option Int64 :=
  match op with
  | .add => some (a + b)
  | .sub => some (a - b)
  | .mul => some (a * b)
  | .div => if b = 0 || (a = Int64.minValue && b = -1) then none else some (a / b)
  | _ => none

def laneArith (op : BinaryOp) (a b : Binary32) : Binary32 :=
  match op with
  | .add => a.add b
  | .sub => a.sub b
  | .mul => a.mul b
  | _ => a.div b

def complexArith (op : BinaryOp) (l r : Lanes) : Value :=
  let (a, b) := (l.x, l.y)
  let (c, d) := (r.x, r.y)
  match op with
  | .add => complex (a.add c) (b.add d)
  | .sub => complex (a.sub c) (b.sub d)
  | .mul => complex ((a.mul c).sub (b.mul d)) ((a.mul d).add (b.mul c))
  | _ =>
    let den := (c.mul c).add (d.mul d)
    complex (((a.mul c).add (b.mul d)).div den) (((b.mul c).sub (a.mul d)).div den)

/-- A vector times a number, on either side, or divided by one. -/
def scale (op : BinaryOp) (l r : Value) : Value :=
  let (v, s) := if l.ty.isVector then (l, r.lanes.x) else (r, l.lanes.x)
  let op := if op = .mul then .mul else .div
  { ty := v.ty, lanes := .ofList (v.parts.map fun a => laneArith op a s) }

def compareInt (op : BinaryOp) (a b : Int64) : Bool :=
  match op with
  | .lt => a < b
  | .le => a ≤ b
  | .gt => b < a
  | .ge => b ≤ a
  | .eq => a = b
  | _ => a ≠ b

/-- Comparison of one lane; unequal is not a comparison of lanes but the opposite of equal. -/
def compareLane (op : BinaryOp) (a b : Binary32) : Bool :=
  match op with
  | .lt => a.lt b
  | .le => a.le b
  | .gt => b.lt a
  | .ge => b.le a
  | _ => a.eq b

def compare (op : BinaryOp) (l r : Value) : Bool :=
  if l.ty = .int then compareInt op l.word r.word
  else
    let all := ((l.lanes.toList.zip r.lanes.toList).take l.ty.lanes).all fun (a, b) =>
      compareLane op a b
    if op = .ne then !all else all

/-- The value of an operation. There is none when the types do not fit the operator, and when
the machine would stop. -/
def binary? (op : BinaryOp) (l r : Value) : Option Value :=
  match op.result? l.ty r.ty with
  | none => none
  | some res =>
    if op.isScaling l.ty r.ty then some (scale op l r)
    else if op = .and then some (bool (l.isTrue && r.isTrue))
    else if op = .or then some (bool (l.isTrue || r.isTrue))
    else if op.isRel then some (bool (compare op l r))
    else match res with
      | .int => (intArith? op l.word r.word).map int
      | .complex => some (complexArith op l.lanes r.lanes)
      | _ => some { ty := res, lanes := .zipFirst res.lanes (laneArith op) l.lanes r.lanes }

/-- The value of an operation on one operand, when its type fits the operator. Negation of a
lane flips its sign and nothing else. -/
def unary? (op : UnaryOp) (v : Value) : Option Value :=
  match op.result? v.ty with
  | none => none
  | some _ =>
    if op = .not then some (bool (!v.isTrue))
    else if v.ty = .int then some (int (-v.word))
    else some { v with lanes := v.lanes.mapFirst v.ty.lanes Binary32.neg }

def swizzle (v : Value) (lanes : List Nat) : Except Breakdown Value :=
  match Swizzle.result? lanes.length with
  | none => .error (.noVector lanes.length)
  | some t =>
    match lanes.mapM fun i => v.lanes.toList[i]? with
    | none => .error .outOfRange
    | some ls => .ok { ty := t, lanes := .ofList ls }

/-- A value of type `t` made of the first lanes of others. -/
def pack (t : Ty) (comps : List Value) : Except Breakdown Value :=
  if 4 < comps.length then .error .outOfRange
  else .ok { ty := t, lanes := .ofList (comps.map (·.lanes.x)) }

end VecLang.Value
