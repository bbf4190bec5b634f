import VecLang.Machine.State
import VecLang.Value.Eval

/-!
# Steps of the machine

One step carries out one instruction, or the end of a block, of the innermost call.
-/

namespace VecLang.Machine

open Ssa

/-- Comparison: integers and truth values as words, all else lane by lane. -/
def holds (op : BinaryOp) (operand : Ty) (l r : Value) : Bool :=
  if operand = .int || operand = .bool then Value.compareInt op l.word r.word
  else match Value.binary? op l r with
    | some v => v.isTrue
    | none => false

def binaryValue (op : BinaryOp) (operand : Ty) (l r : Value) : Except Status Value :=
  if op.isRel then .ok (.bool (holds op operand l r))
  else if operand = .int && op = .div && r.word = 0 then .error (.trapped .divisionByZero)
  else if operand = .int && op = .div && l.word = Int64.minValue && r.word = -1 then
    .error (.trapped .divisionOverflow)
  else match Value.binary? op l r with
    | some v => .ok v
    | none => .error (.trapped (.operands op l.ty r.ty))

def unaryValue (op : UnaryOp) (x : Value) : Value :=
  if op = .not then { ty := .bool, word := x.word ^^^ 1 }
  else (Value.unary? op x).getD (.zero .invalid)

def printed? (name : Bytes) (v : Value) : Option Bytes :=
  if name = Bytes.ofString "printi" then some (Bytes.ofInt v.word.toInt)
  else if name = Bytes.ofString "printr" then some (Decimal.sixPlaces v.lanes.x)
  else if name = Bytes.ofString "printb" then some (Bytes.ofBool v.isTrue)
  else none

def isBuiltin (name : Bytes) : Bool := (printed? name (.zero .invalid)).isSome

def State.enter (p : Program) (s : State) (r : Routine) (args : List Value)
    (resultTo : ValueId) : Except Status State := do
  if s.stack.length ≥ p.limits.depth then
    throw (.trapped (.callDepth p.limits.depth r.func.name))
  let fr ← (Frame.enter r resultTo).bindArgs r.func.args args
  return { s with stack := fr :: s.stack, log := .entered r.func.name :: s.log }

/-- Leave the innermost call; the outermost ends the program, whose status is the low byte of
an integer result. -/
def State.leave (s : State) (fr : Frame) (below : List Frame) (v : Option Value) : State :=
  match below with
  | [] =>
    let code := match v with
      | some v => if v.ty = .int then v.word.toUInt64.toNat % 256 else 0
      | none => 0
    { s with stack := [], status := .exited code }
  | caller :: rest =>
    let caller :=
      if fr.resultTo = 0 then caller else caller.define fr.resultTo (v.getD (.zero .invalid))
    { s with stack := caller :: rest }

/-- Carry out an instruction of the call `fr`, which stands behind it already. -/
def State.instr (p : Program) (s : State) (fr : Frame) (below : List Frame) (i : Instr) :
    Except Status State :=
  let m := p.module
  let define (id : ValueId) (v : Value) : State := { s with stack := fr.define id v :: below }
  match i with
  | .assign dst src => do return define dst (← fr.read m src)
  | .binary dst op operand _ l r => do
    let l ← fr.read m l
    let r ← fr.read m r
    return define dst (← binaryValue op operand l r)
  | .unary dst op x => do return define dst (unaryValue op (← fr.read m x))
  | .call dst callee name args => do
    let vs ← fr.readAll m args
    let s := { s with stack := fr :: below }
    if isBuiltin name then
      match vs with
      | [] => throw (.broken .outOfRange)
      | v :: _ => return { s with log := .line ((printed? name v).getD []) :: s.log }
    else match p.callee? callee with
      | none => throw (.trapped (.unknownFunction name))
      | some r => s.enter p r vs dst
  | .pack dst elems => do
    let vs ← fr.readAll m elems
    let t ← (m.typeOf dst).mapError .broken
    return define dst (← (Value.pack t vs).mapError .broken)
  | .swizzle dst x lanes => do
    let x ← fr.read m x
    return define dst (← (x.swizzle lanes).mapError .broken)
  | .unknown k => .error (.trapped (.unknownInstr k))

def State.goto (s : State) (fr : Frame) (below : List Frame) (block : Nat) :
    Except Status State :=
  if block < fr.routine.func.blocks.size then
    .ok { s with stack := { fr with block, next := 0 } :: below }
  else .error (.trapped (.fellOff fr.routine.func.name))

def State.jump (p : Program) (s : State) (fr : Frame) (below : List Frame) (l : LabelId) :
    Except Status State :=
  match blockOf? fr.routine.func.blocks l with
  | some block => s.goto fr below block
  | none => .error (.trapped (.unknownLabel (p.module.labelName l) fr.routine.func.name))

def State.term (p : Program) (s : State) (fr : Frame) (below : List Frame) (t : Term) :
    Except Status State :=
  match t with
  | .none => s.goto fr below (fr.block + 1)
  | .branch l op r operand target => do
    let l ← fr.read p.module l
    let r ← fr.read p.module r
    if holds op operand l r then s.jump p fr below target
    else s.goto fr below (fr.block + 1)
  | .goto target => s.jump p fr below target
  | .ret none => .ok (s.leave fr below none)
  | .ret (some a) => do return s.leave fr below (some (← fr.read p.module a))
  | .halt => .ok { s with stack := [], status := .exited 1 }
  | .unknown k => .error (.trapped (.unknownTerm k))

/-- Carry out what comes next in the innermost call. -/
def State.advance (p : Program) (s : State) : Except Status State :=
  match s.stack with
  | [] => .ok s
  | fr :: below =>
    match fr.routine.func.blocks[fr.block]? with
    | none => .error (.broken .outOfRange)
    | some b =>
      match b.instrs[fr.next]? with
      | some i => s.instr p { fr with next := fr.next + 1 } below i
      | none => s.term p fr below b.term

def Limits.exceeded? (l : Limits) (steps : Nat) : Option Nat :=
  l.steps.filter fun n => n < steps

def State.step (p : Program) (s : State) : State :=
  let s := { s with steps := s.steps + 1 }
  match p.limits.exceeded? s.steps with
  | some n => { s with status := .trapped (.stepLimit n) }
  | none =>
    match s.advance p with
    | .ok t => t
    | .error status => { s with status }

def Program.start (p : Program) : State :=
  let s : State := {}
  match p.main? with
  | none => { s with status := .trapped .noMain }
  | some r =>
    match s.enter p r [] 0 with
    | .ok t => t
    | .error status => { s with status }

def State.run (p : Program) : (fuel : Nat) → State → State
  | 0, s => s
  | fuel + 1, s => if s.status = .running then (s.step p).run p fuel else s

/-- A number of steps that no program reaches in practice. -/
def horizon : Nat := 0x4000000000000000

def Program.run (p : Program) : State :=
  match p.limits.steps with
  | some n => p.start.run p (n + 1)
  | none => p.start.run p horizon

end VecLang.Machine
