import VecLang.Machine.Step
import VecLang.Proofs.Ssa.Edges

/-!
# The textbook machine

A machine that runs code in single assignment form as it is meant. Every value has a register of its
own and nothing else, and when control enters a block along its `k`-th way, all phis of the block take
the values of their `k`-th branches at once. Ways are counted in the order of the blocks that they
come from.
-/

namespace VecLang.Textbook

open Ssa Machine

structure Call where
  func : Func
  block : Nat := 0
  /-- The number of the next instruction in the block. -/
  next : Nat := 0
  registers : Assoc ValueId Value := []
  /-- The value of the caller that takes the result, zero for none. -/
  resultTo : ValueId

structure State where
  /-- The calls under way, the innermost first. -/
  stack : List Call := []
  /-- How many steps were begun. -/
  steps : Nat := 0
  /-- What was seen, the latest first. -/
  log : List Event := []
  status : Status := .running

namespace Call

def define (c : Call) (id : ValueId) (v : Value) : Call :=
  { c with registers := c.registers.set id v }

def value (m : Module) (c : Call) (id : ValueId) : Except Status Value :=
  match m.pool.get? id with
  | some v => .ok v
  | none =>
    match c.registers.get? id with
    | some v => .ok v
    | none => .error (.trapped (.readBeforeDefinition id c.func.name))

def read (m : Module) (c : Call) : Atom → Except Status Value
  | .lit v => .ok v
  | .ref id _ => c.value m id
  | .none => c.value m 0

def readAll (m : Module) (c : Call) (as : List Atom) : Except Status (List Value) :=
  as.mapM (c.read m)

def bindArgs (c : Call) : List ValueId → List Value → Except Status Call
  | [], _ => .ok c
  | _ :: _, [] => .error (.broken .outOfRange)
  | a :: as, v :: vs => (c.define a v).bindArgs as vs

def take (m : Module) (c : Call) (k : Nat) (p : Phi) : Except Status (ValueId × Value) :=
  match p.branches[k]? with
  | none => .error (.broken .outOfRange)
  | some b => do return (p.dst, ← c.value m b)

/-- Go on in a block along a way. All branches are read before any phi takes its value. -/
def arrive (m : Module) (c : Call) (w : Way) (block : Nat) : Except Status Call :=
  match c.func.blocks[block]? with
  | none => .error (.trapped (.fellOff c.func.name))
  | some b => do
    let k := (arrivals c.func.blocks block).idxOf w
    let taken ← (c.func.phis.filter fun p => p.label = b.label).mapM (c.take m k)
    return { c with
      block, next := 0, registers := taken.foldl (fun rs x => rs.set x.1 x.2) c.registers }

end Call

namespace State

def enter (p : Program) (s : State) (f : Func) (args : List Value) (resultTo : ValueId) :
    Except Status State := do
  if s.stack.length ≥ p.limits.depth then
    throw (.trapped (.callDepth p.limits.depth f.name))
  let c ← ({ func := f, resultTo } : Call).bindArgs f.args args
  return { s with stack := c :: s.stack, log := .entered f.name :: s.log }

def leave (s : State) (c : Call) (below : List Call) (v : Option Value) : State :=
  match below with
  | [] =>
    let code := match v with
      | some v => if v.ty = .int then v.word.toUInt64.toNat % 256 else 0
      | none => 0
    { s with stack := [], status := .exited code }
  | caller :: rest =>
    let caller :=
      if c.resultTo = 0 then caller else caller.define c.resultTo (v.getD (.zero .invalid))
    { s with stack := caller :: rest }

def instr (p : Program) (s : State) (c : Call) (below : List Call) (i : Instr) :
    Except Status State :=
  let m := p.module
  let define (id : ValueId) (v : Value) : State := { s with stack := c.define id v :: below }
  match i with
  | .assign dst src => do return define dst (← c.read m src)
  | .binary dst op operand _ l r => do
    let l ← c.read m l
    let r ← c.read m r
    return define dst (← binaryValue op operand l r)
  | .unary dst op x => do return define dst (unaryValue op (← c.read m x))
  | .call dst callee name args => do
    let vs ← c.readAll m args
    let s := { s with stack := c :: below }
    if isBuiltin name then
      match vs with
      | [] => throw (.broken .outOfRange)
      | v :: _ => return { s with log := .line ((printed? name v).getD []) :: s.log }
    else match p.callee? callee with
      | none => throw (.trapped (.unknownFunction name))
      | some r => s.enter p r.func vs dst
  | .pack dst elems => do
    let vs ← c.readAll m elems
    let t ← (m.typeOf dst).mapError .broken
    return define dst (← (Value.pack t vs).mapError .broken)
  | .swizzle dst x lanes => do
    let x ← c.read m x
    return define dst (← (x.swizzle lanes).mapError .broken)
  | .unknown k => .error (.trapped (.unknownInstr k))

def goto (p : Program) (s : State) (c : Call) (below : List Call) (w : Way) (block : Nat) :
    Except Status State := do
  let c ← c.arrive p.module w block
  return { s with stack := c :: below }

def jump (p : Program) (s : State) (c : Call) (below : List Call) (l : LabelId) :
    Except Status State :=
  match blockOf? c.func.blocks l with
  | some block => s.goto p c below (.jump c.block) block
  | none => .error (.trapped (.unknownLabel (p.module.labelName l) c.func.name))

def term (p : Program) (s : State) (c : Call) (below : List Call) (t : Term) :
    Except Status State :=
  match t with
  | .none => s.goto p c below (.fall c.block) (c.block + 1)
  | .branch l op r operand target => do
    let l ← c.read p.module l
    let r ← c.read p.module r
    if holds op operand l r then s.jump p c below target
    else s.goto p c below (.fall c.block) (c.block + 1)
  | .goto target => s.jump p c below target
  | .ret none => .ok (s.leave c below none)
  | .ret (some a) => do return s.leave c below (some (← c.read p.module a))
  | .halt => .ok { s with stack := [], status := .exited 1 }
  | .unknown k => .error (.trapped (.unknownTerm k))

/-- Carry out what comes next in the innermost call. -/
def advance (p : Program) (s : State) : Except Status State :=
  match s.stack with
  | [] => .ok s
  | c :: below =>
    match c.func.blocks[c.block]? with
    | none => .error (.broken .outOfRange)
    | some b =>
      match b.instrs[c.next]? with
      | some i => s.instr p { c with next := c.next + 1 } below i
      | none => s.term p c below b.term

def step (p : Program) (s : State) : State :=
  let s := { s with steps := s.steps + 1 }
  match p.limits.exceeded? s.steps with
  | some n => { s with status := .trapped (.stepLimit n) }
  | none =>
    match s.advance p with
    | .ok t => t
    | .error status => { s with status }

def calling (p : Program) (f : Func) (args : List Value) : State :=
  match ({} : State).enter p f args 0 with
  | .ok t => t
  | .error status => { status }

def run (p : Program) : (fuel : Nat) → State → State
  | 0, s => s
  | fuel + 1, s => if s.status = .running then (s.step p).run p fuel else s

end State

end VecLang.Textbook
