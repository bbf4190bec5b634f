import VecLang.Machine.Trap
import VecLang.Ssa.Chains

/-!
# States of the machine

Every call has registers of its own, one for each value it has defined, and one cell for each
chain of phis.
-/

namespace VecLang.Machine

open Ssa

/-- A function with what the machine works out about it once. -/
structure Routine where
  func : Func
  chains : Chains
deriving Inhabited

namespace Routine

def ofFunc (f : Func) : Routine := { func := f, chains := .ofPhis f.phis }

def isPhi (r : Routine) (id : ValueId) : Bool := r.func.phis.any fun p => p.dst = id

end Routine

structure Limits where
  /-- The number of steps, if it is limited. -/
  steps : Option Nat := none
  /-- The number of calls inside each other. -/
  depth : Nat := 10000
deriving DecidableEq, Inhabited

structure Program where
  module : Module
  routines : List Routine
  limits : Limits

namespace Program

def ofModule (m : Module) (limits : Limits) : Program :=
  { module := m, routines := m.funcs.map .ofFunc, limits }

def main? (p : Program) : Option Routine :=
  p.module.main.bind fun main => p.routines.find? fun r => r.func.id = main

def callee? (p : Program) (id : FunId) : Option Routine :=
  p.routines.reverse.find? fun r => r.func.id = id

end Program

/-- A call that is under way. -/
structure Frame where
  routine : Routine
  block : Nat := 0
  /-- The number of the next instruction in the block. -/
  next : Nat := 0
  registers : Assoc ValueId Value := []
  /-- One cell for each chain. -/
  cells : Array Value
  /-- The value of the caller that takes the result, zero for none. -/
  resultTo : ValueId
deriving Inhabited

inductive Event where
  /-- A line was printed. -/
  | line (text : Bytes)
  /-- A function was entered. -/
  | entered (func : Bytes)
deriving DecidableEq, Inhabited

/-- Why a run goes on or not. -/
inductive Status where
  | running
  | exited (code : Nat)
  | trapped (trap : Trap)
  /-- The program made no sense. -/
  | broken (cause : Breakdown)
deriving DecidableEq

instance : Inhabited Status := ⟨.running⟩

structure State where
  /-- The calls under way, the innermost first. -/
  stack : List Frame := []
  /-- How many steps were begun. -/
  steps : Nat := 0
  /-- What was seen, the latest first. -/
  log : List Event := []
  status : Status := .running
deriving Inhabited

def State.output (s : State) : Bytes :=
  s.log.reverse.flatMap fun
    | .line t => t ++ "\n"
    | .entered _ => []

def State.entered (s : State) : List Bytes :=
  s.log.reverse.filterMap fun
    | .entered f => some f
    | .line _ => none

/-- The status of a program that ended by itself, zero for one that was stopped. -/
def State.exitCode (s : State) : Nat :=
  match s.status with
  | .exited c => c
  | _ => 0

namespace Frame

def enter (r : Routine) (resultTo : ValueId) : Frame :=
  { routine := r, cells := Array.replicate r.chains.length (.zero .invalid), resultTo }

/-- Give a value to a number: its register takes it, and the cell of its chain unless the
number is that of a phi. -/
def define (fr : Frame) (id : ValueId) (v : Value) : Frame :=
  let fr := { fr with registers := fr.registers.set id v }
  if fr.routine.isPhi id then fr
  else match fr.routine.chains.indexOf? id with
    | some c => { fr with cells := fr.cells.setIfInBounds c v }
    | none => fr

def value (m : Module) (fr : Frame) (id : ValueId) : Except Status Value :=
  match m.pool.get? id with
  | some v => .ok v
  | none =>
    if fr.routine.isPhi id then
      match fr.cells[(fr.routine.chains.indexOf? id).getD 0]? with
      | some v => .ok v
      | none => .error (.broken .outOfRange)
    else match fr.registers.get? id with
      | some v => .ok v
      | none => .error (.trapped (.readBeforeDefinition id fr.routine.func.name))

def read (m : Module) (fr : Frame) : Atom → Except Status Value
  | .lit v => .ok v
  | .ref id _ => fr.value m id
  | .none => fr.value m 0

def readAll (m : Module) (fr : Frame) (as : List Atom) : Except Status (List Value) :=
  as.mapM (fr.read m)

def bindArgs (fr : Frame) : List ValueId → List Value → Except Status Frame
  | [], _ => .ok fr
  | _ :: _, [] => .error (.broken .outOfRange)
  | a :: as, v :: vs => (fr.define a v).bindArgs as vs

end Frame

end VecLang.Machine
