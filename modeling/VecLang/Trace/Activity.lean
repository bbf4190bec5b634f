import VecLang.Trace.Tracer
import VecLang.Analysis
import VecLang.Machine.State

/-!
# Activities

What the compiler did, as a tree of spans and points, and the events that a tracer records of
it.
-/

namespace VecLang.Trace

inductive Activity where
  | span (scope : Scope) (name detail : Bytes) (extra : List (Bytes × Bytes))
      (parts : List Activity)
  | point (scope : Scope) (name detail : Bytes)
deriving Inhabited

mutual

def Activity.record (parent : Nat) (t : Tracer) : Activity → Tracer
  | .span scope name detail extra parts =>
    let (t, s) := t.begin scope name parent
    let t := recordAll s.id t parts
    t.finish { s with extra } detail
  | .point scope name detail => t.point scope name detail parent

def recordAll (parent : Nat) (t : Tracer) : List Activity → Tracer
  | [] => t
  | a :: rest => recordAll parent (a.record parent t) rest

end

def passOf (name detail : Bytes) : Activity := .span .pass name detail [] []

def ofAnalysis (a : Analysis) : List Activity := a.phases.map fun p => passOf p.name p.note

def ofFunc (f : Ssa.Func) : Activity :=
  let detail := "blocks=" ++ Bytes.ofNat f.blocks.size ++ " phis=" ++ Bytes.ofNat f.phis.length
  .span .func f.name detail [] []

def ofLowering (m : Ssa.Module) : Activity := .span .pass "mir_lower" [] [] (m.funcs.map ofFunc)

def ofRun (s : Machine.State) : Activity :=
  let detail := "steps=" ++ Bytes.ofNat s.steps ++ " exit=" ++ Bytes.ofNat s.exitCode
  .span .pass "vm" detail [] (s.entered.map fun f => .point .func "call" f)

end VecLang.Trace
