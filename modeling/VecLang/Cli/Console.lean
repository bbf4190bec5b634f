import VecLang.Cli.Failure
import VecLang.Host.Environment

/-!
# The console

What a command can see and change while it runs: the host, its input, what it has written so far,
and the trace of what it does.
-/

namespace VecLang.Cli

open Host

inductive TraceTarget where
  /-- Between the errors. -/
  | errors
  | file (path : Bytes)
  /-- Nowhere, until the command is done. -/
  | memory
deriving DecidableEq, Inhabited

/-- A trace that is being recorded. -/
structure Tracing where
  tracer : Trace.Tracer
  target : TraceTarget

structure Console where
  host : Environment
  input : Bytes := []
  output : Bytes := []
  errors : Bytes := []
  tracing : Option Tracing := none

/-- The work of a command. A failure keeps what was done before it, a breakdown does not. -/
abbrev Job := ExceptT Failure (StateT Console (Except Breakdown))

namespace Console

/-- Record what was done. Events that go somewhere are there at once. -/
def record (c : Console) (done : List Trace.Activity) : Console :=
  match c.tracing with
  | none => c
  | some t =>
    let before := t.tracer.output .text
    let tracer := Trace.recordAll 0 t.tracer done
    let after := tracer.output .text
    let c := { c with tracing := some { t with tracer } }
    match t.target with
    | .memory => c
    | .errors => { c with errors := c.errors ++ after.drop before.length }
    | .file path =>
      match c.host.files.write c.host.here path after with
      | .ok files => { c with host := { c.host with files } }
      | .error _ => c

end Console

namespace Job

def host : Job Environment := return (← get).host

def setHost (e : Environment) : Job Unit := modify fun c => { c with host := e }

def setFiles (files : Files) : Job Unit :=
  modify fun c => { c with host := { c.host with files } }

def print (b : Bytes) : Job Unit := modify fun c => { c with output := c.output ++ b }

def complain (b : Bytes) : Job Unit := modify fun c => { c with errors := c.errors ++ b }

def record (done : List Trace.Activity) : Job Unit := modify (·.record done)

/-- The result of something that may break down. -/
def sound (x : Except Breakdown α) : Job α := liftM (m := Except Breakdown) x

def orFail (failure : ε → Failure) : Except ε α → Job α
  | .ok a => return a
  | .error e => throw (failure e)

end Job

end VecLang.Cli
