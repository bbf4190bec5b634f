import VecLang.Text.Quoted
import VecLang.Text.Unicode.Case

/-!
# Levels of tracing

A level tells how fine the events are that are recorded; a scope tells how fine an event is.
-/

namespace VecLang.Trace

/-- How fine an event is; a higher rank is finer. -/
structure Scope where
  rank : Nat
deriving DecidableEq, Inhabited

namespace Scope

def driver : Scope := ⟨1⟩

def pass : Scope := ⟨2⟩

def func : Scope := ⟨3⟩

def node : Scope := ⟨4⟩

def name (s : Scope) : Bytes :=
  match s.rank with
  | 1 => "driver"
  | 2 => "pass"
  | 3 => "func"
  | 4 => "node"
  | _ => "unknown"

end Scope

inductive Level where
  | off
  | error
  | phase
  | detail
  | debug
deriving DecidableEq, Inhabited

namespace Level

def name : Level → Bytes
  | off => "off"
  | error => "error"
  | phase => "phase"
  | detail => "detail"
  | debug => "debug"

def all : List Level := [off, error, phase, detail, debug]

def parse? (b : Bytes) : Option Level := all.find? fun l => l.name = Unicode.lower b

def unknown (b : Bytes) : Bytes :=
  "invalid trace level: " ++ Quoted.quote b ++ " (expected: off|error|phase|detail|debug)"

def admits (l : Level) (s : Scope) : Bool :=
  match l with
  | phase => s.rank ≤ 2
  | detail => s.rank ≤ 3
  | debug => true
  | _ => false

end Level

inductive Mode where
  /-- Each event is written at once. -/
  | stream
  /-- The latest events are kept in memory. -/
  | ring
deriving DecidableEq, Inhabited

namespace Mode

def name : Mode → Bytes
  | stream => "stream"
  | ring => "ring"

def parse? (b : Bytes) : Option Mode := [stream, ring].find? fun m => m.name = Unicode.lower b

def unknown (b : Bytes) : Bytes :=
  "invalid storage mode: " ++ Quoted.quote b ++ " (expected: stream|ring)"

end Mode

inductive Format where
  /-- As the name of the output tells. -/
  | auto
  | text
  /-- One object a line. -/
  | ndjson
deriving DecidableEq, Inhabited

namespace Format

/-- The format with a name; case does not matter. -/
def parse? (b : Bytes) : Option Format :=
  let l := Unicode.lower b
  if l = [] || l = "auto" then some auto
  else if l = "text" then some text
  else if l = "ndjson" || l = "json" then some ndjson
  else none

def unknown (b : Bytes) : Bytes :=
  "invalid trace format: " ++ Quoted.quote b ++ " (expected: auto|text|ndjson)"

def number : Format → Nat
  | auto => 0
  | text => 1
  | ndjson => 2

def forPath (f : Format) (path : Bytes) : Format :=
  if f ≠ auto then f
  else if (".ndjson" : Bytes).isSuffixOf path then ndjson
  else text

end Format

end VecLang.Trace
