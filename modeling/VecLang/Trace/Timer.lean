import VecLang.Number.Places
import VecLang.Text.Utf8

/-!
# Timers

How long the phases of a command took.
-/

namespace VecLang.Trace

structure TimedPhase where
  name : Bytes
  micros : Nat := 0
  note : Bytes := []
deriving DecidableEq, Inhabited

structure Timer where
  phases : List TimedPhase := []
deriving Inhabited

namespace Timer

def begin (t : Timer) (name : Bytes) : Timer := ⟨t.phases ++ [TimedPhase.mk name 0 []]⟩

def finish (t : Timer) (i : Int) (micros : Nat) (note : Bytes) : Timer :=
  if i < 0 then t else ⟨t.phases.modify i.toNat fun p => { p with micros, note }⟩

def measure (t : Timer) (name : Bytes) (micros : Nat) (failed : Bool) : Timer :=
  (t.begin name).finish t.phases.length micros (if failed then "failed" else "")

def lineText (name : Bytes) (micros : Nat) : Bytes :=
  "  " ++ Utf8.padRight 20 name ++ " "
    ++ Bytes.padLeft 7 (Places.text 2 micros 1000) ++ " ms"

def phaseLine (p : TimedPhase) : Bytes :=
  lineText p.name p.micros ++ (if p.note = [] then ("" : Bytes) else "  // " ++ p.note) ++ "\n"

def summary (t : Timer) : Bytes :=
  "timings:\n" ++ (t.phases.map phaseLine).flatten
    ++ lineText "total" ((t.phases.map (·.micros)).foldr (· + ·) 0) ++ "\n"

end Timer

end VecLang.Trace
