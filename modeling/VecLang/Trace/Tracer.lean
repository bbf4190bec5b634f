import VecLang.Trace.Ring

/-!
# Tracers

A tracer gives numbers to events and spans, and writes or keeps the events that its level
admits.
-/

namespace VecLang.Trace

inductive Sink where
  /-- They are written; the text holds all that was written. -/
  | stream (format : Format) (out : Bytes)
  | ring (r : Ring)

structure Tracer where
  level : Level
  sink : Sink
  /-- The time as it is written into events. -/
  time : Bytes := []
  /-- How many events have a number. -/
  seq : Nat := 0
  /-- How many spans have a number. -/
  spans : Nat := 0

/-- A span. One that the level does not admit is not live, and leaves no events. -/
structure Span where
  id : Nat := 0
  parent : Nat := 0
  scope : Scope := ⟨0⟩
  name : Bytes := []
  extra : List (Bytes × Bytes) := []
  live : Bool := false
deriving DecidableEq, Inhabited

namespace Tracer

def streaming (level : Level) (format : Format) (time : Bytes) : Tracer :=
  { level, sink := .stream format [], time }

def keeping (level : Level) (capacity : Int) (time : Bytes) : Tracer :=
  { level, sink := .ring (.empty capacity), time }

/-- Whether anything is recorded at all. -/
def enabled (t : Tracer) : Bool := t.level ≠ .off

def admits (t : Tracer) (s : Scope) : Bool := t.enabled && t.level.admits s

def emit (t : Tracer) (e : Event) : Tracer :=
  if !t.level.admits e.scope then t
  else
    let e := { e with seq := t.seq + 1, time := t.time }
    { t with
      seq := t.seq + 1
      sink := match t.sink with
        | .stream f out => .stream f (out ++ e.render f)
        | .ring r => .ring (r.push e) }

def begin (t : Tracer) (scope : Scope) (name : Bytes) (parent : Nat) : Tracer × Span :=
  if !t.admits scope then (t, {})
  else
    let id := t.spans + 1
    let t := { t with spans := id }
    (t.emit { kind := .begun, scope, span := id, parent, name },
     { id, parent, scope, name, live := true })

def finish (t : Tracer) (s : Span) (detail : Bytes) : Tracer :=
  if !s.live then t
  else t.emit
    { kind := .ended, scope := s.scope, span := s.id, parent := s.parent, name := s.name, detail,
      extra := s.extra }

/-- Remark something on a span. Events of its end that are still kept and carry remarks carry
this one too. -/
def remark (t : Tracer) (s : Span) (key value : Bytes) : Tracer × Span :=
  if !s.live then (t, s)
  else
    let amend (e : Event) : Event :=
      if e.kind = .ended && e.span = s.id && e.extra ≠ [] then
        { e with extra := Trace.remark e.extra key value }
      else e
    let sink := match t.sink with
      | .ring r => .ring (r.map amend)
      | sink => sink
    ({ t with sink }, { s with extra := Trace.remark s.extra key value })

def point (t : Tracer) (scope : Scope) (name detail : Bytes) (parent : Nat) : Tracer :=
  if !t.admits scope then t else t.emit { kind := .point, scope, parent, name, detail }

def output (t : Tracer) (format : Format) : Bytes :=
  match t.sink with
  | .stream _ out => out
  | .ring r => r.snapshot.flatMap (Event.render format)

end Tracer

end VecLang.Trace
