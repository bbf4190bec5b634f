import VecLang.Trace.Event

/-!
# The latest events

A ring keeps the latest events it was given, as many as it has room for.
-/

namespace VecLang.Trace

structure Ring where
  /-- The places, in the order they are filled. -/
  events : Array Event
  /-- The place that is filled next. -/
  head : Nat := 0
  /-- Whether every place has been filled. -/
  full : Bool := false
deriving Inhabited

namespace Ring

/-- The room of a ring when none is chosen. -/
def defaultCapacity : Nat := 4096

def empty (capacity : Int) : Ring :=
  { events := Array.replicate (if capacity ≤ 0 then defaultCapacity else capacity.toNat) default }

/-- Put an event in, in place of the oldest one when there is no room left. -/
def push (r : Ring) (e : Event) : Ring :=
  let head := (r.head + 1) % r.events.size
  { events := r.events.setIfInBounds r.head e, head, full := r.full || head = 0 }

def snapshot (r : Ring) : List Event :=
  let events := r.events.toList
  if r.full then events.drop r.head ++ events.take r.head else events.take r.head

def map (f : Event → Event) (r : Ring) : Ring := { r with events := r.events.map f }

end Ring

end VecLang.Trace
