import Mathlib.Data.List.DropRight
import Mathlib.Data.List.Forall2
import VecLang.Trace.Tracer

/-!
# The events that a ring keeps

A ring goes round its places and writes over the oldest event once all of them are filled, so what
it shows is what it showed before, less the oldest event if there was no room, and the new event
behind (`snapshot_push`). Along any use of a tracer it therefore holds the latest events that the
level admits (`Keeps`).
-/

namespace VecLang.Trace

open List

lemma Ring.snapshot_push {r : Ring} (h : r.head < r.events.size) (e : Event) :
    (r.push e).snapshot = r.snapshot.rtake (r.events.size - 1) ++ [e] := by
  obtain ⟨⟨places⟩, head, full⟩ := r
  change head < places.length at h
  -- up to the place that is filled the ring ends with the new event, and what is behind stays
  have hfront : (places.set head e).take (head + 1) = places.take head ++ [e] := by
    rw [take_succ_eq_append_getElem (by simpa using h), getElem_set_self, take_set_of_le le_rfl]
  have hback : (places.set head e).drop (head + 1) = places.drop (head + 1) :=
    drop_set_of_lt (Nat.lt_succ_self head)
  simp only [push, snapshot, rtake, List.size_toArray, setIfInBounds_toArray]
  rcases Nat.lt_or_ge (head + 1) places.length with hlt | hge
  · rw [Nat.mod_eq_of_lt hlt, hfront, hback]
    cases full with
    | false => simp [Nat.sub_eq_zero_of_le (show head ≤ places.length - 1 by omega), h.le]
    | true =>
      have hone : (places.drop head ++ places.take head).length - (places.length - 1) = 1 := by
        simp only [length_append, length_drop, length_take]
        omega
      simp only [↓reduceIte, Bool.true_or]
      rw [hone, drop_append_of_le_length (by rw [length_drop]; omega), drop_drop, append_assoc]
  · have hlen : places.length = head + 1 := by omega
    have hall : places.set head e = places.take head ++ [e] := by
      rw [← hfront, take_of_length_le (by simp [hlen])]
    rw [hlen, Nat.mod_self, hall]
    cases full <;> simp [hlen]

/-- What may happen while a tracer is in use. -/
inductive Use where
  | emit (e : Event)
  /-- The events so far are looked at. -/
  | look
  /-- Another tracer takes a number: all share one count. -/
  | elsewhere
deriving DecidableEq

namespace Tracer

/-- The events that a tracer keeps. -/
def kept (t : Tracer) : List Event :=
  match t.sink with
  | .ring r => r.snapshot
  | .stream .. => []

/-- Use a tracer, with all that was seen when it was looked at. -/
def use (s : Tracer × List (List Event)) : Use → Tracer × List (List Event)
  | .emit e => (s.1.emit e, s.2)
  | .look => (s.1, s.2 ++ [s.1.kept])
  | .elsewhere => ({ s.1 with seq := s.1.seq + 1 }, s.2)

def useAll (t : Tracer) (us : List Use) : Tracer × List (List Event) := us.foldl use (t, [])

end Tracer

/-- The events that are given to a tracer and that its level admits, in order. -/
def admitted (level : Level) (us : List Use) : List Event :=
  us.filterMap fun
    | .emit e => if level.admits e.scope then some e else none
    | _ => none

/-- An event with the time and a number of its own. -/
def Stamped (time : Bytes) (e s : Event) : Prop := s = { e with seq := s.seq, time }

/-- The tracer has recorded some events, and keeps as many of the latest as it has room for. -/
structure Keeps (level : Level) (time : Bytes) (c : Nat) (es : List Event) (t : Tracer) :
    Prop where
  level_eq : t.level = level
  time_eq : t.time = time
  ring : ∃ r, t.sink = .ring r ∧ r.events.size = c ∧ r.head < c ∧ r.snapshot = es.rtake c
  ordered : es.Pairwise (·.seq < ·.seq)
  counted : ∀ e ∈ es, e.seq ≤ t.seq

variable {level : Level} {time : Bytes} {c : Nat} {es : List Event} {t : Tracer}

lemma keeps_keeping (level : Level) (time : Bytes) (hc : 0 < c) :
    Keeps level time c [] (.keeping level c time) where
  level_eq := rfl
  time_eq := rfl
  ring := ⟨.empty c, rfl, by simp [Ring.empty, Nat.ne_of_gt hc], hc,
    by simp [Ring.empty, Ring.snapshot]⟩
  ordered := .nil
  counted := nofun

namespace Keeps

lemma kept_eq (h : Keeps level time c es t) : t.kept = es.rtake c := by
  obtain ⟨r, hr, -, -, hs⟩ := h.ring
  rw [Tracer.kept, hr, ← hs]

lemma emit (h : Keeps level time c es t) {e : Event} (he : level.admits e.scope) :
    Keeps level time c (es ++ [{ e with seq := t.seq + 1, time }]) (t.emit e) := by
  obtain ⟨r, hr, hsize, hhead, hs⟩ := h.ring
  have hrun : t.emit e = { t with
      seq := t.seq + 1
      sink := .ring (r.push { e with seq := t.seq + 1, time }) } := by
    simp [Tracer.emit, h.level_eq, he, hr, h.time_eq]
  rw [hrun]
  refine ⟨h.level_eq, h.time_eq, ⟨_, rfl, ?_, ?_, ?_⟩, ?_, ?_⟩
  · simpa [Ring.push] using hsize
  · rw [Ring.push, hsize]
    exact Nat.mod_lt _ (Nat.zero_lt_of_lt hhead)
  · obtain ⟨n, rfl⟩ : ∃ n, c = n + 1 := ⟨c - 1, by omega⟩
    rw [Ring.snapshot_push (hsize ▸ hhead), hs, hsize, rtake_concat_succ]
    simp [rtake_eq_reverse_take_reverse, take_take]
  · refine pairwise_append.2 ⟨h.ordered, pairwise_singleton _ _, fun a ha b hb => ?_⟩
    rw [mem_singleton.1 hb]
    exact Nat.lt_succ_of_le (h.counted a ha)
  · intro a ha
    rcases mem_append.1 ha with ha | ha
    · exact Nat.le_succ_of_le (h.counted a ha)
    · rw [mem_singleton.1 ha]

lemma useAll (h : Keeps level time c es t) (us : List Use) :
    ∃ new, Keeps level time c (es ++ new) (t.useAll us).1 ∧
      Forall₂ (Stamped time) (admitted level us) new := by
  induction us using reverseRecOn with
  | nil => exact ⟨[], by rwa [append_nil], .nil⟩
  | append_singleton us u ih =>
    obtain ⟨new, hk, hnew⟩ := ih
    rw [Tracer.useAll, foldl_append, ← Tracer.useAll, admitted, filterMap_append, ← admitted]
    cases u with
    | look => exact ⟨new, hk, by simpa using hnew⟩
    | elsewhere =>
      refine ⟨new, ⟨hk.level_eq, hk.time_eq, hk.ring, hk.ordered, fun e he => ?_⟩,
        by simpa using hnew⟩
      exact Nat.le_succ_of_le (hk.counted e he)
    | emit e =>
      by_cases he : level.admits e.scope
      · refine ⟨new ++ [_], append_assoc es new _ ▸ hk.emit he, ?_⟩
        simp only [filterMap_cons, he, ↓reduceIte, filterMap_nil]
        exact rel_append hnew (.cons rfl .nil)
      · refine ⟨new, ?_, by simpa [he] using hnew⟩
        rw [foldl_cons, foldl_nil, Tracer.use, Tracer.emit, hk.level_eq]
        simpa [he] using hk

end Keeps

lemma useAll_filter_look (t : Tracer) (us : List Use) :
    (t.useAll (us.filter (· ≠ .look))).1 = (t.useAll us).1 := by
  induction us using reverseRecOn with
  | nil => rfl
  | append_singleton us u ih =>
    simp only [Tracer.useAll, filter_append, foldl_append, ne_eq, decide_not] at ih ⊢
    cases u <;> simp [Tracer.use, ih]

/-- However a tracer with room for `c` events is used, it keeps the latest `c` of the events it was
given and its level admits, or all if there are fewer, the oldest first and with growing numbers.
It makes no difference to it how often it was looked at. -/
theorem kept_latest (level : Level) (time : Bytes) (c : Nat) (hc : 0 < c) (us : List Use) :
    let start := Tracer.keeping level c time
    let events := admitted level us
    let kept := (start.useAll us).1.kept
    Forall₂ (Stamped time) (events.rtake c) kept ∧ kept.length = min c events.length ∧
      kept.Pairwise (·.seq < ·.seq) ∧
      start.useAll (us ++ [.look]) = ((start.useAll us).1, (start.useAll us).2 ++ [kept]) ∧
      (start.useAll (us.filter (· ≠ .look))).1 = (start.useAll us).1 := by
  intro start events kept
  obtain ⟨es, hk, hes⟩ := (keeps_keeping level time hc).useAll us
  rw [nil_append] at hk
  have hkept : kept = es.rtake c := hk.kept_eq
  have hlen : events.length = es.length := hes.length_eq
  refine ⟨?_, ?_, ?_, ?_, useAll_filter_look start us⟩
  · rw [hkept, rtake, rtake, hlen]
    exact forall₂_drop _ hes
  · rw [hkept, rtake, length_drop, hlen]
    omega
  · rw [hkept]
    exact hk.ordered.sublist (drop_sublist _ _)
  · rw [Tracer.useAll, foldl_append]
    rfl

/-- A ring of two places that goes round more than once, with events that are not admitted and a
number that is taken elsewhere. -/
theorem kept_latest_wrapped :
    let point (scope : Scope) (name : Bytes) : Use := .emit { kind := .point, scope, name }
    let us := [point .pass "a", point .node "n", .look, point .pass "b", point .pass "c", .elsewhere,
      point .driver "d", point .pass "e", point .node "m"]
    let kept := ((Tracer.keeping .phase (2 : Nat) []).useAll us).1.kept
    kept.map (·.name) = ["d", "e"] ∧ kept.map (·.seq) = [5, 6] ∧ kept.Pairwise (·.seq < ·.seq) := by
  intro point us kept
  exact ⟨by decide, by decide, (kept_latest .phase [] 2 (by decide) us).2.2.1⟩

end VecLang.Trace
