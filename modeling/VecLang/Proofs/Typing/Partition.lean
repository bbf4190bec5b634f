import Mathlib.Data.List.Nodup
import Mathlib.Logic.ExistsUnique
import VecLang.Proofs.Typing.Sets

/-!
# The sets are a partition

Whatever is asked of constraint sets, granted or refused, on sets that were merged or not: every
variable stays in the one set that the table tells, a set that is left has variables, each of them
once, and a merged set has none (`Partition`).
-/

namespace VecLang

open List

/-- Variables come once, and only number zero and merged sets are without any. -/
def ConstraintSet.Tidy (i : SetId) (s : ConstraintSet) : Prop :=
  s.members.Nodup ∧ (s.members = [] ↔ i = 0 ∨ s.merged = true)

namespace ConstraintSets

inductive Call where
  | add (v : VarId) (ty : TypeVar)
  | constrain (id : SetId) (tv : TypeVar)
  | unite (a b : SetId)

/-- The sets after a call, none if it is refused. A call on a set that does not exist is. -/
def call? (cs : ConstraintSets) : Call → Option ConstraintSets
  | .add v ty => some (cs.add v ty).1
  | .constrain id tv => if id < cs.sets.size then (cs.constrain? id tv).map (·.1) else none
  | .unite a b =>
    if a < cs.sets.size ∧ b < cs.sets.size then (cs.unite? a b).map (·.1) else none

/-- The sets to go on with after a call. -/
def call (cs : ConstraintSets) (c : Call) : ConstraintSets := (cs.call? c).getD cs

def callAll (cs : ConstraintSets) (calls : List Call) : ConstraintSets := calls.foldl call cs

structure Partition (cs : ConstraintSets) : Prop where
  indexed : cs.Indexed
  nonempty : 0 < cs.sets.size
  tidy : ∀ i (s : ConstraintSet), cs.sets[i]? = some s → s.Tidy i

def Known (cs : ConstraintSets) (v : VarId) : Prop := ∃ i, cs.of? v = some i

variable {cs ct : ConstraintSets} {i : SetId} {v : VarId} {ty : TypeVar} {c : Call}

lemma mem_live_iff : i ∈ cs.live ↔ i ≠ 0 ∧ ∃ s, cs.sets[i]? = some s ∧ s.merged = false := by
  rw [live, mem_filter, mem_range]
  by_cases hi : i < cs.sets.size <;> simp [hi]

namespace Partition

lemma init : ({} : ConstraintSets).Partition where
  indexed := indexed_init
  nonempty := Nat.zero_lt_one
  tidy i s hs := by
    obtain ⟨hi, rfl⟩ := Array.getElem?_eq_some_iff.1 hs
    obtain rfl : i = 0 := Nat.lt_one_iff.1 hi
    exact ⟨nodup_nil, by simp⟩

lemma of?_eq_some_iff_live (h : cs.Partition) :
    cs.of? v = some i ↔ i ∈ cs.live ∧ cs.Holds i v := by
  rw [h.indexed]
  refine ⟨fun hv => ⟨?_, hv⟩, And.right⟩
  obtain ⟨s, hs, hmem⟩ := hv
  have hne : ¬ (i = 0 ∨ s.merged = true) := mt (h.tidy i s hs).2.2 (ne_nil_of_mem hmem)
  rw [not_or, Bool.not_eq_true] at hne
  exact mem_live_iff.2 ⟨hne.1, s, hs, hne.2⟩

lemma add (h : cs.Partition) (v : VarId) (ty : TypeVar) : (cs.add v ty).1.Partition := by
  cases hv : cs.of? v with
  | some i => rwa [add_of_some hv]
  | none =>
    refine ⟨indexed_add h.indexed, ?_, fun i s hs => ?_⟩
    · simp [add_of_none hv]
    · rw [add_of_none hv, Array.getElem?_push] at hs
      split at hs
      case isTrue hi =>
        cases hs
        exact ⟨nodup_singleton v, by simp [hi, Nat.ne_of_gt h.nonempty]⟩
      case isFalse => exact h.tidy i s hs

lemma constrain (h : cs.Partition) {id : SetId} {tv j : TypeVar}
    (hct : cs.constrain? id tv = some (ct, j)) : ct.Partition := by
  have hd := indexed_constrain h.indexed hct
  simp only [constrain?] at hct
  split at hct <;> cases hct
  refine ⟨hd, by simpa using h.nonempty, fun i s hs => ?_⟩
  rw [Array.getElem?_modify] at hs
  split at hs
  · obtain ⟨t, ht, rfl⟩ := Option.map_eq_some_iff.1 hs
    exact h.tidy i t ht
  · exact h.tidy i s hs

lemma absorb (h : cs.Partition) {into source : SetId} (hne : into ≠ source)
    (hinto : into < cs.sets.size) (hsource : source < cs.sets.size)
    (hle : cs.Smaller source into) : (cs.absorb into source ty).Partition := by
  refine ⟨indexed_absorb h.indexed hne hinto, by simpa [ConstraintSets.absorb] using h.nonempty,
    fun i u hu => ?_⟩
  have ht := Array.getElem?_eq_getElem hsource
  simp only [ConstraintSets.absorb, ht, Array.getElem?_modify, Option.map_some,
    Option.getD_some] at hu
  split at hu
  case isTrue =>
    obtain ⟨_, _, rfl⟩ := Option.map_eq_some_iff.1 hu
    exact ⟨nodup_nil, by simp⟩
  split at hu
  case isFalse => exact h.tidy i u hu
  case isTrue hi =>
    subst hi
    obtain ⟨s, hs, rfl⟩ := Option.map_eq_some_iff.1 hu
    obtain ⟨hnodup, hempty⟩ := h.tidy into s hs
    refine ⟨nodup_append.2 ⟨hnodup, (h.tidy _ _ ht).1, fun v hv w hw hvw => hne ?_⟩, ?_⟩
    · exact h.indexed.unique ⟨s, hs, hv⟩ ⟨_, ht, hvw ▸ hw⟩
    · -- the set that is left is the larger one, so it has variables if one of the two has
      rw [← hempty, append_eq_nil_iff, and_iff_left_iff_imp]
      intro hnil
      have hlen := hle _ s ht hs
      rw [hnil] at hlen
      exact eq_nil_of_length_eq_zero (Nat.le_zero.1 hlen)

/-- What one call does to a partition. -/
lemma call? (h : cs.Partition) (hct : cs.call? c = some ct) : ct.Partition ∧ cs.Narrows ct ∧
    ∀ v, ct.Known v ↔ cs.Known v ∨ ∃ ty, c = .add v ty := by
  cases c with
  | add v ty =>
    cases hct
    refine ⟨h.add v ty, narrows_add h.indexed, fun w => ⟨?_, ?_⟩⟩
    · rintro ⟨i, hi⟩
      rcases of?_add_cases hi with hi | ⟨-, rfl, -⟩
      · exact .inl ⟨i, hi⟩
      · exact .inr ⟨ty, rfl⟩
    · rintro (⟨i, hi⟩ | ⟨_, heq⟩)
      · exact ⟨i, of?_add_of_some hi⟩
      · cases heq
        exact of?_add_self.imp fun _ => And.left
  | constrain id tv =>
    rw [ConstraintSets.call?] at hct
    split at hct
    case isFalse => cases hct
    obtain ⟨⟨_, j⟩, hr, rfl⟩ := Option.map_eq_some_iff.1 hct
    refine ⟨h.constrain hr, narrows_constrain h.indexed hr, fun v => ?_⟩
    simp [Known, of?_constrain hr]
  | unite a b =>
    rw [ConstraintSets.call?] at hct
    split at hct
    case isFalse => cases hct
    case isTrue hab =>
    obtain ⟨⟨_, j⟩, hr, rfl⟩ := Option.map_eq_some_iff.1 hct
    obtain ⟨-, hn⟩ := unite_spec h.indexed hab.1 hab.2 hr
    refine ⟨?_, hn, fun v => ⟨fun ⟨i, hi⟩ => .inl (unite_old h.indexed hr hi), ?_⟩⟩
    · obtain ⟨-, rfl⟩ | ⟨hne, -, ⟨rfl, hle⟩ | ⟨rfl, hle⟩⟩ := unite_cases hr
      · exact h
      · exact h.absorb (Ne.symm hne) hab.2 hab.1 hle
      · exact h.absorb hne hab.1 hab.2 hle
    · rintro (⟨i, hi⟩ | ⟨_, heq⟩)
      · obtain ⟨k, hk, -⟩ := hn hi
        exact ⟨k, hk⟩
      · cases heq

lemma call (h : cs.Partition) (c : Call) : (cs.call c).Partition ∧ cs.Narrows (cs.call c) ∧
    ∀ v, (cs.call c).Known v ↔ cs.Known v ∨ ∃ ty, c = .add v ty := by
  rw [ConstraintSets.call]
  cases hct : cs.call? c with
  | some ct => exact h.call? hct
  | none =>
    refine ⟨h, .refl cs, fun v => ⟨.inl, ?_⟩⟩
    rintro (hv | ⟨ty, rfl⟩)
    · exact hv
    · cases hct

lemma callAll (h : cs.Partition) (calls : List Call) :
    (cs.callAll calls).Partition ∧ cs.Narrows (cs.callAll calls) ∧
      ∀ v, (cs.callAll calls).Known v ↔ cs.Known v ∨ ∃ ty, .add v ty ∈ calls := by
  induction calls generalizing cs with
  | nil => exact ⟨h, .refl cs, fun v => by simp [ConstraintSets.callAll]⟩
  | cons c calls ih =>
    obtain ⟨hp, hn, hknown⟩ := h.call c
    obtain ⟨hp', hn', hknown'⟩ := ih hp
    refine ⟨hp', hn.trans hn', fun v => ?_⟩
    rw [ConstraintSets.callAll, foldl_cons, ← ConstraintSets.callAll, hknown', hknown]
    simp only [mem_cons, exists_or, or_assoc, eq_comm]

end Partition

/-- After any calls on sets that were empty at first, a variable is in a set if it was added, and
the table tells the one set in use that holds it; variables come once in their set, a set in use
has some and a merged one has none. A call that is refused changes nothing, nor does adding a
variable again or uniting a set with itself. Whatever calls follow, a variable stays in a set, and
no type comes to be admitted that was not. -/
theorem callAll_partition (calls : List Call) :
    let cs := callAll {} calls
    (∀ v, (∃ ty, .add v ty ∈ calls) ↔ ∃ i, cs.of? v = some i) ∧
    (∀ v i, cs.of? v = some i ↔ i ∈ cs.live ∧ cs.Holds i v) ∧
    (∀ v, (∃ ty, .add v ty ∈ calls) → ∃! i, i ∈ cs.live ∧ cs.Holds i v) ∧
    (∀ i s, cs.sets[i]? = some s →
      s.members.Nodup ∧ (i ∈ cs.live → s.members ≠ []) ∧ (s.merged = true → s.members = [])) ∧
    (∀ c, cs.call? c = none → cs.call c = cs) ∧
    (∀ v ty, (∃ i, cs.of? v = some i) → cs.call (.add v ty) = cs) ∧
    (∀ a, cs.call (.unite a a) = cs) ∧
    ∀ more v i, cs.of? v = some i →
      let ct := callAll {} (calls ++ more)
      ∃ k, ct.of? v = some k ∧ ∀ m ∈ (ct.typeOf k).members, m ∈ (cs.typeOf i).members := by
  intro cs
  obtain ⟨h, -, hknown⟩ := Partition.init.callAll calls
  have hadded (v : VarId) : (∃ ty, .add v ty ∈ calls) ↔ ∃ i, cs.of? v = some i := by
    refine ⟨fun hv => (hknown v).2 (.inr hv), fun hv => ((hknown v).1 hv).resolve_left nofun⟩
  refine ⟨hadded, fun v i => h.of?_eq_some_iff_live, fun v hv => ?_, fun i s hs => ?_,
    fun c hc => ?_, fun v ty ⟨i, hi⟩ => ?_, fun a => ?_, fun more v i hi => ?_⟩
  · obtain ⟨i, hi⟩ := (hadded v).1 hv
    refine ⟨i, h.of?_eq_some_iff_live.1 hi, fun k hk => ?_⟩
    exact h.indexed.unique hk.2 (holds_of_of? h.indexed hi)
  · obtain ⟨hnodup, hempty⟩ := h.tidy i s hs
    refine ⟨hnodup, fun hlive hnil => ?_, fun hm => hempty.2 (.inr hm)⟩
    obtain ⟨hi, t, ht, hmerged⟩ := mem_live_iff.1 hlive
    cases hs.symm.trans ht
    exact (hempty.1 hnil).elim hi (by simp [hmerged])
  · rw [call, hc, Option.getD_none]
  · rw [call, call?, add_of_some hi, Option.getD_some]
  · simp only [call, call?, unite?]
    split <;> simp
  · intro ct
    have hct : ct = cs.callAll more := foldl_append
    rw [hct]
    exact (h.callAll more).2.1 hi

end ConstraintSets

end VecLang
