import Mathlib.Logic.Relation
import Mathlib.SetTheory.Cardinal.Finite
import VecLang.Proofs.Ssa.Chains

/-!
# Chains are connected components

The phis of a function make a graph: there is an edge from the value of a phi to each of its
branches. The chains of the function are the connected components of this graph
(`indexOf?_eq_iff`, `length_ofPhis`), and that does not depend on the order in which chains are
numbered (`numberAlong_eq_iff`, `length_meets`).
-/

namespace VecLang.Ssa

open List Relation
open Option hiding or_assoc

def Edge (phis : List Phi) (a b : ValueId) : Prop := ∃ p ∈ phis, p.dst = a ∧ b ∈ p.branches

/-- There is a path of edges between two values, each edge taken in either direction. -/
def Connected (phis : List Phi) : ValueId → ValueId → Prop := EqvGen (Edge phis)

def Occurs (phis : List Phi) (a : ValueId) : Prop := ∃ p ∈ phis, p.dst = a ∨ a ∈ p.branches

variable {phis : List Phi} {a b c : ValueId}

namespace Connected

lemma refl (phis : List Phi) (a : ValueId) : Connected phis a a := EqvGen.refl a

lemma of_edge (h : Edge phis a b) : Connected phis a b := EqvGen.rel _ _ h

lemma symm (h : Connected phis a b) : Connected phis b a := EqvGen.symm _ _ h

lemma trans (h : Connected phis a b) (h' : Connected phis b c) : Connected phis a c :=
  EqvGen.trans _ _ _ h h'

end Connected

def componentSetoid (phis : List Phi) : Setoid {a // Occurs phis a} where
  r a b := Connected phis a b
  iseqv := ⟨fun a => .refl phis a, .symm, .trans⟩

/-- The number of connected components of a graph of phis. -/
noncomputable def numComponents (phis : List Phi) : Nat := Nat.card (Quotient (componentSetoid phis))

/-! ## Lists without repetitions -/

section Added

variable {α : Type*} [BEq α]

def added (acc xs : List α) : List α :=
  xs.foldl (fun acc x => if acc.contains x then acc else acc ++ [x]) acc

lemma added_cons (acc : List α) (x : α) (xs : List α) :
    added acc (x :: xs) = added (if acc.contains x then acc else acc ++ [x]) xs := rfl

lemma prefix_added (acc xs : List α) : acc <+: added acc xs := by
  induction xs generalizing acc with
  | nil => exact prefix_rfl
  | cons y ys ih =>
    rw [added_cons]
    refine List.IsPrefix.trans ?_ (ih _)
    split
    · exact prefix_rfl
    · exact prefix_append acc [y]

variable [LawfulBEq α] {x : α}

lemma mem_added {acc xs : List α} : x ∈ added acc xs ↔ x ∈ acc ∨ x ∈ xs := by
  induction xs generalizing acc with
  | nil => simp [added]
  | cons y ys ih =>
    rw [added_cons, ih]
    by_cases hy : y ∈ acc
    · simp only [contains_iff_mem, hy, if_true, mem_cons]
      -- `y` itself is in the list already
      constructor
      · exact Or.imp_right .inr
      · rintro (hx | rfl | hx)
        · exact .inl hx
        · exact .inl hy
        · exact .inr hx
    · simp only [contains_iff_mem, hy, if_false, mem_append, mem_cons,
        not_mem_nil, or_false, or_assoc]

lemma nodup_added {acc : List α} (h : acc.Nodup) (xs : List α) : (added acc xs).Nodup := by
  induction xs generalizing acc with
  | nil => exact h
  | cons y ys ih =>
    rw [added_cons]
    apply ih
    by_cases hy : y ∈ acc
    · simpa [hy] using h
    · simpa [hy] using nodup_append.2 ⟨h, nodup_singleton y, by
        rintro a ha b hb rfl
        exact hy (mem_singleton.1 hb ▸ ha)⟩

end Added

namespace Chains

/-! ## The running numbering -/

variable {cs : Chains}

variable {i : Nat}

lemma indexOf?_of_mem (hs : cs.Separate) {chain : List ValueId}
    (hi : cs[i]? = some chain) (ha : a ∈ chain) : cs.indexOf? a = some i := by
  obtain ⟨j, hj⟩ := isSome_iff_exists.1 (isSome_indexOf? (mem_of_getElem? hi) ha)
  obtain ⟨chain', hchain', ha'⟩ := exists_of_indexOf? hj
  have hle : j ≤ i := indexOf?_le hj hi ha
  rcases Nat.lt_or_eq_of_le hle with hlt | rfl
  · -- two chains would have a member in common
    obtain ⟨hi', rfl⟩ := List.getElem?_eq_some_iff.1 hi
    obtain ⟨hj', rfl⟩ := List.getElem?_eq_some_iff.1 hchain'
    exact absurd ha (pairwise_iff_getElem.1 hs j i hj' hi' hlt ha')
  · exact hj

lemma ne_nil_of_mem_ofPhis {chain : List ValueId} (h : chain ∈ ofPhis phis) : chain ≠ [] := by
  have hall : ∀ chain ∈ ofPhis phis, chain ≠ [] := by
    refine ofPhis_induction (P := fun cs => ∀ chain ∈ cs, chain ≠ []) nofun ?_
    intro cs p _ b _ hcs chain hchain
    rcases mem_cons.1 hchain with rfl | hfar
    · exact ne_nil_of_mem (mem_joined.2 (.inl rfl))
    · exact hcs chain (mem_far.1 hfar).1
  exact hall chain h

lemma indexOf?_of_connected (h : Connected phis a b) :
    (ofPhis phis).indexOf? a = (ofPhis phis).indexOf? b := by
  -- along the path: each edge is a phi, which is on one chain with its branches
  induction h with
  | rel a b hedge =>
    obtain ⟨p, hp, rfl, hb⟩ := hedge
    obtain ⟨i, hi, hi'⟩ := (linked_ofPhis hp hb).exists_indexOf? (separate_ofPhis phis)
    rw [hi, hi']
  | refl a => rfl
  | symm a b _ ih => exact ih.symm
  | trans a b c _ _ ih ih' => exact ih.trans ih'

lemma connected_of_indexOf? (ha : (ofPhis phis).indexOf? a = some i)
    (hb : (ofPhis phis).indexOf? b = some i) : Connected phis a b := by
  -- being in one class of the quotient is what all phis have in common with their branches
  have huniform : (ofPhis phis).Uniform (Quot.mk (Edge phis)) :=
    uniform_ofPhis fun p hp b hb => (Quot.sound ⟨p, hp, rfl, hb⟩).symm
  exact Quot.eqvGen_exact (huniform.eq ha hb)

section

variable (hphis : ∀ p ∈ phis, p.branches ≠ [])
include hphis

lemma isSome_indexOf?_iff : ((ofPhis phis).indexOf? a).isSome ↔ Occurs phis a := by
  constructor
  · intro h
    obtain ⟨i, hi⟩ := isSome_iff_exists.1 h
    have hmembers : (ofPhis phis).Members (Occurs phis) :=
      members_ofPhis fun p hp => ⟨⟨p, hp, .inl rfl⟩, fun b hb => ⟨p, hp, .inr hb⟩⟩
    exact hmembers.of_indexOf? hi
  · rintro ⟨p, hp, hmem⟩
    -- some branch puts the phi on a chain
    obtain ⟨b, hb⟩ := exists_mem_of_ne_nil _ (hphis p hp)
    have hlinked {b : ValueId} (hb : b ∈ p.branches) :=
      (linked_ofPhis hp hb).exists_indexOf? (separate_ofPhis phis)
    rcases hmem with rfl | ha
    · obtain ⟨i, -, hi⟩ := hlinked hb
      rw [hi, isSome_some]
    · obtain ⟨i, hi, -⟩ := hlinked ha
      rw [hi, isSome_some]

lemma indexOf?_eq_iff (ha : Occurs phis a) :
    (ofPhis phis).indexOf? a = (ofPhis phis).indexOf? b ↔ Connected phis a b := by
  refine ⟨fun h => ?_, indexOf?_of_connected⟩
  obtain ⟨i, hi⟩ := isSome_iff_exists.1 ((isSome_indexOf?_iff hphis).2 ha)
  exact connected_of_indexOf? hi (h ▸ hi)

lemma length_ofPhis : (ofPhis phis).length = numComponents phis := by
  have hsome (a : {a // Occurs phis a}) : ((ofPhis phis).indexOf? a).isSome :=
    (isSome_indexOf?_iff hphis).2 a.2
  have hlt (a : {a // Occurs phis a}) : ((ofPhis phis).indexOf? a).get (hsome a) <
      (ofPhis phis).length :=
    lt_of_indexOf? (some_get (hsome a)).symm
  -- each component goes to the number of its chain
  let number : Quotient (componentSetoid phis) → Fin (ofPhis phis).length :=
    Quotient.lift (fun a => ⟨((ofPhis phis).indexOf? a).get (hsome a), hlt a⟩) fun a b hab => by
      simp only [indexOf?_of_connected hab]
  have hinj : Function.Injective number := by
    rintro ⟨a⟩ ⟨b⟩ h
    have hget : ((ofPhis phis).indexOf? a).get (hsome a) =
        ((ofPhis phis).indexOf? b).get (hsome b) := congrArg Fin.val h
    exact Quotient.sound (s := componentSetoid phis)
      ((indexOf?_eq_iff hphis a.2).1 (get_inj.1 hget))
  have hsurj : Function.Surjective number := by
    rintro ⟨i, hi⟩
    obtain ⟨a, ha⟩ := exists_mem_of_ne_nil _ (ne_nil_of_mem_ofPhis (getElem_mem hi))
    have hindex := indexOf?_of_mem (separate_ofPhis phis) (getElem?_eq_getElem hi) ha
    have hoccurs : Occurs phis a := (isSome_indexOf?_iff hphis).1 (by rw [hindex, isSome_some])
    refine ⟨Quotient.mk (componentSetoid phis) ⟨a, hoccurs⟩, Fin.ext ?_⟩
    change ((ofPhis phis).indexOf? a).get _ = i
    simp only [hindex, get_some]
  rw [numComponents, Nat.card_congr (Equiv.ofBijective number ⟨hinj, hsurj⟩), Nat.card_fin]

end

/-! ## Other numberings -/

def meets (cs : Chains) (order : List ValueId) : List Nat := added [] (order.filterMap cs.indexOf?)

def numberAlong (cs : Chains) (order : List ValueId) (id : ValueId) : Option Nat :=
  (cs.indexOf? id).map (cs.meets order).idxOf

variable {order : List ValueId}

lemma mem_meets : i ∈ cs.meets order ↔ ∃ a ∈ order, cs.indexOf? a = some i := by
  rw [meets, mem_added, mem_filterMap]
  exact or_iff_right not_mem_nil

section

variable (hphis : ∀ p ∈ phis, p.branches ≠ []) (horder : ∀ a, Occurs phis a → a ∈ order)
include hphis horder

lemma numberAlong_eq_iff (ha : Occurs phis a) (hb : Occurs phis b) :
    (ofPhis phis).numberAlong order a = (ofPhis phis).numberAlong order b ↔ Connected phis a b := by
  obtain ⟨i, hi⟩ := isSome_iff_exists.1 ((isSome_indexOf?_iff hphis).2 ha)
  obtain ⟨j, hj⟩ := isSome_iff_exists.1 ((isSome_indexOf?_iff hphis).2 hb)
  have hmem : i ∈ (ofPhis phis).meets order := mem_meets.2 ⟨a, horder a ha, hi⟩
  rw [← indexOf?_eq_iff hphis ha, numberAlong, numberAlong, hi, hj, map_some,
    map_some, some_inj, some_inj, idxOf_inj hmem]

lemma length_meets : ((ofPhis phis).meets order).length = (ofPhis phis).length := by
  have hnodup : ((ofPhis phis).meets order).Nodup := nodup_added nodup_nil _
  have hperm : ((ofPhis phis).meets order).Perm (List.range (ofPhis phis).length) := by
    refine (perm_ext_iff_of_nodup hnodup nodup_range).2 fun i => ?_
    rw [mem_meets, mem_range]
    constructor
    · rintro ⟨a, -, hi⟩
      exact lt_of_indexOf? hi
    · intro hi
      obtain ⟨a, ha⟩ := exists_mem_of_ne_nil _ (ne_nil_of_mem_ofPhis (getElem_mem hi))
      have hindex := indexOf?_of_mem (separate_ofPhis phis) (getElem?_eq_getElem hi) ha
      refine ⟨a, horder a ((isSome_indexOf?_iff hphis).1 ?_), hindex⟩
      rw [hindex, isSome_some]
  rw [hperm.length_eq, length_range]

end

end Chains

end VecLang.Ssa
