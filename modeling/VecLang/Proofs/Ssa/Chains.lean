import Mathlib.Data.List.Pairwise
import VecLang.Ssa.Chains

/-!
# Chains

No value is on two chains, a phi is on one chain with all of its branches, and what all phis have
in common with their branches all members of a chain have in common.
-/

namespace VecLang.Ssa.Chains

open List Option

variable {cs : Chains} {a b x y : ValueId}

def Separate (cs : Chains) : Prop := cs.Pairwise List.Disjoint

def Linked (cs : Chains) (a b : ValueId) : Prop := ∃ chain ∈ cs, a ∈ chain ∧ b ∈ chain

variable {β : Type}

def Uniform (f : ValueId → β) (cs : Chains) : Prop :=
  ∀ chain ∈ cs, ∀ a ∈ chain, ∀ b ∈ chain, f a = f b

def joined (cs : Chains) (a b : ValueId) : List ValueId :=
  ((cs.filter fun c => c.contains a || c.contains b).flatten.insert a).insert b

lemma link_eq (cs : Chains) (a b : ValueId) : cs.link a b =
    cs.joined a b :: cs.filter fun c => !(c.contains a || c.contains b) := rfl

lemma mem_joined : x ∈ cs.joined a b ↔
    x = b ∨ x = a ∨ ∃ chain ∈ cs, (a ∈ chain ∨ b ∈ chain) ∧ x ∈ chain := by
  simp [joined, mem_insert_iff, and_assoc]

variable {chain : List ValueId}

lemma mem_far : chain ∈ cs.filter (fun c => !(c.contains a || c.contains b)) ↔
      chain ∈ cs ∧ a ∉ chain ∧ b ∉ chain := by
  simp

lemma disjoint_of_ne (h : cs.Separate) {c d : List ValueId} (hc : c ∈ cs) (hd : d ∈ cs) :
    c = d ∨ c.Disjoint d := by
  by_cases heq : c = d
  · exact .inl heq
  · have : Std.Symm (List.Disjoint (α := ValueId)) := ⟨fun _ _ hdis _ hx hx' => hdis hx' hx⟩
    exact .inr (h.forall hc hd heq)

lemma separate_link (h : cs.Separate) (a b : ValueId) : (cs.link a b).Separate := by
  rw [link_eq]
  refine pairwise_cons.2 ⟨fun far hfar => ?_, h.filter _⟩
  obtain ⟨hmem, ha, hb⟩ := mem_far.1 hfar
  intro x hx hx'
  rcases mem_joined.1 hx with rfl | rfl | ⟨chain, hchain, hab, hx⟩
  · exact hb hx'
  · exact ha hx'
  · rcases disjoint_of_ne h hchain hmem with rfl | hdis
    · exact hab.elim ha hb
    · exact hdis hx hx'

lemma linked_link (cs : Chains) (a b : ValueId) : (cs.link a b).Linked a b :=
  ⟨_, mem_cons_self, mem_joined.2 (.inr (.inl rfl)), mem_joined.2 (.inl rfl)⟩

lemma Linked.link (h : cs.Linked x y) (a b : ValueId) : (cs.link a b).Linked x y := by
  obtain ⟨chain, hchain, hx, hy⟩ := h
  by_cases hab : a ∈ chain ∨ b ∈ chain
  · exact ⟨_, mem_cons_self, mem_joined.2 (.inr (.inr ⟨chain, hchain, hab, hx⟩)),
      mem_joined.2 (.inr (.inr ⟨chain, hchain, hab, hy⟩))⟩
  · exact ⟨chain, mem_cons_of_mem _ (mem_far.2 ⟨hchain, not_or.1 hab⟩), hx, hy⟩

lemma uniform_link {f : ValueId → β} (h : cs.Uniform f) (hab : f a = f b) :
    (cs.link a b).Uniform f := by
  have hjoined : ∀ x ∈ cs.joined a b, f x = f b := by
    intro x hx
    rcases mem_joined.1 hx with rfl | rfl | ⟨chain, hchain, hmem, hx⟩
    · rfl
    · exact hab
    · rcases hmem with ha | hb
      · exact (h chain hchain x hx a ha).trans hab
      · exact h chain hchain x hx b hb
  intro chain hchain x hx y hy
  rcases mem_cons.1 hchain with rfl | hfar
  · exact (hjoined x hx).trans (hjoined y hy).symm
  · exact h chain (mem_far.1 hfar).1 x hx y hy

def Members (P : ValueId → Prop) (cs : Chains) : Prop := ∀ chain ∈ cs, ∀ x ∈ chain, P x

variable {P : ValueId → Prop}

lemma members_link (h : cs.Members P) (ha : P a) (hb : P b) : (cs.link a b).Members P := by
  intro chain hchain x hx
  rcases mem_cons.1 hchain with rfl | hfar
  · rcases mem_joined.1 hx with rfl | rfl | ⟨chain, hchain, -, hx⟩
    · exact hb
    · exact ha
    · exact h chain hchain x hx
  · exact h chain (mem_far.1 hfar).1 x hx

/-! ## The chains of phis -/

variable {phis : List Phi}

lemma ofPhis_induction {P : Chains → Prop} (hnil : P [])
    (hlink : ∀ cs, ∀ p ∈ phis, ∀ b ∈ p.branches, P cs → P (cs.link b p.dst)) : P (ofPhis phis) := by
  have hphi : ∀ p ∈ phis, ∀ cs, P cs → P (cs.linkPhi p) := by
    intro p hp cs hcs
    exact List.foldlRecOn p.branches _ hcs fun cs hcs b hb => hlink cs p hp b hb hcs
  exact List.foldlRecOn phis _ hnil fun cs hcs p hp => hphi p hp cs hcs

lemma separate_ofPhis (phis : List Phi) : (ofPhis phis).Separate :=
  ofPhis_induction .nil fun _ _ _ _ _ h => separate_link h _ _

lemma uniform_ofPhis {f : ValueId → β}
    (h : ∀ p ∈ phis, ∀ b ∈ p.branches, f b = f p.dst) : (ofPhis phis).Uniform f :=
  ofPhis_induction nofun fun _ p hp b hb hcs => uniform_link hcs (h p hp b hb)

lemma members_ofPhis (h : ∀ p ∈ phis, P p.dst ∧ ∀ b ∈ p.branches, P b) : (ofPhis phis).Members P :=
  ofPhis_induction nofun fun _ p hp b hb hcs => members_link hcs ((h p hp).2 b hb) (h p hp).1

lemma Linked.foldl_link (h : cs.Linked x y) (bs : List ValueId) (dst : ValueId) :
    (bs.foldl (fun cs b => cs.link b dst) cs).Linked x y := by
  induction bs generalizing cs with
  | nil => exact h
  | cons b bs ih => exact ih (h.link b dst)

lemma Linked.linkPhi (h : cs.Linked x y) (p : Phi) : (cs.linkPhi p).Linked x y :=
  h.foldl_link p.branches p.dst

lemma linked_linkPhi {p : Phi} (hb : b ∈ p.branches) (cs : Chains) :
    (cs.linkPhi p).Linked b p.dst := by
  obtain ⟨before, after, hsplit⟩ := append_of_mem hb
  rw [Chains.linkPhi, hsplit, foldl_append, foldl_cons]
  exact (linked_link _ b p.dst).foldl_link after p.dst

lemma linked_ofPhis {p : Phi} (hp : p ∈ phis) (hb : b ∈ p.branches) :
    (ofPhis phis).Linked b p.dst := by
  obtain ⟨before, after, rfl⟩ := append_of_mem hp
  rw [ofPhis, foldl_append, foldl_cons]
  have hkeep : ∀ (ps : List Phi) (cs : Chains), cs.Linked b p.dst →
      (ps.foldl Chains.linkPhi cs).Linked b p.dst := by
    intro ps
    induction ps with
    | nil => exact fun _ h => h
    | cons q ps ih => exact fun cs h => ih _ (h.linkPhi q)
  exact hkeep after _ (linked_linkPhi hb _)

/-! ## The numbers of chains -/

variable {i : Nat}

lemma exists_of_indexOf? (h : cs.indexOf? a = some i) : ∃ chain, cs[i]? = some chain ∧ a ∈ chain := by
  obtain ⟨hlt, hmem, -⟩ := findIdx?_eq_some_iff_getElem.1 h
  exact ⟨_, getElem?_eq_getElem hlt, by simpa using hmem⟩

lemma lt_of_indexOf? (h : cs.indexOf? a = some i) : i < cs.length := by
  obtain ⟨chain, hchain, -⟩ := exists_of_indexOf? h
  exact (List.getElem?_eq_some_iff.1 hchain).1

lemma isSome_indexOf? (hchain : chain ∈ cs) (ha : a ∈ chain) : (cs.indexOf? a).isSome := by
  rw [indexOf?, findIdx?_isSome, List.any_eq_true]
  exact ⟨chain, hchain, by simpa using ha⟩

lemma indexOf?_le (ha : cs.indexOf? a = some i) {j : Nat}
    (hj : cs[j]? = some chain) (hmem : a ∈ chain) : i ≤ j := by
  by_contra hlt
  obtain ⟨_, _, hfirst⟩ := findIdx?_eq_some_iff_getElem.1 ha
  obtain ⟨hj', rfl⟩ := List.getElem?_eq_some_iff.1 hj
  exact hfirst j (Nat.not_le.1 hlt) (by simpa using hmem)

lemma Linked.exists_indexOf? (h : cs.Linked a b) (hs : cs.Separate) :
    ∃ i, cs.indexOf? a = some i ∧ cs.indexOf? b = some i := by
  obtain ⟨chain, hchain, ha, hb⟩ := h
  obtain ⟨i, hi⟩ := isSome_iff_exists.1 (isSome_indexOf? hchain ha)
  obtain ⟨j, hj⟩ := isSome_iff_exists.1 (isSome_indexOf? hchain hb)
  have heq {x : ValueId} {k : Nat} (hx : x ∈ chain) (hk : cs.indexOf? x = some k) :
      cs[k]? = some chain := by
    obtain ⟨chain', hchain', hx'⟩ := exists_of_indexOf? hk
    rcases disjoint_of_ne hs hchain (mem_of_getElem? hchain') with rfl | hdis
    · exact hchain'
    · exact absurd hx' (hdis hx)
  have hij : i = j :=
    Nat.le_antisymm (indexOf?_le hi (heq hb hj) ha) (indexOf?_le hj (heq ha hi) hb)
  exact ⟨i, hi, hij ▸ hj⟩

lemma Uniform.eq {f : ValueId → β} (h : cs.Uniform f) (ha : cs.indexOf? a = some i)
    (hb : cs.indexOf? b = some i) : f a = f b := by
  obtain ⟨chain, hchain, ha⟩ := exists_of_indexOf? ha
  obtain ⟨chain', hchain', hb⟩ := exists_of_indexOf? hb
  cases hchain.symm.trans hchain'
  exact h chain (mem_of_getElem? hchain) a ha b hb

lemma Members.of_indexOf? (h : cs.Members P) (ha : cs.indexOf? a = some i) : P a := by
  obtain ⟨chain, hchain, ha⟩ := exists_of_indexOf? ha
  exact h chain (mem_of_getElem? hchain) a ha

end VecLang.Ssa.Chains
