import VecLang.Proofs.Typing.Solutions
import VecLang.Proofs.Typing.States

/-!
# What the steps of inference leave

A step of inference never breaks down: it comes to an end, or it stops with a mismatch
(`Ends`). What it demands is told by the assignments of types that are left: those that solved
the sets before and meet the demand (`Narrowed`). It stops only if none would be left.
-/

namespace VecLang.Typing

open ConstraintSets Stateful List Operand TypeVar

/-! ## Computations that do not break down -/

/-- The computation comes to an end as `post` says, or it stops with a mismatch and then `stuck`
holds. -/
def Ends {α : Type} (x : Infer α) (s : InferState) (post : α → InferState → Prop)
    (stuck : Prop) : Prop :=
  match x s with
  | .ok (a, t) => post a t
  | .error (.fault (.mismatch _ _ _)) => stuck
  | .error _ => False

variable {span : Span}

namespace Ends

variable {α β : Type} {s : InferState} {stuck : Prop}

variable {post : α → InferState → Prop}

lemma of_pure {a : α} (h : post a s) : Ends (pure a) s post stuck := h

lemma of_mismatch {required got : TypeVar}
    (h : stuck) : Ends (mismatch span required got) s post stuck := h

lemma of_get {f : InferState → Infer α}
    (h : Ends (f s) s post stuck) : Ends (get >>= f) s post stuck := h

lemma of_modify {g : InferState → InferState} {post : Unit → InferState → Prop}
    (h : post () (g s)) : Ends (modify g) s post stuck := h

variable {x : Infer α}

lemma of_eq_ok {a : α} {t : InferState}
    (hx : x s = .ok (a, t)) (h : post a t) : Ends x s post stuck := by
  rw [Ends, hx]
  exact h

lemma bind {f : α → Infer β} {mid : α → InferState → Prop} {early : Prop}
    {post : β → InferState → Prop} (hx : Ends x s mid early) (hearly : early → stuck)
    (hf : ∀ a t, x s = .ok (a, t) → mid a t → Ends (f a) t post stuck) :
    Ends (x >>= f) s post stuck := by
  have hrun : (x >>= f) s = match x s with
      | .ok (a, t) => f a t
      | .error e => .error e := by
    change Except.bind (x s) (fun p => f p.1 p.2) = _
    cases x s with
    | ok p => rfl
    | error e => rfl
  unfold Ends at hx ⊢
  rw [hrun]
  cases hr : x s with
  | ok p =>
    rw [hr] at hx
    exact hf p.1 p.2 hr hx
  | error e =>
    rw [hr] at hx
    cases e with
    | broken b => exact hx
    | fault f =>
      cases f with
      | mismatch span required got => exact hearly hx
      | couldNotInfer span name got => exact hx
      | constEval span name => exact hx

lemma mono {post' : α → InferState → Prop} {stuck' : Prop}
    (h : Ends x s post stuck) (hpost : ∀ a t, x s = .ok (a, t) → post a t → post' a t)
    (hstuck : stuck → stuck') : Ends x s post' stuck' := by
  unfold Ends at h ⊢
  cases hr : x s with
  | ok p =>
    rw [hr] at h
    exact hpost p.1 p.2 hr h
  | error e =>
    rw [hr] at h
    cases e with
    | broken b => exact h
    | fault f =>
      cases f with
      | mismatch span required got => exact hstuck h
      | couldNotInfer span name got => exact h
      | constEval span name => exact h

end Ends

/-! ## What the sets leave -/

structure InferState.Solves (s : InferState) (τ : Assignment) : Prop where
  proper : τ.Proper
  sets : s.sets.Solves τ

/-- The state of inference is sound, and something is left for every variable. -/
structure Solid (table : SymbolTable) (s : InferState) : Prop where
  sane : Sane table s
  nonVoid : s.sets.NonVoid

def Operand.at (τ : Assignment) : Operand → Member
  | .known tv => tv.members.headD none
  | .anchored v => τ v

def Operand.Sound (s : InferState) : Operand → Prop
  | .known tv => ∃ m, tv.members = [m]
  | .anchored v => Entered s v

variable {table : SymbolTable} {s t u : InferState} {o l r : Operand} {τ : Assignment}

lemma Solid.exists_solves (h : Solid table s) : ∃ τ, s.Solves τ := by
  obtain ⟨τ, hproper, hτ⟩ := exists_solution h.sane.indexed h.nonVoid
  exact ⟨τ, hproper, hτ⟩

lemma Operand.Sound.mono (h : o.Sound s) (hx : s.sets.Narrows t.sets) : o.Sound t := by
  cases o with
  | known tv => exact h
  | anchored v => exact Entered.mono h hx

lemma Operand.at_known {tv : TypeVar} {m : Member} (h : tv.members = [m]) :
    (Operand.known tv).at τ = m := by
  rw [Operand.at, h, headD_cons]

lemma Operand.Sound.exists_type (h : o.Sound s) (hs : Solid table s) :
    ∃ tv, o.type? s.sets = some tv ∧ ∀ m, m ∈ tv.members ↔ ∃ τ, s.Solves τ ∧ o.at τ = m := by
  cases o with
  | known tv =>
    obtain ⟨m, hm⟩ := h
    refine ⟨tv, rfl, fun m' => ?_⟩
    rw [hm, mem_singleton]
    constructor
    · rintro rfl
      exact hs.exists_solves.imp fun _ hτ => ⟨hτ, at_known hm⟩
    · rintro ⟨τ, -, rfl⟩
      exact at_known hm
  | anchored v =>
    obtain ⟨i, hi⟩ := h
    have hv := holds_of_of? hs.sane.indexed hi
    refine ⟨_, type?_anchored hi, fun m => ⟨fun hm => ?_, ?_⟩⟩
    · obtain ⟨τ, hproper, hτ, hτv⟩ := exists_solves hs.sane.indexed hs.nonVoid hv hm
      exact ⟨τ, ⟨hproper, hτ⟩, hτv⟩
    · rintro ⟨τ, hτ, rfl⟩
      exact (hτ.sets i v hv).1

/-! ## Steps -/

/-- What a step that only narrows leaves behind: the sets change and nothing else, and the
assignments left are those that meet the demand. -/
structure Narrowed (table : SymbolTable) (s t : InferState) (demand : Assignment → Prop) :
    Prop where
  solid : Solid table t
  grows : s.sets.Narrows t.sets
  same : t = { s with sets := t.sets }
  solves : ∀ τ, t.Solves τ ↔ s.Solves τ ∧ demand τ

lemma Narrowed.refl (hs : Solid table s) {demand : Assignment → Prop} (h : ∀ τ, demand τ) :
    Narrowed table s s demand :=
  ⟨hs, .refl _, rfl, fun τ => ⟨fun hτ => ⟨hτ, h τ⟩, And.left⟩⟩

lemma Narrowed.trans {p q : Assignment → Prop} (h1 : Narrowed table s t p)
    (h2 : Narrowed table t u q) : Narrowed table s u fun τ => p τ ∧ q τ where
  solid := h2.solid
  grows := h1.grows.trans h2.grows
  same := by
    rw [h2.same]
    conv_lhs => rw [h1.same]
  solves τ := by rw [h2.solves, h1.solves, and_assoc]

lemma Narrowed.congr {p q : Assignment → Prop} (h : Narrowed table s t p)
    (hpq : ∀ τ, s.Solves τ → (p τ ↔ q τ)) : Narrowed table s t q :=
  ⟨h.solid, h.grows, h.same, fun τ => by rw [h.solves]; exact and_congr_right (hpq τ)⟩

lemma ends_setOf {v : VarId} (h : Entered s v) :
    Ends (setOf v) s (fun i t => s.sets.of? v = some i ∧ s = t) False := by
  obtain ⟨i, hi⟩ := h
  exact .of_eq_ok (setOf_of_some hi) ⟨hi, rfl⟩

lemma ends_typeOf (hs : Solid table s) (h : o.Sound s) :
    Ends (typeOf o) s (fun tv t => s = t ∧ ∀ m, m ∈ tv.members ↔ ∃ τ, s.Solves τ ∧ o.at τ = m)
      False := by
  obtain ⟨tv, htv, hmem⟩ := h.exists_type hs
  exact .of_eq_ok (typeOf_of_some htv) ⟨rfl, hmem⟩

variable {c : TypeVar}

lemma ends_narrow (hs : Solid table s) {v : VarId} {i : SetId}
    (hv : s.sets.of? v = some i) (hc : c.members ≠ []) :
    Ends (narrow i c) s (fun b t => (b = true ∧ Narrowed table s t fun τ => τ v ∈ c.members) ∨
      (b = false ∧ s = t ∧ ∀ τ, s.Solves τ → τ v ∉ c.members)) False := by
  have hhold := holds_of_of? hs.sane.indexed hv
  cases h : s.sets.constrain? i c with
  | none =>
    refine .of_eq_ok ?_ (.inr ⟨rfl, rfl, fun τ hτ => ?_⟩)
    · rw [narrow, get_bind, h]
      rfl
    · exact not_mem_of_constrain h hhold hτ.sets
  | some p =>
    have hrun : narrow i c s = .ok (true, { s with sets := p.1 }) := by
      rw [narrow, get_bind, h]
      rfl
    refine .of_eq_ok hrun (.inl ⟨rfl, ⟨hs.sane.constrain h, nonVoid_constrain hs.nonVoid hc h⟩,
      narrows_constrain hs.sane.indexed h, rfl, fun τ => ?_⟩)
    have hsolves := solves_constrain (τ := τ) h hhold
    exact ⟨fun hτ => ⟨⟨hτ.proper, (hsolves.1 hτ.sets).1⟩, (hsolves.1 hτ.sets).2⟩,
      fun hτ => ⟨hτ.1.proper, hsolves.2 ⟨hτ.1.sets, hτ.2⟩⟩⟩

lemma join_of_singleton {tv j : TypeVar} {m : Member} (htv : tv.members = [m])
    (hc : c.members ≠ []) (h : tv.join c = some j) : j = tv ∧ m ∈ c.members := by
  have table : ∀ a b j : TypeVar, a.join b = some j → a.members.length = 1 → b.members ≠ [] →
      j = a := by
    decide +kernel
  obtain rfl := table tv c j h (by rw [htv]; rfl) hc
  exact ⟨rfl, ((mem_join h).1 (by rw [htv]; exact mem_singleton_self m)).2⟩

lemma ends_constrain (hs : Solid table s) (ho : o.Sound s) (hc : c.members ≠ []) :
    Ends (constrain span o c) s
      (fun o' t => o' = o ∧ Narrowed table s t fun τ => o.at τ ∈ c.members)
      (∀ τ, s.Solves τ → o.at τ ∉ c.members) := by
  cases o with
  | anchored v =>
    refine (ends_setOf ho).bind False.elim ?_
    rintro i _ - ⟨hi, rfl⟩
    refine (ends_narrow hs hi hc).bind False.elim ?_
    rintro b t - (⟨rfl, hn⟩ | ⟨rfl, rfl, hno⟩)
    · exact .of_pure ⟨rfl, hn⟩
    · exact (ends_typeOf hs ho).bind False.elim fun _ _ _ _ => .of_mismatch hno
  | known tv =>
    obtain ⟨m, hm⟩ := ho
    simp only [constrain, at_known hm]
    cases hj : tv.join c with
    | none =>
      refine .of_mismatch fun τ _ hmem => ?_
      exact not_mem_of_join_eq_none hj (by rw [hm]; exact mem_singleton_self m) hmem
    | some j =>
      obtain ⟨rfl, hmem⟩ := join_of_singleton hm hc hj
      exact .of_pure ⟨rfl, .refl hs fun _ => hmem⟩

def Operand.joined : Operand → Operand → Operand
  | .anchored v, _ => .anchored v
  | .known _, r => r

lemma Operand.Sound.joined (hl : l.Sound s) (hr : r.Sound s) : (l.joined r).Sound s := by
  cases l with
  | anchored v => exact hl
  | known tv => exact hr

lemma Operand.at_joined (h : l.at τ = r.at τ) : (l.joined r).at τ = l.at τ := by
  cases l with
  | anchored v => rfl
  | known tv => exact h.symm

lemma ends_unify (hs : Solid table s) (hl : l.Sound s) (hr : r.Sound s) : Ends (unify span l r) s
      (fun o t => o = l.joined r ∧ Narrowed table s t fun τ => l.at τ = r.at τ)
      (∀ τ, s.Solves τ → l.at τ ≠ r.at τ) := by
  have hmem {m m' : Member} : m' ∈ [m] ↔ m' = m := mem_singleton
  cases l with
  | anchored v =>
    cases r with
    | anchored w =>
      refine (ends_setOf hl).bind False.elim ?_
      rintro a _ - ⟨ha, rfl⟩
      refine (ends_setOf hr).bind False.elim ?_
      rintro b _ - ⟨hb, rfl⟩
      have hva := holds_of_of? hs.sane.indexed ha
      have hwb := holds_of_of? hs.sane.indexed hb
      refine .of_get ?_
      cases h : s.sets.unite? a b with
      | none =>
        exact (ends_typeOf hs hl).bind False.elim fun _ _ _ ⟨ht, _⟩ =>
          (ends_typeOf (ht ▸ hs) (ht ▸ hr)).bind False.elim fun _ _ _ _ =>
            .of_mismatch fun τ hτ => ne_of_unite h hva hwb hτ.sets
      | some p =>
        obtain ⟨hd, hn⟩ := unite_spec hs.sane.indexed hva.lt hwb.lt h
        refine .of_eq_ok modify_bind ⟨rfl, ?_⟩
        refine ⟨⟨hs.sane.narrow hd hn (unite_old hs.sane.indexed h),
          nonVoid_unite hs.nonVoid hva hwb h⟩, hn, rfl, fun τ => ?_⟩
        have hsolves := solves_unite (τ := τ) h hva hwb
        exact ⟨fun hτ => ⟨⟨hτ.proper, (hsolves.1 hτ.sets).1⟩, (hsolves.1 hτ.sets).2⟩,
          fun hτ => ⟨hτ.1.proper, hsolves.2 ⟨hτ.1.sets, hτ.2⟩⟩⟩
    | known tv =>
      obtain ⟨m, hm⟩ := hr
      refine (ends_setOf hl).bind False.elim ?_
      rintro i _ - ⟨hi, rfl⟩
      refine (ends_narrow hs hi (by rw [hm]; nofun)).bind False.elim ?_
      simp only [at_known hm, hm, hmem]
      rintro b t - (⟨rfl, hn⟩ | ⟨rfl, rfl, hno⟩)
      · exact .of_pure ⟨rfl, hn⟩
      · exact (ends_typeOf hs hl).bind False.elim fun _ _ _ _ => .of_mismatch hno
  | known tv =>
    obtain ⟨m, hm⟩ := hl
    cases r with
    | anchored w =>
      refine (ends_setOf hr).bind False.elim ?_
      rintro i _ - ⟨hi, rfl⟩
      refine (ends_narrow hs hi (by rw [hm]; nofun)).bind False.elim ?_
      simp only [at_known hm, hm, hmem]
      rintro b t - (⟨rfl, hn⟩ | ⟨rfl, rfl, hno⟩)
      · exact .of_pure ⟨rfl, hn.congr fun _ _ => eq_comm⟩
      · exact (ends_typeOf hs hr).bind False.elim fun _ _ _ _ =>
          .of_mismatch fun τ hτ h => hno τ hτ h.symm
    | known tw =>
      obtain ⟨m', hm'⟩ := hr
      simp only [unify, at_known hm, at_known hm']
      cases hj : tv.join tw with
      | none =>
        refine .of_mismatch fun τ _ heq => ?_
        refine not_mem_of_join_eq_none hj (m := m) ?_ ?_
        · rw [hm, hmem]
        · rw [hm', hmem, heq]
      | some j =>
        obtain ⟨-, heq⟩ := join_of_singleton hm (by rw [hm']; nofun) hj
        obtain ⟨rfl, -⟩ := join_of_singleton hm' (by rw [hm]; nofun) (join_comm hj)
        rw [hm', hmem] at heq
        exact .of_pure ⟨rfl, .refl hs fun _ => heq⟩

/-- An argument is passed unless it differs in type from its parameter in all assignments that
are left. Every assignment in which the two have one type is kept. -/
lemma ends_passArgument {p : VarId} (hs : Solid table s) (ho : o.Sound s) (hp : Entered s p) :
    Ends (passArgument span o p) s (fun _ t => ∃ j : TypeVar,
        (∀ m, m ∈ j.members ↔ (∃ τ, s.Solves τ ∧ o.at τ = m) ∧ ∃ τ, s.Solves τ ∧ τ p = m) ∧
        Narrowed table s t fun τ => τ p ∈ j.members ∧ o.at τ ∈ j.members)
      (∀ τ, s.Solves τ → o.at τ ≠ τ p) := by
  obtain ⟨want, hwant, hmemWant⟩ := Sound.exists_type (o := .anchored p) hp hs
  refine (ends_setOf hp).bind False.elim ?_
  rintro i _ - ⟨hi, rfl⟩
  rw [type?_anchored hi] at hwant
  obtain rfl := Option.some.inj hwant
  refine .of_get ?_
  refine (ends_typeOf hs ho).bind False.elim ?_
  rintro got _ - ⟨rfl, hmemGot⟩
  cases hj : got.join (s.sets.typeOf i) with
  | none =>
    refine .of_mismatch fun τ hτ heq => ?_
    exact not_mem_of_join_eq_none hj ((hmemGot _).2 ⟨τ, hτ, rfl⟩)
      ((hmemWant _).2 ⟨τ, hτ, heq.symm⟩)
  | some j =>
    have hmem (m : Member) : m ∈ j.members ↔
        (∃ τ, s.Solves τ ∧ o.at τ = m) ∧ ∃ τ, s.Solves τ ∧ τ p = m := by
      rw [mem_join hj, hmemGot, hmemWant]
      rfl
    have hne : j.members ≠ [] := by
      refine members_join_ne_nil hj ?_ (hs.nonVoid i p (holds_of_of? hs.sane.indexed hi))
      obtain ⟨τ, hτ⟩ := hs.exists_solves
      exact ne_nil_of_mem ((hmemGot _).2 ⟨τ, hτ, rfl⟩)
    -- something is left for both, so neither step is refused
    refine (ends_narrow hs hi hne).bind False.elim ?_
    rintro b s1 - (⟨rfl, hn⟩ | ⟨rfl, rfl, hno⟩)
    · refine (ends_constrain hn.solid (ho.mono hn.grows) hne).bind ?_ ?_
      · intro hno τ hτ heq
        have hboth := (hmem _).2 ⟨⟨τ, hτ, rfl⟩, τ, hτ, heq.symm⟩
        exact hno τ ((hn.solves τ).2 ⟨hτ, heq ▸ hboth⟩) hboth
      · rintro o' t - ⟨-, hn'⟩
        exact .of_pure ⟨j, hmem, hn.trans hn'⟩
    · obtain ⟨m, hm⟩ := exists_mem_of_ne_nil _ hne
      obtain ⟨-, τ, hτ, rfl⟩ := (hmem m).1 hm
      exact absurd hm (hno τ hτ)

end VecLang.Typing
