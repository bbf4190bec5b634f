import Mathlib.Data.List.Forall2

/-!
# Computations with a state that may stop

Inference and lowering thread a state and may stop with a cause. A computation that comes to
an end is taken apart here: what a sequence returns is what its last part returns, run in the
state that the first part left behind.
-/

namespace VecLang.Stateful

open List

universe u

variable {σ ε : Type u} {α β : Type u}

/-- A sequence ends when both of its parts do, the second in the state left by the first. -/
lemma except_bind_eq_ok {x : Except ε α} {f : α → Except ε β} {b : β} :
    (x >>= f) = .ok b ↔ ∃ a, x = .ok a ∧ f a = .ok b := by
  cases x with
  | error e => exact ⟨nofun, nofun⟩
  | ok a => exact ⟨fun h => ⟨a, rfl, h⟩, fun ⟨_, ha, h⟩ => by cases ha; exact h⟩

variable {x : StateT σ (Except ε) α} {f : α → StateT σ (Except ε) β} {s : σ}

lemma bind_eq_ok {r : β × σ} : (x >>= f) s = .ok r ↔ ∃ a t, x s = .ok (a, t) ∧ f a t = .ok r := by
  change (Except.bind (x s) fun p => f p.1 p.2) = .ok r ↔ _
  cases x s with
  | error e => simp [Except.bind]
  | ok p =>
    constructor
    · intro h
      exact ⟨p.1, p.2, rfl, h⟩
    · rintro ⟨a, t, hp, h⟩
      cases hp
      exact h

lemma unit_bind_eq_ok {x : StateT σ (Except ε) PUnit} {f : PUnit → StateT σ (Except ε) β} {r : β × σ} :
    (x >>= f) s = .ok r ↔ ∃ t, x s = .ok (⟨⟩, t) ∧ f ⟨⟩ t = .ok r := by
  rw [bind_eq_ok]
  exact ⟨fun ⟨⟨⟩, t, h⟩ => ⟨t, h⟩, fun ⟨t, h⟩ => ⟨⟨⟩, t, h⟩⟩

variable {a : α} {r : α × σ}

lemma bind_of_eq_ok {t : σ} (h : x s = .ok (a, t)) : (x >>= f) s = f a t := by
  change Except.bind (x s) (fun p => f p.1 p.2) = _
  rw [h]
  rfl

-- not by definition for the simplifier, which would leave all the steps to the kernel
lemma get_bind {f : σ → StateT σ (Except ε) β} : (get >>= f) s = f s s := (rfl)

lemma modify_bind {g : σ → σ} {f : PUnit → StateT σ (Except ε) β} :
    (modify g >>= f) s = f ⟨⟩ (g s) := (rfl)

lemma pure_eq_ok : (pure a : StateT σ (Except ε) α) s = .ok r ↔ r = (a, s) := by
  change Except.ok (a, s) = .ok r ↔ _
  rw [Except.ok.injEq]
  exact eq_comm

lemma get_eq_ok {r : σ × σ} : (get : StateT σ (Except ε) σ) s = .ok r ↔ r = (s, s) := by
  change Except.ok (s, s) = .ok r ↔ _
  rw [Except.ok.injEq]
  exact eq_comm

lemma modify_eq_ok {f : σ → σ} {r : PUnit × σ} :
    (modify f : StateT σ (Except ε) PUnit) s = .ok r ↔ r = (⟨⟩, f s) := by
  change Except.ok (PUnit.unit, f s) = .ok r ↔ _
  rw [Except.ok.injEq]
  exact eq_comm

lemma modifyGet_eq_ok {f : σ → α × σ} :
    (modifyGet f : StateT σ (Except ε) α) s = .ok r ↔ r = f s := by
  change Except.ok (f s) = .ok r ↔ _
  rw [Except.ok.injEq]
  exact eq_comm

lemma throw_ne_ok {e : ε} : (throw e : StateT σ (Except ε) α) s ≠ .ok r := nofun

lemma lift_eq_ok {x : Except ε α} :
    (liftM x : StateT σ (Except ε) α) s = .ok r ↔ ∃ a, x = .ok a ∧ r = (a, s) := by
  change (Except.bind x fun a => Except.ok (a, s)) = .ok r ↔ _
  cases x with
  | error e => simp [Except.bind]
  | ok a => simp [Except.bind, eq_comm]

/-! ## Lists -/

variable {as : List α}

lemma mapM_cons_eq_ok {r : List β × σ} : (a :: as).mapM f s = .ok r ↔
      ∃ b t bs u, f a s = .ok (b, t) ∧ as.mapM f t = .ok (bs, u) ∧ r = (b :: bs, u) := by
  rw [mapM_cons, bind_eq_ok]
  simp only [bind_eq_ok, pure_eq_ok]
  constructor
  · rintro ⟨b, t, hb, bs, u, hbs, rfl⟩
    exact ⟨b, t, bs, u, hb, hbs, rfl⟩
  · rintro ⟨b, t, bs, u, hb, hbs, rfl⟩
    exact ⟨b, t, hb, bs, u, hbs, rfl⟩

variable {R : α → β → Prop}

lemma exists_mapM_eq_ok {f g : α → Except ε β}
    (h : ∀ a ∈ as, ∃ b, f a = .ok b ∧ g a = .ok b ∧ R a b) :
    ∃ bs, as.mapM f = .ok bs ∧ as.mapM g = .ok bs ∧ List.Forall₂ R as bs := by
  induction as with
  | nil => exact ⟨[], rfl, rfl, .nil⟩
  | cons a as ih =>
    obtain ⟨b, hf, hg, hR⟩ := h a mem_cons_self
    obtain ⟨bs, hfs, hgs, hRs⟩ := ih fun a' ha' => h a' (mem_cons_of_mem _ ha')
    refine ⟨b :: bs, ?_, ?_, .cons hR hRs⟩
    · rw [mapM_cons]
      exact except_bind_eq_ok.2 ⟨b, hf, except_bind_eq_ok.2 ⟨bs, hfs, rfl⟩⟩
    · rw [mapM_cons]
      exact except_bind_eq_ok.2 ⟨b, hg, except_bind_eq_ok.2 ⟨bs, hgs, rfl⟩⟩

variable {bs : List β}

lemma exists_of_mem_left (h : List.Forall₂ R as bs) (ha : a ∈ as) : ∃ b ∈ bs, R a b := by
  induction h with
  | nil => cases ha
  | cons hab _ ih =>
    rcases mem_cons.1 ha with rfl | ha
    · exact ⟨_, mem_cons_self, hab⟩
    · obtain ⟨b, hb, hr⟩ := ih ha
      exact ⟨b, mem_cons_of_mem _ hb, hr⟩

lemma exists_of_mem_right (h : List.Forall₂ R as bs) {b : β} (hb : b ∈ bs) : ∃ a ∈ as, R a b :=
  exists_of_mem_left h.flip hb

lemma forall₂_of_common {γ : Type*} {Q : α → γ → Prop} {P : β → γ → Prop} {cs : List γ}
    (h : List.Forall₂ R as bs)
    (h' : List.Forall₂ Q as cs) (hP : ∀ {a b c}, R a b → Q a c → P b c) :
    List.Forall₂ P bs cs := by
  induction h generalizing cs with
  | nil =>
    cases h'
    exact .nil
  | cons hab _ ih =>
    cases h' with
    | cons hac h' => exact .cons (hP hab hac) (ih h')

/-- How the state may change in the course of a computation, and what is true of it at any
time. -/
structure Course (σ : Type u) where
  inv : σ → Prop
  step : σ → σ → Prop
  refl : ∀ s, step s s
  trans : ∀ {s t u}, step s t → step t u → step s u

/-- If every element of a list is treated as `q` says, and what `q` says stays true, then in the
end it is true of all of them. -/
lemma Course.mapM_spec (c : Course σ) {q : α → β → σ → Prop}
    (hq : ∀ {a b s t}, c.step s t → q a b s → q a b t)
    (hf : ∀ a ∈ as, ∀ {b s t}, c.inv s → f a s = .ok (b, t) → c.inv t ∧ c.step s t ∧ q a b t)
    {t : σ} (hs : c.inv s) (h : as.mapM f s = .ok (bs, t)) :
    c.inv t ∧ c.step s t ∧ List.Forall₂ (q · · t) as bs := by
  induction as generalizing s bs with
  | nil =>
    rw [mapM_nil] at h
    cases pure_eq_ok.1 h
    exact ⟨hs, c.refl _, .nil⟩
  | cons a as ih =>
    obtain ⟨b, s1, bs, t', hb, hbs, hr⟩ := mapM_cons_eq_ok.1 h
    cases hr
    obtain ⟨hs1, hx1, hqb⟩ := hf a mem_cons_self hs hb
    obtain ⟨ht, hx2, hqs⟩ := ih (fun a ha => hf a (mem_cons_of_mem _ ha)) hs1 hbs
    exact ⟨ht, c.trans hx1 hx2, .cons (hq hx2 hqb) hqs⟩

end VecLang.Stateful
