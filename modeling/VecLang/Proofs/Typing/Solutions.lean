import VecLang.Proofs.Typing.Sets

/-!
# Solutions of constraint sets

Constraint sets stand for the ways to give every variable a type, or no value at all, such that
the variables of one set agree and have a type that their set admits (`Solves`). Every operation
on the sets has a plain meaning in terms of solutions: a new variable, a narrower type and a
union of two sets each keep just the solutions that meet one more demand, and an operation is
refused only if no solution meets it. Since no set is ever without a type, a type is left for a
variable only if some solution gives it to the variable (`exists_solves`).
-/

namespace VecLang

/-- A type for each variable; none for a variable without a value. -/
abbrev Assignment := VarId → TypeVar.Member

def Assignment.Proper (τ : Assignment) : Prop := ∀ v, τ v ≠ some .invalid

variable {j : TypeVar}

namespace TypeVar

lemma invalid_notMem_members : ∀ tv : TypeVar, some Ty.invalid ∉ tv.members := by decide +kernel

lemma mem_join : ∀ {a b j : TypeVar}, a.join b = some j → ∀ {m : Member},
    m ∈ j.members ↔ m ∈ a.members ∧ m ∈ b.members := by
  decide +kernel

lemma not_mem_of_join_eq_none : ∀ {a b : TypeVar}, a.join b = Option.none →
    ∀ {m : Member}, m ∈ a.members → m ∉ b.members := by
  decide +kernel

lemma members_join_ne_nil : ∀ {a b j : TypeVar}, a.join b = some j → a.members ≠ [] →
    b.members ≠ [] → j.members ≠ [] := by
  decide +kernel

lemma eq_of_mem_iff : ∀ {a b : TypeVar}, (∀ m, m ∈ a.members ↔ m ∈ b.members) → a = b := by
  decide +kernel

lemma join_comm : ∀ {a b j : TypeVar}, a.join b = some j → b.join a = some j := by
  decide +kernel

end TypeVar

namespace ConstraintSets

def Solves (cs : ConstraintSets) (τ : Assignment) : Prop :=
  ∀ i v, cs.Holds i v → τ v ∈ (cs.typeOf i).members ∧ ∀ w, cs.Holds i w → τ w = τ v

def NonVoid (cs : ConstraintSets) : Prop := ∀ i v, cs.Holds i v → (cs.typeOf i).members ≠ []

variable {cs ct : ConstraintSets} {τ : Assignment} {i : SetId} {v w : VarId}

lemma solves_init (τ : Assignment) : ({} : ConstraintSets).Solves τ :=
  fun _ _ h => absurd h not_holds_init

lemma nonVoid_init : ({} : ConstraintSets).NonVoid := fun _ _ h => absurd h not_holds_init

/-! ## A new variable -/

section Add

variable {ty : TypeVar}

lemma solves_add (h : cs.of? v = none) :
    (cs.add v ty).1.Solves τ ↔ cs.Solves τ ∧ τ v ∈ ty.members := by
  constructor
  · intro hτ
    refine ⟨fun i w hw => ?_, ?_⟩
    · obtain ⟨hty, hsame⟩ := hτ i w ((holds_add h).2 (.inl hw))
      rw [typeOf_add_of_lt hw.lt] at hty
      exact ⟨hty, fun u hu => hsame u ((holds_add h).2 (.inl hu))⟩
    · obtain ⟨hty, -⟩ := hτ cs.sets.size v ((holds_add h).2 (.inr ⟨rfl, rfl⟩))
      rwa [typeOf_add_size h] at hty
  · rintro ⟨hτ, hv⟩ i w hw
    rcases (holds_add h).1 hw with hw | ⟨rfl, rfl⟩
    · obtain ⟨hty, hsame⟩ := hτ i w hw
      rw [typeOf_add_of_lt hw.lt]
      refine ⟨hty, fun u hu => ?_⟩
      rcases (holds_add h).1 hu with hu | ⟨rfl, -⟩
      · exact hsame u hu
      · exact absurd hw.lt (Nat.lt_irrefl _)
    · rw [typeOf_add_size h]
      refine ⟨hv, fun u hu => ?_⟩
      rcases (holds_add h).1 hu with hu | ⟨-, rfl⟩
      · exact absurd hu.lt (Nat.lt_irrefl _)
      · rfl

lemma nonVoid_add (hn : cs.NonVoid) (hty : ty.members ≠ []) : (cs.add v ty).1.NonVoid := by
  cases h : cs.of? v with
  | some i => rwa [add_of_some h]
  | none =>
    intro i w hw
    rcases (holds_add h).1 hw with hw | ⟨rfl, -⟩
    · rw [typeOf_add_of_lt hw.lt]
      exact hn i w hw
    · rwa [typeOf_add_size h]

end Add

/-! ## A narrower type -/

section Constrain

variable {id : SetId} {tv j : TypeVar}

/-- Narrowing the set of a variable keeps the solutions that give the variable a type of the
class. -/
lemma solves_constrain (h : cs.constrain? id tv = some (ct, j)) (hv : cs.Holds id v) :
    ct.Solves τ ↔ cs.Solves τ ∧ τ v ∈ tv.members := by
  constructor
  · intro hτ
    refine ⟨fun i w hw => ?_, ?_⟩
    · obtain ⟨hjoin, hty⟩ := typeOf_constrain h hw.lt
      obtain ⟨hmem, hsame⟩ := hτ i w ((holds_constrain h).2 hw)
      refine ⟨?_, fun u hu => hsame u ((holds_constrain h).2 hu)⟩
      rw [hty] at hmem
      split at hmem
      case isTrue hid =>
        subst hid
        exact ((TypeVar.mem_join hjoin).1 hmem).1
      case isFalse => exact hmem
    · obtain ⟨hjoin, hty⟩ := typeOf_constrain h hv.lt
      obtain ⟨hmem, -⟩ := hτ id v ((holds_constrain h).2 hv)
      rw [hty, if_pos rfl] at hmem
      exact ((TypeVar.mem_join hjoin).1 hmem).2
  · rintro ⟨hτ, hmem⟩ i w hw
    rw [holds_constrain h] at hw
    obtain ⟨hjoin, hty⟩ := typeOf_constrain h hw.lt
    obtain ⟨hold, hsame⟩ := hτ i w hw
    refine ⟨?_, fun u hu => hsame u ((holds_constrain h).1 hu)⟩
    rw [hty]
    split
    case isTrue hid =>
      subst hid
      exact (TypeVar.mem_join hjoin).2 ⟨hold, hsame v hv ▸ hmem⟩
    case isFalse => exact hold

lemma not_mem_of_constrain (h : cs.constrain? id tv = none) (hv : cs.Holds id v)
    (hτ : cs.Solves τ) : τ v ∉ tv.members :=
  TypeVar.not_mem_of_join_eq_none (constrain?_eq_none.1 h) (hτ id v hv).1

lemma nonVoid_constrain (hn : cs.NonVoid) (htv : tv.members ≠ [])
    (h : cs.constrain? id tv = some (ct, j)) : ct.NonVoid := by
  intro i v hv
  rw [holds_constrain h] at hv
  obtain ⟨hjoin, hty⟩ := typeOf_constrain h hv.lt
  rw [hty]
  split
  case isTrue hid =>
    subst hid
    exact TypeVar.members_join_ne_nil hjoin (hn id v hv) htv
  case isFalse => exact hn i v hv

end Constrain

/-! ## Two sets made one -/

section Unite

variable {into source : SetId} {ty : TypeVar}

/-- Moving the variables of one set to another keeps the solutions in which the variables of the
two agree. -/
lemma solves_absorb (hne : into ≠ source) (hty : (cs.typeOf into).join (cs.typeOf source) = some ty)
    (hv : cs.Holds into v) (hw : cs.Holds source w) :
    (cs.absorb into source ty).Solves τ ↔ cs.Solves τ ∧ τ v = τ w := by
  have holds {i : SetId} {u : VarId} : (cs.absorb into source ty).Holds i u ↔ _ :=
    holds_absorb hne hv.lt
  have htype {i : SetId} (hi : i ≠ source) :
      (cs.absorb into source ty).typeOf i = if i = into then ty else cs.typeOf i :=
    typeOf_absorb hv.lt hi
  constructor
  · intro hτ
    -- whatever is in one of the two sets has the type of `v` and a type that both admit
    have both {u : VarId} (hu : cs.Holds into u ∨ cs.Holds source u) :
        τ u = τ v ∧ τ u ∈ (cs.typeOf into).members ∧ τ u ∈ (cs.typeOf source).members := by
      have hin : (cs.absorb into source ty).Holds into u := holds.2 ⟨hne, hu.imp_right fun h => ⟨rfl, h⟩⟩
      obtain ⟨hmem, hsame⟩ := hτ into u hin
      rw [htype hne, if_pos rfl] at hmem
      exact ⟨(hsame v (holds.2 ⟨hne, .inl hv⟩)).symm, (TypeVar.mem_join hty).1 hmem⟩
    refine ⟨fun i u hu => ?_, (both (.inr hw)).1.symm⟩
    by_cases hi : i = source
    · subst hi
      refine ⟨(both (.inr hu)).2.2, fun u' hu' => ?_⟩
      rw [(both (.inr hu')).1, (both (.inr hu)).1]
    by_cases hi' : i = into
    · subst hi'
      refine ⟨(both (.inl hu)).2.1, fun u' hu' => ?_⟩
      rw [(both (.inl hu')).1, (both (.inl hu)).1]
    · obtain ⟨hmem, hsame⟩ := hτ i u (holds.2 ⟨hi, .inl hu⟩)
      rw [htype hi, if_neg hi'] at hmem
      exact ⟨hmem, fun u' hu' => hsame u' (holds.2 ⟨hi, .inl hu'⟩)⟩
  · rintro ⟨hτ, hvw⟩ i u hu
    obtain ⟨hi, hu⟩ := holds.1 hu
    rw [htype hi]
    by_cases hi' : i = into
    · subst hi'
      -- the members of both sets have the type of `v`
      have same {u : VarId} (hu : cs.Holds i u ∨ (i = i ∧ cs.Holds source u)) : τ u = τ v := by
        rcases hu with hu | ⟨-, hu⟩
        · exact (hτ i v hv).2 u hu
        · rw [(hτ source w hw).2 u hu, hvw]
      refine ⟨?_, fun u' hu' => ?_⟩
      · rw [if_pos rfl, TypeVar.mem_join hty, same hu]
        exact ⟨(hτ i v hv).1, hvw ▸ (hτ source w hw).1⟩
      · rw [same hu, same (holds.1 hu').2]
    · rw [if_neg hi']
      have hu : cs.Holds i u := hu.resolve_right fun h => hi' h.1
      refine ⟨(hτ i u hu).1, fun u' hu' => (hτ i u hu).2 u' ?_⟩
      exact (holds.1 hu').2.resolve_right fun h => hi' h.1

lemma nonVoid_absorb (hn : cs.NonVoid) (hne : into ≠ source) (hinto : into < cs.sets.size)
    (hty : ty.members ≠ []) : (cs.absorb into source ty).NonVoid := by
  intro i u hu
  obtain ⟨hi, hu⟩ := (holds_absorb hne hinto).1 hu
  rw [typeOf_absorb hinto hi]
  split
  case isTrue => exact hty
  case isFalse h => exact hn i u (hu.resolve_right fun h' => h h'.1)

variable {a b c : SetId} {j : TypeVar}

/-- Making the sets of two variables one keeps the solutions in which the two agree. -/
lemma solves_unite (h : cs.unite? a b = some (ct, c, j)) (hv : cs.Holds a v)
    (hw : cs.Holds b w) : ct.Solves τ ↔ cs.Solves τ ∧ τ v = τ w := by
  obtain ⟨rfl, rfl⟩ | ⟨hab, hj, ⟨rfl, -⟩ | ⟨rfl, -⟩⟩ := unite_cases h
  · exact ⟨fun hτ => ⟨hτ, (hτ a w hw).2 v hv⟩, And.left⟩
  · rw [solves_absorb (Ne.symm hab) (TypeVar.join_comm hj) hw hv]
    exact and_congr_right fun _ => eq_comm
  · exact solves_absorb hab hj hv hw

/-- Two sets are kept apart only if their variables agree in no solution. -/
lemma ne_of_unite (h : cs.unite? a b = none) (hv : cs.Holds a v) (hw : cs.Holds b w)
    (hτ : cs.Solves τ) : τ v ≠ τ w := by
  unfold unite? at h
  split at h
  · cases h
  split at h
  case h_1 hj =>
    intro hvw
    exact TypeVar.not_mem_of_join_eq_none hj (hτ a v hv).1 (hvw ▸ (hτ b w hw).1)
  case h_2 =>
    simp only at h
    split at h <;> cases h

lemma nonVoid_unite (hn : cs.NonVoid) (ha : cs.Holds a v) (hb : cs.Holds b w)
    (h : cs.unite? a b = some (ct, c, j)) : ct.NonVoid := by
  obtain ⟨-, rfl⟩ | ⟨hab, hj, ⟨rfl, -⟩ | ⟨rfl, -⟩⟩ := unite_cases h
  · exact hn
  · exact nonVoid_absorb hn (Ne.symm hab) hb.lt
      (TypeVar.members_join_ne_nil hj (hn a v ha) (hn b w hb))
  · exact nonVoid_absorb hn hab ha.lt (TypeVar.members_join_ne_nil hj (hn a v ha) (hn b w hb))

end Unite

/-! ## What is left for a variable -/

lemma exists_solves_of_choice (hd : cs.Indexed) {f : SetId → TypeVar.Member}
    (hf : ∀ i v, cs.Holds i v → f i ∈ (cs.typeOf i).members) :
    ∃ τ : Assignment, τ.Proper ∧ cs.Solves τ ∧ ∀ i v, cs.Holds i v → τ v = f i := by
  let σ : Assignment := fun w => ((cs.of? w).map f).getD none
  have hσ {i : SetId} {w : VarId} (hw : cs.Holds i w) : σ w = f i := by
    simp only [σ, (of?_eq_some_iff hd).2 hw, Option.map_some, Option.getD_some]
  refine ⟨σ, fun w hw => ?_, fun i w hw => ⟨?_, fun u hu => ?_⟩, fun i w hw => hσ hw⟩
  · cases hof : cs.of? w with
    | none =>
      simp only [σ, hof] at hw
      cases hw
    | some i =>
      have hhold := holds_of_of? hd hof
      exact TypeVar.invalid_notMem_members _ (hw ▸ hσ hhold ▸ hf i w hhold)
  · rw [hσ hw]
    exact hf i w hw
  · rw [hσ hw, hσ hu]

lemma headD_mem_members (hn : cs.NonVoid) (hv : cs.Holds i v) :
    (cs.typeOf i).members.headD none ∈ (cs.typeOf i).members := by
  cases hms : (cs.typeOf i).members with
  | nil => exact absurd hms (hn i v hv)
  | cons x xs => exact List.mem_cons_self

lemma exists_solution (hd : cs.Indexed) (hn : cs.NonVoid) :
    ∃ τ : Assignment, τ.Proper ∧ cs.Solves τ := by
  obtain ⟨τ, hτ, hsolves, -⟩ := exists_solves_of_choice hd
    (f := fun i => (cs.typeOf i).members.headD none) fun _ _ => headD_mem_members hn
  exact ⟨τ, hτ, hsolves⟩

lemma exists_solves (hd : cs.Indexed) (hn : cs.NonVoid) (hv : cs.Holds i v)
    {m : TypeVar.Member} (hm : m ∈ (cs.typeOf i).members) :
    ∃ τ : Assignment, τ.Proper ∧ cs.Solves τ ∧ τ v = m := by
  obtain ⟨τ, hτ, hsolves, hval⟩ := exists_solves_of_choice hd
    (f := fun j => if j = i then m else (cs.typeOf j).members.headD none) fun j w hw => by
      by_cases h : j = i
      · subst h
        rwa [if_pos rfl]
      · rw [if_neg h]
        exact headD_mem_members hn hw
  exact ⟨τ, hτ, hsolves, by rw [hval i v hv, if_pos rfl]⟩

end ConstraintSets

end VecLang
