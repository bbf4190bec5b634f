import Mathlib.Logic.Relation
import VecLang.Proofs.Typing.Solutions

/-!
# The order of constraints

Constraints on variables are met one after the other, each on the sets that the ones before it
left. What comes of them depends on the constraints alone (`Reflects`): variables share a set if
constraints join them, and the type of a set is the narrowest that was asked of its variables. A
constraint is refused only if two things that are asked of one variable exclude each other, which
no other order can mend (`performAll_perm`).
-/

namespace VecLang.ConstraintSets

open List

/-- A set of its own for each variable. -/
def ofSeeds (seed : VarId → TypeVar) (vs : List VarId) : ConstraintSets :=
  vs.foldr (fun v cs => (cs.add v (seed v)).1) {}

inductive Op where
  /-- The type of the variable is of a class. -/
  | constrain (v : VarId) (tv : TypeVar)
  /-- Both variables have one type. -/
  | unite (v w : VarId)

/-- Meet a constraint on the current sets of its variables. -/
def perform? (cs : ConstraintSets) : Op → Option ConstraintSets
  | .constrain v tv => do
    let i ← cs.of? v
    (cs.constrain? i tv).map (·.1)
  | .unite v w => do
    let i ← cs.of? v
    let k ← cs.of? w
    (cs.unite? i k).map (·.1)

def performAll? (cs : ConstraintSets) (ops : List Op) : Option ConstraintSets :=
  ops.foldlM perform? cs

/-- Constraints make the types of the two variables one, directly or through others. -/
def Joined (ops : List Op) : VarId → VarId → Prop := Relation.EqvGen fun v w => .unite v w ∈ ops

/-- The type of the variable has to be of this class, for its own sake or for that of a variable
that it is joined with. -/
def Asked (seed : VarId → TypeVar) (vs : List VarId) (ops : List Op) (v : VarId) (tv : TypeVar) :
    Prop :=
  ∃ w, Joined ops v w ∧ (w ∈ vs ∧ seed w = tv ∨ .constrain w tv ∈ ops)

variable {seed : VarId → TypeVar} {vs : List VarId} {ops ops' : List Op} {cs ct : ConstraintSets}
  {v w : VarId} {a b c j tv : TypeVar} {i k : SetId} {op : Op}

lemma Joined.mono (hsub : ops ⊆ ops') (h : Joined ops v w) : Joined ops' v w := by
  induction h with
  | rel v w h => exact .rel v w (hsub h)
  | refl v => exact .refl v
  | symm v w _ ih => exact .symm v w ih
  | trans v w x _ _ ih ih' => exact .trans v w x ih ih'

lemma Asked.mono (hsub : ops ⊆ ops') (h : Asked seed vs ops v c) : Asked seed vs ops' v c := by
  obtain ⟨w, hw, hc⟩ := h
  exact ⟨w, hw.mono hsub, hc.imp_right fun h => hsub h⟩

lemma Asked.joined (h : Asked seed vs ops w c) (hvw : Joined ops v w) : Asked seed vs ops v c := by
  obtain ⟨x, hx, hc⟩ := h
  exact ⟨x, .trans v w x hvw hx, hc⟩

/-! ## Classes by what they have in common -/

/-- The class is left as it is when it is narrowed to the other. -/
def Below (a b : TypeVar) : Prop := a.join b = some a

lemma below_refl (a : TypeVar) : Below a a := by simp [Below, TypeVar.join]

instance : Decidable (Below a b) := inferInstanceAs (Decidable (_ = _))

lemma Below.trans : ∀ {a b c}, Below a b → Below b c → Below a c := by decide +kernel

lemma Below.join_ne_none : ∀ {j a b}, Below j a → Below j b → a.join b ≠ none := by decide +kernel

/-- Of two classes that have something in common, one is a part of the other. -/
lemma below_of_join : ∀ {a b j : TypeVar}, a.join b = some j →
    Below j a ∧ Below j b ∧ (j = a ∨ j = b) := by
  decide +kernel

/-! ## Sets that reflect constraints -/

/-- The constraint holds of the sets. -/
def Op.Met (cs : ConstraintSets) : Op → Prop
  | constrain v tv => ∃ i, cs.of? v = some i ∧ Below (cs.typeOf i) tv
  | unite v w => ∃ i, cs.of? v = some i ∧ cs.of? w = some i

/-- The sets are what comes of the constraints, in whatever order they are met. -/
structure Reflects (seed : VarId → TypeVar) (vs : List VarId) (ops : List Op)
    (cs : ConstraintSets) : Prop where
  indexed : cs.Indexed
  known : ∀ {v i}, cs.of? v = some i → v ∈ vs
  seeded : ∀ v ∈ vs, ∃ i, cs.of? v = some i ∧ Below (cs.typeOf i) (seed v)
  met : ∀ op ∈ ops, op.Met cs
  joined : ∀ {v w i}, cs.of? v = some i → cs.of? w = some i → Joined ops v w
  attained : ∀ {v i}, cs.of? v = some i → Asked seed vs ops v (cs.typeOf i)

namespace Reflects

lemma of?_eq (h : Reflects seed vs ops cs) (hvw : Joined ops v w) : cs.of? v = cs.of? w := by
  induction hvw with
  | rel v w hop =>
    obtain ⟨i, hv, hw⟩ := h.met _ hop
    rw [hv, hw]
  | refl v => rfl
  | symm v w _ ih => exact ih.symm
  | trans v w x _ _ ih ih' => exact ih.trans ih'

lemma below (h : Reflects seed vs ops cs) (hc : Asked seed vs ops v c) :
    ∃ i, cs.of? v = some i ∧ Below (cs.typeOf i) c := by
  obtain ⟨w, hvw, hc⟩ := hc
  rw [h.of?_eq hvw]
  rcases hc with ⟨hw, rfl⟩ | hop
  · exact h.seeded w hw
  · exact h.met _ hop

lemma join_ne_none (h : Reflects seed vs ops cs) (ha : Asked seed vs ops v a)
    (hb : Asked seed vs ops v b) : a.join b ≠ none := by
  obtain ⟨i, hi, hia⟩ := h.below ha
  obtain ⟨k, hk, hkb⟩ := h.below hb
  cases hi.symm.trans hk
  exact hia.join_ne_none hkb

lemma mem_members_iff (h : Reflects seed vs ops cs) (hv : cs.of? v = some i)
    (m : TypeVar.Member) :
    m ∈ (cs.typeOf i).members ↔ ∀ c, Asked seed vs ops v c → m ∈ c.members := by
  refine ⟨fun hm c hc => ?_, fun hall => hall _ (h.attained hv)⟩
  obtain ⟨k, hk, hbelow⟩ := h.below hc
  cases hv.symm.trans hk
  exact ((TypeVar.mem_join hbelow).1 hm).2

/-- What one more constraint has to do with the sets to be reflected. -/
lemma step (h : Reflects seed vs ops cs) (hd : ct.Indexed)
    (hknown : ∀ {v i}, ct.of? v = some i → v ∈ vs)
    (hnarrow : ∀ {v i}, cs.of? v = some i →
      ∃ k, ct.of? v = some k ∧ Below (ct.typeOf k) (cs.typeOf i))
    (htogether : ∀ {v w i}, cs.of? v = some i → cs.of? w = some i → ct.of? v = ct.of? w)
    (hop : op.Met ct)
    (hjoined : ∀ {v w i}, ct.of? v = some i → ct.of? w = some i → Joined (op :: ops) v w)
    (hattained : ∀ {v i}, ct.of? v = some i → Asked seed vs (op :: ops) v (ct.typeOf i)) :
    Reflects seed vs (op :: ops) ct where
  indexed := hd
  known := hknown
  seeded v hv := by
    obtain ⟨i, hi, hbelow⟩ := h.seeded v hv
    obtain ⟨k, hk, hbelow'⟩ := hnarrow hi
    exact ⟨k, hk, hbelow'.trans hbelow⟩
  met op' hop' := by
    rcases mem_cons.1 hop' with rfl | hop'
    · exact hop
    cases op' with
    | constrain v tv =>
      obtain ⟨i, hi, hbelow⟩ := h.met _ hop'
      obtain ⟨k, hk, hbelow'⟩ := hnarrow hi
      exact ⟨k, hk, hbelow'.trans hbelow⟩
    | unite v w =>
      obtain ⟨i, hv, hw⟩ := h.met _ hop'
      obtain ⟨k, hk, -⟩ := hnarrow hv
      exact ⟨k, hk, (htogether hv hw).symm.trans hk⟩
  joined := hjoined
  attained := hattained

lemma constrain (h : Reflects seed vs ops cs) (hv : cs.of? v = some i)
    (hct : cs.constrain? i tv = some (ct, j)) : Reflects seed vs (.constrain v tv :: ops) ct := by
  have hof {w : VarId} {k : SetId} : ct.of? w = some k ↔ cs.of? w = some k := by
    rw [of?_constrain hct]
  have hty {w : VarId} {k : SetId} (hw : cs.of? w = some k) :=
    typeOf_constrain hct (holds_of_of? h.indexed hw).lt
  obtain ⟨hj, hjtv, hor⟩ := below_of_join (hty hv).1
  have hsub : ops ⊆ .constrain v tv :: ops := subset_cons_self _ _
  refine h.step (indexed_constrain h.indexed hct) (fun hw => h.known (hof.1 hw))
    (fun {w k} hw => ⟨k, hof.2 hw, ?_⟩) (fun hx hy => by rw [hof.2 hx, hof.2 hy])
    ⟨i, hof.2 hv, by rwa [(hty hv).2, if_pos rfl]⟩
    (fun hx hy => (h.joined (hof.1 hx) (hof.1 hy)).mono hsub) fun {w k} hw => ?_
  · rw [(hty hw).2]
    split
    next hik => exact hik ▸ hj
    next => exact below_refl _
  · rw [hof] at hw
    rw [(hty hw).2]
    split
    next hik =>
      subst hik
      rcases hor with rfl | rfl
      · exact (h.attained hw).mono hsub
      · exact ⟨v, (h.joined hw hv).mono hsub, .inr mem_cons_self⟩
    next => exact (h.attained hw).mono hsub

lemma absorb (h : Reflects seed vs ops cs) (hv : cs.of? v = some i) (hw : cs.of? w = some k)
    (hik : i ≠ k) (hj : (cs.typeOf i).join (cs.typeOf k) = some j)
    (hop : op = .unite v w ∨ op = .unite w v) : Reflects seed vs (op :: ops) (cs.absorb i k j) := by
  have hi := (holds_of_of? h.indexed hv).lt
  have hof {x : VarId} {l : SetId} (hx : cs.of? x = some l) :
      (cs.absorb i k j).of? x = some (if l = k then i else l) :=
    of?_absorb h.indexed hx
  have hty {l : SetId} (hl : l ≠ k) :
      (cs.absorb i k j).typeOf l = if l = i then j else cs.typeOf l :=
    typeOf_absorb hi hl
  have hold {x : VarId} {l : SetId} (hx : (cs.absorb i k j).of? x = some l) :
      ∃ l', cs.of? x = some l' ∧ l = if l' = k then i else l' := by
    obtain ⟨l', hl'⟩ : ∃ l', cs.of? x = some l' := by
      have hheld := holds_of_of? (indexed_absorb h.indexed hik hi) hx
      rcases ((holds_absorb hik hi).1 hheld).2 with hx | ⟨-, hx⟩
      · exact ⟨_, (h.indexed _ _).2 hx⟩
      · exact ⟨_, (h.indexed _ _).2 hx⟩
    exact ⟨l', hl', Option.some.inj (hx.symm.trans (hof hl'))⟩
  obtain ⟨hji, hjk, hor⟩ := below_of_join hj
  have hsub : ops ⊆ op :: ops := subset_cons_self _ _
  have hvw : Joined (op :: ops) v w := by
    rcases hop with rfl | rfl
    · exact .rel v w mem_cons_self
    · exact .symm w v (.rel w v mem_cons_self)
  -- what was in one of the two sets is joined with `v`
  have hjoined {x : VarId} {l : SetId} (hx : cs.of? x = some l) (hl : l = i ∨ l = k) :
      Joined (op :: ops) x v := by
    rcases hl with rfl | rfl
    · exact (h.joined hx hv).mono hsub
    · exact .trans x w v ((h.joined hx hw).mono hsub) (.symm v w hvw)
  refine h.step (indexed_absorb h.indexed hik hi) (fun hx => ?_) (fun {x l} hx => ⟨_, hof hx, ?_⟩)
    (fun hx hy => by rw [hof hx, hof hy]) ?_ (fun {x y l} hx hy => ?_) fun {x l} hx => ?_
  · obtain ⟨l', hl', -⟩ := hold hx
    exact h.known hl'
  · by_cases hl : l = k
    · rw [if_pos hl, hty hik, if_pos rfl, hl]
      exact hjk
    · rw [if_neg hl, hty hl]
      split
      next hl => exact hl ▸ hji
      next => exact below_refl _
  · have hv' : (cs.absorb i k j).of? v = some i := by rw [hof hv, if_neg hik]
    have hw' : (cs.absorb i k j).of? w = some i := by rw [hof hw, if_pos rfl]
    rcases hop with rfl | rfl
    · exact ⟨i, hv', hw'⟩
    · exact ⟨i, hw', hv'⟩
  · obtain ⟨l, hl, rfl⟩ := hold hx
    obtain ⟨m, hm, heq⟩ := hold hy
    by_cases hlm : l = m
    · exact (h.joined hl (hlm ▸ hm)).mono hsub
    · have hin : (l = i ∨ l = k) ∧ (m = i ∨ m = k) := by grind
      exact .trans x v y (hjoined hl hin.1) (.symm y v (hjoined hm hin.2))
  · obtain ⟨l, hl, rfl⟩ := hold hx
    by_cases hin : l = i ∨ l = k
    · have hj' : (cs.absorb i k j).typeOf (if l = k then i else l) = j := by
        rcases hin with rfl | rfl
        · rw [if_neg hik, hty hik, if_pos rfl]
        · rw [if_pos rfl, hty hik, if_pos rfl]
      rw [hj']
      refine Asked.joined ?_ (hjoined hl hin)
      rcases hor with rfl | rfl
      · exact (h.attained hv).mono hsub
      · exact ((h.attained hw).mono hsub).joined hvw
    · rw [not_or] at hin
      rw [if_neg hin.2, hty hin.2, if_neg hin.1]
      exact (h.attained hl).mono hsub

/-- Two variables of one set are united already. -/
lemma united (h : Reflects seed vs ops cs) (hv : cs.of? v = some i) (hw : cs.of? w = some i) :
    Reflects seed vs (.unite v w :: ops) cs :=
  h.step h.indexed h.known (fun hx => ⟨_, hx, below_refl _⟩) (fun hx hy => hx.trans hy.symm)
    ⟨i, hv, hw⟩ (fun hx hy => (h.joined hx hy).mono (subset_cons_self _ _))
    fun hx => (h.attained hx).mono (subset_cons_self _ _)

/-- A constraint is met, or nothing reflects it together with those before it. -/
lemma perform (h : Reflects seed vs ops cs) (op : Op) :
    (∃ ct, cs.perform? op = some ct ∧ Reflects seed vs (op :: ops) ct) ∨
      cs.perform? op = none ∧ ∀ ops' ct, op :: ops ⊆ ops' → ¬ Reflects seed vs ops' ct := by
  have noSet {v : VarId} (hnone : cs.of? v = none) : v ∉ vs := fun hv => by
    obtain ⟨i, hi, -⟩ := h.seeded v hv
    cases hnone.symm.trans hi
  cases op with
  | constrain v tv =>
    cases hv : cs.of? v with
    | none =>
      refine .inr ⟨by simp [perform?, hv], fun ops' ct hsub hr => ?_⟩
      obtain ⟨i, hi, -⟩ := hr.met _ (hsub mem_cons_self)
      exact noSet hv (hr.known hi)
    | some i =>
    cases hct : cs.constrain? i tv with
    | some r => exact .inl ⟨r.1, by simp [perform?, hv, hct], h.constrain hv hct⟩
    | none =>
      refine .inr ⟨by simp [perform?, hv, hct], fun ops' ct hsub hr => ?_⟩
      rw [cons_subset] at hsub
      exact hr.join_ne_none ((h.attained hv).mono hsub.2) ⟨v, .refl v, .inr hsub.1⟩
        (constrain?_eq_none.1 hct)
  | unite v w =>
    cases hv : cs.of? v with
    | none =>
      refine .inr ⟨by simp [perform?, hv], fun ops' ct hsub hr => ?_⟩
      obtain ⟨i, hi, -⟩ := hr.met _ (hsub mem_cons_self)
      exact noSet hv (hr.known hi)
    | some i =>
    cases hw : cs.of? w with
    | none =>
      refine .inr ⟨by simp [perform?, hv, hw], fun ops' ct hsub hr => ?_⟩
      obtain ⟨i, -, hi⟩ := hr.met _ (hsub mem_cons_self)
      exact noSet hw (hr.known hi)
    | some k =>
    by_cases hik : i = k
    · subst hik
      exact .inl ⟨cs, by simp [perform?, hv, hw, unite?], h.united hv hw⟩
    cases hj : (cs.typeOf i).join (cs.typeOf k) with
    | some j =>
      left
      simp only [perform?, hv, hw, unite?, hik, hj, if_false, Option.bind_eq_bind,
        Option.bind_some]
      split
      · exact ⟨_, rfl, h.absorb hw hv (Ne.symm hik) (TypeVar.join_comm hj) (.inr rfl)⟩
      · exact ⟨_, rfl, h.absorb hv hw hik hj (.inl rfl)⟩
    | none =>
      refine .inr ⟨by simp [perform?, hv, hw, unite?, hik, hj], fun ops' ct hsub hr => ?_⟩
      rw [cons_subset] at hsub
      exact hr.join_ne_none ((h.attained hv).mono hsub.2)
        (((h.attained hw).mono hsub.2).joined (.rel v w hsub.1)) hj

lemma performAll (os : List Op) (h : Reflects seed vs ops cs) :
    (∃ ct, cs.performAll? os = some ct ∧ Reflects seed vs (os.reverse ++ ops) ct) ∨
      cs.performAll? os = none ∧ ∀ ct, ¬ Reflects seed vs (os.reverse ++ ops) ct := by
  induction os generalizing cs ops with
  | nil => exact .inl ⟨cs, rfl, h⟩
  | cons op os ih =>
    rw [reverse_cons, append_assoc, singleton_append, performAll?,
      foldlM_cons]
    rcases h.perform op with ⟨ct, hct, hr⟩ | ⟨hnone, hr⟩
    · rw [hct]
      exact ih hr
    · rw [hnone]
      exact .inr ⟨rfl, fun ct => hr _ ct (subset_append_right _ _)⟩

lemma perm (h : Reflects seed vs ops cs) (hp : ops.Perm ops') : Reflects seed vs ops' cs where
  indexed := h.indexed
  known := h.known
  seeded := h.seeded
  met op hop := h.met op (hp.mem_iff.2 hop)
  joined hv hw := (h.joined hv hw).mono hp.subset
  attained hv := (h.attained hv).mono hp.subset

lemma add (h : Reflects seed vs [] cs) (v : VarId) :
    Reflects seed (v :: vs) [] (cs.add v (seed v)).1 := by
  have hsub {w : VarId} (hw : w ∈ vs) : w ∈ v :: vs := mem_cons_of_mem v hw
  have asked {w : VarId} {i : SetId} (hw : cs.of? w = some i) :
      Asked seed (v :: vs) [] w (cs.typeOf i) := by
    obtain ⟨x, hx, hc⟩ := h.attained hw
    exact ⟨x, hx, hc.imp_left fun hc => ⟨hsub hc.1, hc.2⟩⟩
  cases hv : cs.of? v with
  | some i =>
    rw [add_of_some hv]
    refine ⟨h.indexed, fun hw => hsub (h.known hw), fun w hw => ?_, h.met, h.joined, asked⟩
    rcases mem_cons.1 hw with rfl | hw
    · exact h.seeded w (h.known hv)
    · exact h.seeded w hw
  | none =>
    have hof {w : VarId} {i : SetId} : (cs.add v (seed v)).1.of? w = some i ↔
        cs.of? w = some i ∨ i = cs.sets.size ∧ w = v := by
      rw [of?_eq_some_iff (indexed_add h.indexed), holds_add hv, of?_eq_some_iff h.indexed]
    have hty {w : VarId} {i : SetId} (hw : cs.of? w = some i) :
        (cs.add v (seed v)).1.typeOf i = cs.typeOf i :=
      typeOf_add_of_lt (holds_of_of? h.indexed hw).lt
    refine ⟨indexed_add h.indexed, fun hw => ?_, fun w hw => ?_, nofun, fun hx hy => ?_,
      fun hw => ?_⟩
    · rcases hof.1 hw with hw | ⟨-, rfl⟩
      · exact hsub (h.known hw)
      · exact mem_cons_self
    · rcases mem_cons.1 hw with rfl | hw
      · exact ⟨_, hof.2 (.inr ⟨rfl, rfl⟩), typeOf_add_size hv ▸ below_refl _⟩
      · obtain ⟨i, hi, hbelow⟩ := h.seeded w hw
        exact ⟨i, hof.2 (.inl hi), by rwa [hty hi]⟩
    · rcases hof.1 hx with hx' | ⟨rfl, rfl⟩ <;> rcases hof.1 hy with hy' | ⟨hk, rfl⟩
      · exact h.joined hx' hy'
      · exact absurd (holds_of_of? h.indexed hx').lt (hk ▸ Nat.lt_irrefl _)
      · exact absurd (holds_of_of? h.indexed hy').lt (Nat.lt_irrefl _)
      · exact .refl _
    · rcases hof.1 hw with hw | ⟨rfl, rfl⟩
      · rw [hty hw]
        exact asked hw
      · rw [typeOf_add_size hv]
        exact ⟨_, .refl _, .inl ⟨mem_cons_self, rfl⟩⟩

end Reflects

lemma reflects_ofSeeds (seed : VarId → TypeVar) (vs : List VarId) :
    Reflects seed vs [] (ofSeeds seed vs) := by
  induction vs with
  | nil =>
    exact ⟨indexed_init, nofun, nofun, nofun, nofun, nofun⟩
  | cons v vs ih => exact ih.add v

/-- The constraints on variables are all met in one order if and only if they are in any other.
Both orders then give the same sets, those of the variables that the constraints join, and each
set the same type, the one that admits what all seeds and constraints of its variables admit. -/
theorem performAll_perm (seed : VarId → TypeVar) (vs : List VarId) {ops ops' : List Op}
    (h : ops.Perm ops') :
    match (ofSeeds seed vs).performAll? ops, (ofSeeds seed vs).performAll? ops' with
    | some cs, some ct => ∀ v ∈ vs,
        (∀ w ∈ vs, (cs.of? v = cs.of? w ↔ Joined ops v w) ∧ (ct.of? v = ct.of? w ↔ Joined ops v w)) ∧
        ∃ tv, cs.typeOfVar? v = some tv ∧ ct.typeOfVar? v = some tv ∧
          ∀ m, m ∈ tv.members ↔ ∀ c, Asked seed vs ops v c → m ∈ c.members
    | none, none => True
    | _, _ => False := by
  have hrun := (reflects_ofSeeds seed vs).performAll ops
  have hrun' := (reflects_ofSeeds seed vs).performAll ops'
  rw [append_nil] at hrun hrun'
  have hperm : ops'.reverse.Perm ops.reverse :=
    (ops'.reverse_perm.trans h.symm).trans ops.reverse_perm.symm
  rcases hrun with ⟨cs, hcs, hr⟩ | ⟨hcs, hr⟩ <;> rcases hrun' with ⟨ct, hct, hr'⟩ | ⟨hct, hr'⟩ <;>
    rw [hcs, hct]
  · have hr := hr.perm ops.reverse_perm
    have hr' := hr'.perm (ops'.reverse_perm.trans h.symm)
    intro v hv
    obtain ⟨i, hi, -⟩ := hr.seeded v hv
    obtain ⟨k, hk, -⟩ := hr'.seeded v hv
    refine ⟨fun w _ => ⟨⟨fun heq => hr.joined hi (heq ▸ hi), hr.of?_eq⟩,
      fun heq => hr'.joined hk (heq ▸ hk), hr'.of?_eq⟩, ?_⟩
    have heq : cs.typeOf i = ct.typeOf k := TypeVar.eq_of_mem_iff fun m => by
      rw [hr.mem_members_iff hi, hr'.mem_members_iff hk]
    refine ⟨cs.typeOf i, by rw [typeOfVar?, hi]; rfl, ?_, hr.mem_members_iff hi⟩
    rw [typeOfVar?, hk, heq]
    rfl
  · exact hr' cs (hr.perm hperm.symm)
  · exact hr ct (hr'.perm hperm)
  · trivial

/-- A number becomes a vector through the variable that it shares its type with. -/
theorem performAll_perm_chain :
    let start := ofSeeds (fun v => if v = 1 then .linear else .unknown) [1, 2]
    (start.performAll? [.unite 1 2, .constrain 2 .vec34]).isSome ∧
      ∃ ct, start.performAll? [.constrain 2 .vec34, .unite 1 2] = some ct ∧
        ct.of? 1 = ct.of? 2 := by
  intro start
  have hrun : (start.performAll? [.unite 1 2, .constrain 2 .vec34]).isSome := by decide +kernel
  have h := performAll_perm (fun v => if v = 1 then .linear else .unknown) [1, 2]
    (.swap (.constrain 2 .vec34) (.unite 1 2) [])
  refine ⟨hrun, ?_⟩
  split at h
  next cs ct hcs hct =>
    exact ⟨ct, hct, ((h 1 (by decide)).1 2 (by decide)).2.2 (.rel 1 2 (by simp))⟩
  next hcs hct => simp [start, hcs] at hrun
  next => exact h.elim

end VecLang.ConstraintSets
