import Mathlib.Tactic.Lemma
import VecLang.Types.Operator
import VecLang.Typing.ConstraintSets

/-!
# What the operations on constraint sets preserve

The table of variables always tells the one set that holds a variable (`Indexed`). Under this
invariant every operation *narrows*: variables stay in sets, and the type of a variable's set only
loses members (`Refines`).
-/

namespace VecLang

/-- What is said of everything that a list names can be checked along the list. -/
abbrev decidableForall {α : Type} {p : α → Prop} [DecidablePred p] (all : List α)
    (h : ∀ x, x ∈ all) : Decidable (∀ x, p x) :=
  decidable_of_iff (∀ x ∈ all, p x) ⟨fun hall x => hall x (h x), fun hall x _ => hall x⟩

instance {p : Ty → Prop} [DecidablePred p] : Decidable (∀ t, p t) :=
  decidableForall Ty.all fun t => by cases t <;> decide

namespace TypeVar

instance {p : TypeVar → Prop} [DecidablePred p] : Decidable (∀ v, p v) :=
  decidableForall all fun v => by
    cases v with
    | exact t => cases t <;> decide
    | _ => decide

instance {p : Member → Prop} [DecidablePred p] : Decidable (∀ m, p m) :=
  decidableForall (Option.none :: Ty.all.map some) fun m => by
    cases m with
    | none => decide
    | some t => cases t <;> decide

def Refines (v w : TypeVar) : Prop := ∀ x ∈ v.members, x ∈ w.members

instance (v w : TypeVar) : Decidable (v.Refines w) :=
  inferInstanceAs (Decidable (∀ x ∈ v.members, x ∈ w.members))

lemma Refines.refl (v : TypeVar) : v.Refines v := fun _ h => h

variable {v w : TypeVar}

lemma Refines.trans {u : TypeVar} (huv : u.Refines v) (hvw : v.Refines w) :
    u.Refines w := fun x hx => hvw x (huv x hx)

lemma join_refines : ∀ {a b j : TypeVar}, a.join b = some j → j.Refines a ∧ j.Refines b := by
  decide +kernel

end TypeVar

end VecLang

namespace VecLang.ConstraintSets

open Option Array

def Holds (cs : ConstraintSets) (i : SetId) (v : VarId) : Prop :=
  ∃ s, cs.sets[i]? = some s ∧ v ∈ s.members

def Indexed (cs : ConstraintSets) : Prop := ∀ v i, cs.of? v = some i ↔ cs.Holds i v

variable {cs : ConstraintSets} {v : VarId} {i : SetId}

lemma of?_eq_some_iff (hd : cs.Indexed) : cs.of? v = some i ↔ cs.Holds i v := hd v i

lemma holds_of_of? (hd : cs.Indexed) (h : cs.of? v = some i) : cs.Holds i v := (hd v i).1 h

lemma Indexed.unique (hd : cs.Indexed) {j : SetId} (hi : cs.Holds i v) (hj : cs.Holds j v) :
    i = j := Option.some.inj (((hd v i).2 hi).symm.trans ((hd v j).2 hj))

lemma Holds.lt (h : cs.Holds i v) : i < cs.sets.size := by
  obtain ⟨s, hs, -⟩ := h
  exact (Array.getElem?_eq_some_iff.1 hs).1

/-- The sets `ct` come from `cs` by demands: a variable keeps having a set, whose type refines the
one it had. -/
def Narrows (cs ct : ConstraintSets) : Prop :=
  ∀ ⦃v i⦄, cs.of? v = some i → ∃ j, ct.of? v = some j ∧ (ct.typeOf j).Refines (cs.typeOf i)

lemma Narrows.refl (cs : ConstraintSets) : cs.Narrows cs := fun _ _ h => ⟨_, h, .refl _⟩

lemma Narrows.trans {ct cu : ConstraintSets} (h1 : cs.Narrows ct) (h2 : ct.Narrows cu) :
    cs.Narrows cu := by
  intro v i hv
  obtain ⟨j, hj, hr⟩ := h1 hv
  obtain ⟨k, hk, hr'⟩ := h2 hj
  exact ⟨k, hk, hr'.trans hr⟩

/-! ## A new variable -/

section Add

variable {cs : ConstraintSets} {v : VarId} {ty : TypeVar}

lemma add_of_some (h : cs.of? v = some i) : cs.add v ty = (cs, i) := by
  simp [add, h]

lemma add_of_none (h : cs.of? v = none) :
    cs.add v ty = (⟨cs.sets.push ⟨ty, [v], false⟩, cs.byVar.set v cs.sets.size⟩, cs.sets.size) := by
  simp [add, h]

lemma holds_add (h : cs.of? v = none) {w : VarId} :
    (cs.add v ty).1.Holds i w ↔ cs.Holds i w ∨ (i = cs.sets.size ∧ w = v) := by
  rw [add_of_none h]
  simp only [Holds, getElem?_push]
  by_cases hi : i = cs.sets.size
  · subst hi
    simp
  · simp [hi]

lemma of?_add (h : cs.of? v = none) (w : VarId) :
    (cs.add v ty).1.of? w = if v = w then some cs.sets.size else cs.of? w := by
  rw [add_of_none h]
  exact Assoc.get?_set ..

lemma indexed_add (hd : cs.Indexed) : (cs.add v ty).1.Indexed := by
  cases h : cs.of? v with
  | some i => rwa [add_of_some h]
  | none =>
    intro w i
    rw [of?_add h, holds_add h, ← hd]
    by_cases hw : v = w
    · subst hw
      simp [h, eq_comm]
    · simp [hw, Ne.symm hw]

lemma typeOf_add_of_lt (hi : i < cs.sets.size) : (cs.add v ty).1.typeOf i = cs.typeOf i := by
  cases h : cs.of? v with
  | some j => rw [add_of_some h]
  | none =>
    rw [add_of_none h]
    simp [typeOf, getElem?_push, Nat.ne_of_lt hi]

lemma typeOf_add_size (h : cs.of? v = none) : (cs.add v ty).1.typeOf cs.sets.size = ty := by
  rw [add_of_none h]
  simp [typeOf]

lemma of?_add_cases {w : VarId} (hw : (cs.add v ty).1.of? w = some i) :
    cs.of? w = some i ∨ (cs.of? v = none ∧ w = v ∧ i = cs.sets.size) := by
  cases h : cs.of? v with
  | some j =>
    rw [add_of_some h] at hw
    exact .inl hw
  | none =>
    rw [of?_add h] at hw
    split at hw
    case isTrue hvw =>
      cases hw
      exact .inr ⟨rfl, hvw.symm, rfl⟩
    case isFalse => exact .inl hw

lemma of?_add_of_some {w : VarId} (hw : cs.of? w = some i) : (cs.add v ty).1.of? w = some i := by
  cases h : cs.of? v with
  | some j => rwa [add_of_some h]
  | none =>
    rw [of?_add h, if_neg, hw]
    rintro rfl
    cases h.symm.trans hw

lemma narrows_add (hd : cs.Indexed) : cs.Narrows (cs.add v ty).1 := by
  intro w i hw
  refine ⟨i, of?_add_of_some hw, ?_⟩
  rw [typeOf_add_of_lt (holds_of_of? hd hw).lt]
  exact .refl _

lemma of?_add_self : ∃ i, (cs.add v ty).1.of? v = some i ∧ (cs.of? v = some i ∨
      (cs.of? v = none ∧ (cs.add v ty).1.typeOf i = ty)) := by
  cases h : cs.of? v with
  | some i => exact ⟨i, of?_add_of_some h, .inl rfl⟩
  | none =>
    refine ⟨cs.sets.size, ?_, .inr ⟨rfl, ?_⟩⟩
    · rw [of?_add h, if_pos rfl]
    · exact typeOf_add_size h

end Add

/-! ## A narrower type -/

section Constrain

variable {cs ct : ConstraintSets} {id : SetId} {tv j : TypeVar}

lemma constrain?_eq_none : cs.constrain? id tv = none ↔ (cs.typeOf id).join tv = none := by
  simp only [constrain?]
  split
  case h_1 hj => simp [hj]
  case h_2 j hj => simp [hj]

lemma holds_constrain (h : cs.constrain? id tv = some (ct, j)) : ct.Holds i v ↔ cs.Holds i v := by
  simp only [constrain?] at h
  split at h
  · cases h
  · cases h
    simp only [Holds, getElem?_modify]
    split
    · simp only [map_eq_some_iff]
      constructor
      · rintro ⟨_, ⟨s, hs, rfl⟩, hv⟩
        exact ⟨s, hs, hv⟩
      · rintro ⟨s, hs, hv⟩
        exact ⟨_, ⟨s, hs, rfl⟩, hv⟩
    · rfl

lemma of?_constrain (h : cs.constrain? id tv = some (ct, j)) : ct.of? v = cs.of? v := by
  simp only [constrain?] at h
  split at h <;> cases h
  rfl

lemma indexed_constrain (hd : cs.Indexed) (h : cs.constrain? id tv = some (ct, j)) :
    ct.Indexed := fun v i => by
  rw [of?_constrain h, holds_constrain h, hd]

lemma typeOf_constrain (h : cs.constrain? id tv = some (ct, j)) (hi : i < cs.sets.size) :
    (cs.typeOf id).join tv = some j ∧ ct.typeOf i = if id = i then j else cs.typeOf i := by
  simp only [constrain?] at h
  split at h
  · cases h
  case h_2 j' hj =>
    cases h
    refine ⟨hj, ?_⟩
    simp only [typeOf, getElem?_modify]
    split
    · simp [hi]
    · rfl

lemma narrows_constrain (hd : cs.Indexed) (h : cs.constrain? id tv = some (ct, j)) :
    cs.Narrows ct := by
  intro v i hv
  obtain ⟨hjoin, hty⟩ := typeOf_constrain h (holds_of_of? hd hv).lt
  refine ⟨i, (of?_constrain h).trans hv, ?_⟩
  rw [hty]
  split
  case isTrue hid =>
    subst hid
    exact (TypeVar.join_refines hjoin).1
  · exact .refl _

end Constrain

/-! ## Two sets made one -/

section Unite

variable {cs : ConstraintSets} {into source : SetId} {ty : TypeVar}

lemma holds_absorb (hne : into ≠ source) (hinto : into < cs.sets.size) :
    (cs.absorb into source ty).Holds i v ↔
      i ≠ source ∧ (cs.Holds i v ∨ (i = into ∧ cs.Holds source v)) := by
  simp only [absorb, Holds, getElem?_modify]
  by_cases hs : source = i
  · subst hs
    simp only [↓reduceIte, map_eq_some_iff, ne_eq, not_true_eq_false, false_and, iff_false]
    rintro ⟨_, ⟨_, _, rfl⟩, hv⟩
    cases hv
  · rw [if_neg hs]
    by_cases hi : into = i
    · subst hi
      rw [if_pos rfl, getElem?_eq_getElem hinto]
      simp only [map_some, Option.some.injEq, exists_eq_left', List.mem_append, ne_eq,
        hne, not_false_eq_true, true_and]
      cases cs.sets[source]? with
      | none => simp
      | some t => simp
    · rw [if_neg hi]
      simp [Ne.symm hs, Ne.symm hi]

lemma get?_foldl_set_into (moved : List VarId) (m : Assoc VarId SetId) :
    (moved.foldl (fun m v => m.set v into) m).get? v =
      if v ∈ moved then some into else m.get? v := by
  induction moved generalizing m with
  | nil => simp
  | cons w moved ih =>
    rw [List.foldl_cons, ih, Assoc.get?_set]
    by_cases hw : w = v
    · simp [hw]
    · simp [hw, Ne.symm hw]

lemma of?_absorb_of_holds (h : cs.Holds source v) :
    (cs.absorb into source ty).of? v = some into := by
  obtain ⟨s, hs, hv⟩ := h
  simp [absorb, of?, get?_foldl_set_into, hs, hv]

lemma of?_absorb_of_not (h : ¬ cs.Holds source v) :
    (cs.absorb into source ty).of? v = cs.of? v := by
  simp only [absorb, of?, get?_foldl_set_into]
  refine if_neg fun hv => h ?_
  cases hs : cs.sets[source]? with
  | none => simp [hs] at hv
  | some s => exact ⟨s, hs, by simpa [hs] using hv⟩

lemma of?_absorb (hd : cs.Indexed) (hv : cs.of? v = some i) :
    (cs.absorb into source ty).of? v = some (if i = source then into else i) := by
  split
  case isTrue h => exact of?_absorb_of_holds (h ▸ holds_of_of? hd hv)
  case isFalse h =>
    rw [of?_absorb_of_not fun hs => h (hd.unique (holds_of_of? hd hv) hs), hv]

lemma indexed_absorb (hd : cs.Indexed) (hne : into ≠ source) (hinto : into < cs.sets.size) :
    (cs.absorb into source ty).Indexed := by
  intro v i
  rw [holds_absorb hne hinto]
  by_cases hs : cs.Holds source v
  · rw [of?_absorb_of_holds hs, Option.some.injEq]
    constructor
    · rintro rfl
      exact ⟨hne, .inr ⟨rfl, hs⟩⟩
    · rintro ⟨hi, hh | ⟨rfl, -⟩⟩
      · exact absurd (hd.unique hh hs) hi
      · rfl
  · rw [of?_absorb_of_not hs, hd v i]
    constructor
    · intro hh
      exact ⟨fun h => hs (h ▸ hh), .inl hh⟩
    · rintro ⟨-, hh | ⟨-, hh⟩⟩
      · exact hh
      · exact absurd hh hs

lemma typeOf_absorb (hinto : into < cs.sets.size) (hi : i ≠ source) :
    (cs.absorb into source ty).typeOf i = if i = into then ty else cs.typeOf i := by
  simp only [absorb, typeOf, getElem?_modify]
  rw [if_neg (Ne.symm hi)]
  by_cases h : into = i
  · subst h
    simp [hinto]
  · simp [h, Ne.symm h]

lemma narrows_absorb (hd : cs.Indexed) (hne : into ≠ source) (hinto : into < cs.sets.size)
    (hi : ty.Refines (cs.typeOf into)) (hs : ty.Refines (cs.typeOf source)) :
    cs.Narrows (cs.absorb into source ty) := by
  intro v i hv
  refine ⟨_, of?_absorb hd hv, ?_⟩
  by_cases h : i = source
  · subst h
    rw [if_pos rfl, typeOf_absorb hinto hne, if_pos rfl]
    exact hs
  · rw [if_neg h, typeOf_absorb hinto h]
    split
    case isTrue h' =>
      subst h'
      exact hi
    · exact .refl _

variable {a b c : SetId} {ct : ConstraintSets} {j : TypeVar}

/-- The set `source` has no more variables than the set `into`. -/
def Smaller (cs : ConstraintSets) (source into : SetId) : Prop :=
  ∀ s t, cs.sets[source]? = some s → cs.sets[into]? = some t → s.members.length ≤ t.members.length

lemma unite_cases (h : cs.unite? a b = some (ct, c, j)) :
    (a = b ∧ ct = cs) ∨ (a ≠ b ∧ (cs.typeOf a).join (cs.typeOf b) = some j ∧
      ((ct = cs.absorb b a j ∧ cs.Smaller a b) ∨ (ct = cs.absorb a b j ∧ cs.Smaller b a))) := by
  unfold unite? at h
  split at h
  case isTrue hab =>
    cases h
    exact .inl ⟨hab, rfl⟩
  case isFalse hab =>
    split at h
    · cases h
    case h_2 j' hj =>
      simp only at h
      split at h
      case isTrue hlt =>
        cases h
        exact .inr ⟨hab, hj, .inl ⟨rfl, fun s t hs ht => by simp [hs, ht] at hlt; omega⟩⟩
      case isFalse hge =>
        cases h
        exact .inr ⟨hab, hj, .inr ⟨rfl, fun s t hs ht => by simp [hs, ht] at hge; omega⟩⟩

lemma unite_spec (hd : cs.Indexed) (ha : a < cs.sets.size) (hb : b < cs.sets.size)
    (h : cs.unite? a b = some (ct, c, j)) : ct.Indexed ∧ cs.Narrows ct := by
  obtain ⟨-, rfl⟩ | ⟨hab, hj, ⟨rfl, -⟩ | ⟨rfl, -⟩⟩ := unite_cases h
  · exact ⟨hd, .refl _⟩
  · obtain ⟨hja, hjb⟩ := TypeVar.join_refines hj
    exact ⟨indexed_absorb hd (Ne.symm hab) hb, narrows_absorb hd (Ne.symm hab) hb hjb hja⟩
  · obtain ⟨hja, hjb⟩ := TypeVar.join_refines hj
    exact ⟨indexed_absorb hd hab ha, narrows_absorb hd hab ha hja hjb⟩

lemma unite_old (hd : cs.Indexed) (h : cs.unite? a b = some (ct, c, j)) (hv : ct.of? v = some i) :
    ∃ k, cs.of? v = some k := by
  have old {into source : SetId} {ty : TypeVar}
      (hv : (cs.absorb into source ty).of? v = some i) : ∃ k, cs.of? v = some k := by
    by_cases hs : cs.Holds source v
    · exact ⟨_, (hd _ _).2 hs⟩
    · exact ⟨i, (of?_absorb_of_not hs).symm.trans hv⟩
  obtain ⟨-, rfl⟩ | ⟨-, -, ⟨rfl, -⟩ | ⟨rfl, -⟩⟩ := unite_cases h
  · exact ⟨i, hv⟩
  · exact old hv
  · exact old hv

end Unite

lemma not_holds_init : ¬ ({} : ConstraintSets).Holds i v := by
  rintro ⟨s, hs, hv⟩
  cases i with
  | zero =>
    cases hs
    cases hv
  | succ i => cases hs

lemma indexed_init : ({} : ConstraintSets).Indexed := fun _ _ =>
  ⟨nofun, fun h => absurd h not_holds_init⟩

end VecLang.ConstraintSets
