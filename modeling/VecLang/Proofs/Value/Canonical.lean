import Mathlib.Tactic.Lemma
import VecLang.Value.Eval

/-!
# Types of values

Evaluation follows the typing rules: the value of an operation has the type that the operator
gives to its operands' types. Every value that evaluation makes is canonical: it has a type, and
a truth value is zero or one.
-/

namespace VecLang

open BinaryOp

structure Value.Canonical (v : Value) : Prop where
  ty_ne : v.ty ≠ .invalid
  word : v.ty = .bool → v.word = 0 ∨ v.word = 1

variable {v : Value}

namespace Value

lemma canonical_int (n : Int64) : (int n).Canonical := ⟨nofun, nofun⟩

lemma canonical_bool (b : Bool) : (bool b).Canonical where
  ty_ne := nofun
  word _ := by cases b <;> simp [bool]

lemma canonical_of_lanes (h : 0 < v.ty.lanes) : v.Canonical where
  ty_ne hty := by
    rw [hty] at h
    exact absurd h (by decide)
  word hty := by
    rw [hty] at h
    exact absurd h (by decide)

@[simp] lemma isTrue_bool (b : Bool) : (bool b).isTrue = b := by cases b <;> simp [bool, isTrue]

end Value

variable {op : BinaryOp} {l r t : Ty}

lemma BinaryOp.result?_ne_invalid (hl : l ≠ .invalid)
    (h : op.result? l r = some t) : t ≠ .invalid := by
  rintro rfl
  revert h
  cases op <;> cases l <;> cases r <;> first | exact absurd rfl hl | decide

lemma UnaryOp.result?_eq {op : UnaryOp} {u : Ty} (h : op.result? t = some u) : u = t := by
  revert h
  cases op <;> cases t <;> cases u <;> decide

/-- Only scaling and operations on one type have a result; logic and comparison give truth
values, and arithmetic the type of its operands. -/
lemma BinaryOp.result?_plain (hs : op.isScaling l r = false) (h : op.result? l r = some t) :
    l = r ∧ ((op.isLogic = true ∧ l = .bool ∧ t = .bool) ∨ (op.isRel = true ∧ t = .bool) ∨
      (op.isArith = true ∧ t = l ∧ t ≠ .bool)) := by
  unfold result? at h
  rw [if_neg (by simp [hs])] at h
  by_cases hlr : l = r
  · subst hlr
    rw [if_neg (by simp)] at h
    -- no class that arithmetic accepts has truth values
    have arith {c : TypeVar} (hc : (TypeVar.exact .bool).within c = false)
        (h : (if (TypeVar.exact l).within c then some l else none) = some t) :
        t = l ∧ t ≠ .bool := by
      split at h
      case isTrue hl =>
        cases h
        refine ⟨rfl, ?_⟩
        rintro rfl
        rw [hc] at hl
        cases hl
      case isFalse => cases h
    have truth {p : Prop} [Decidable p] (h : (if p then some Ty.bool else none) = some t) :
        p ∧ t = .bool := by
      split at h
      case isTrue hp => exact ⟨hp, (Option.some.inj h).symm⟩
      case isFalse => cases h
    refine ⟨rfl, ?_⟩
    cases op with
    | invalid => cases h
    | add | sub | mul | div => exact .inr (.inr ⟨rfl, arith rfl h⟩)
    | lt | le | gt | ge | eq | ne => exact .inr (.inl ⟨rfl, (truth h).2⟩)
    | and | or => exact .inl ⟨rfl, truth h⟩
  · rw [if_pos hlr] at h
    cases h

lemma BinaryOp.result?_scaling (hs : op.isScaling l r = true) (h : op.result? l r = some t) :
    t = (if l.isVector then l else r) ∧ 0 < t.lanes ∧ (op = .mul ∨ op = .div) := by
  unfold result? at h
  rw [if_pos hs] at h
  obtain rfl := Option.some.inj h
  refine ⟨rfl, ?_⟩
  revert hs
  cases op <;> cases l <;> cases r <;> decide

namespace Value

lemma ty_complexArith (op : BinaryOp) (l r : Lanes) : (complexArith op l r).ty = .complex := by
  cases op <;> rfl

lemma ty_scale (op : BinaryOp) (l r : Value) :
    (scale op l r).ty = if l.ty.isVector then l.ty else r.ty := by
  unfold scale
  cases l.ty.isVector <;> rfl

lemma binary?_spec {l r : Value} (hl : l.ty ≠ .invalid)
    (h : binary? op l r = some v) : op.result? l.ty r.ty = some v.ty ∧ v.Canonical := by
  unfold binary? at h
  cases hres : op.result? l.ty r.ty with
  | none =>
    rw [hres] at h
    cases h
  | some t =>
    rw [hres] at h
    simp only at h
    have ht : t ≠ .invalid := result?_ne_invalid hl hres
    by_cases hs : op.isScaling l.ty r.ty = true
    · rw [if_pos hs] at h
      cases h
      obtain ⟨hty, hlanes, -⟩ := result?_scaling hs hres
      have hv : (scale op l r).ty = t := by rw [ty_scale, hty]
      exact ⟨by rw [hv], canonical_of_lanes (by rwa [hv])⟩
    -- logic and comparison give truth values
    rw [if_neg hs] at h
    obtain ⟨-, hkind⟩ := result?_plain (Bool.not_eq_true _ ▸ hs) hres
    have truth (hop : op.isLogic = true ∨ op.isRel = true) {b : Bool} (hv : bool b = v) :
        some t = some v.ty ∧ v.Canonical := by
      subst hv
      refine ⟨?_, canonical_bool b⟩
      rcases hkind with ⟨-, -, rfl⟩ | ⟨-, rfl⟩ | ⟨harith, -⟩
      · rfl
      · rfl
      · cases op <;> simp [isLogic, isRel, isOrdering, isArith] at hop harith
    by_cases hand : op = .and
    · rw [if_pos hand] at h
      exact truth (.inl (by rw [hand]; rfl)) (Option.some.inj h)
    rw [if_neg hand] at h
    by_cases hor : op = .or
    · rw [if_pos hor] at h
      exact truth (.inl (by rw [hor]; rfl)) (Option.some.inj h)
    rw [if_neg hor] at h
    by_cases hrel : op.isRel = true
    · rw [if_pos hrel] at h
      exact truth (.inr hrel) (Option.some.inj h)
    rw [if_neg hrel] at h
    -- what is left is arithmetic, whose result is no truth value
    have hb : t ≠ .bool := by
      rcases hkind with ⟨hlogic, -⟩ | ⟨hrel', -⟩ | ⟨-, -, hb⟩
      · cases op <;> simp [isLogic] at hlogic hand hor
      · exact absurd hrel' hrel
      · exact hb
    cases t with
    | invalid => exact absurd rfl ht
    | bool => exact absurd rfl hb
    | int =>
      obtain ⟨n, -, rfl⟩ := Option.map_eq_some_iff.1 h
      exact ⟨rfl, canonical_int n⟩
    | complex =>
      cases h
      exact ⟨by rw [ty_complexArith], canonical_of_lanes (by rw [ty_complexArith]; decide)⟩
    | real | vec2 | vec3 | vec4 =>
      cases h
      exact ⟨rfl, canonical_of_lanes (Nat.succ_pos _)⟩

lemma unary?_spec {op : UnaryOp} {w : Value} (hv : v.ty ≠ .invalid)
    (h : unary? op v = some w) : op.result? v.ty = some w.ty ∧ w.Canonical := by
  unfold unary? at h
  cases hres : op.result? v.ty with
  | none =>
    rw [hres] at h
    cases h
  | some t =>
    obtain rfl := UnaryOp.result?_eq hres
    rw [hres] at h
    simp only at h
    by_cases hnot : op = .not
    · rw [if_pos hnot] at h
      cases h
      subst hnot
      have hbool : v.ty = .bool := by
        revert hres
        cases v.ty <;> decide
      exact ⟨by rw [hbool]; rfl, canonical_bool _⟩
    rw [if_neg hnot] at h
    have hb : v.ty ≠ .bool := by
      intro hb
      rw [hb] at hres
      revert hres hnot
      cases op <;> decide
    by_cases hint : v.ty = .int
    · rw [if_pos hint] at h
      cases h
      exact ⟨by rw [hint]; rfl, canonical_int _⟩
    · rw [if_neg hint] at h
      cases h
      exact ⟨rfl, hv, fun hty => absurd hty hb⟩

lemma pack_spec {vs : List Value} (h : pack t vs = .ok v) : v.ty = t := by
  unfold pack at h
  split at h
  · cases h
  · cases h
    rfl

lemma swizzle_spec {w : Value} {lanes : List Nat} (h : v.swizzle lanes = .ok w) :
    Swizzle.result? lanes.length = some w.ty ∧ w.Canonical := by
  unfold swizzle at h
  cases hres : Swizzle.result? lanes.length with
  | none =>
    rw [hres] at h
    cases h
  | some t =>
    rw [hres] at h
    simp only at h
    have hlanes : 0 < t.lanes := by
      unfold Swizzle.result? at hres
      split at hres
      · cases hres
        decide
      · unfold Ty.vector? at hres
        split at hres <;> cases hres <;> decide
    split at h
    · cases h
    · cases h
      exact ⟨rfl, canonical_of_lanes hlanes⟩

end Value

end VecLang
