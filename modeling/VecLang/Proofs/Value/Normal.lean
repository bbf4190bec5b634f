import VecLang.Proofs.Value.Canonical

/-!
# Normal values

Values in the one form that evaluation gives them: of the word and the lanes only what counts for
the type is set. Operators take normal values to normal values, so a machine that starts with
them never meets others, and two of them are the same value when they look the same.
-/

namespace VecLang

open List Option

variable {ls : List Binary32}

namespace Lanes

def get (l : Lanes) (i : Nat) : Binary32 := l.toList.getD i .zero

variable {i : Nat}

lemma get_ofList (hi : i < 4) : (ofList ls).get i = ls.getD i .zero := by
  match i with
  | 0 | 1 | 2 | 3 => rfl

lemma get_of_four_le (l : Lanes) (hi : 4 ≤ i) : l.get i = .zero := by
  rw [get, getD_eq_getElem?_getD, getElem?_eq_none (by exact hi), getD_none]

lemma get_ofList_of_length_le (hi : ls.length ≤ i) : (ofList ls).get i = .zero := by
  by_cases h4 : i < 4
  · rw [get_ofList h4, getD_eq_getElem?_getD, getElem?_eq_none hi, getD_none]
  · exact get_of_four_le _ (Nat.not_lt.1 h4)

lemma get_mapFirst_of_le (l : Lanes) (f : Binary32 → Binary32) {n : Nat} (hi : n ≤ i) :
    (l.mapFirst n f).get i = l.get i := by
  by_cases h4 : i < 4
  · have hlen : ((l.toList.take n).map f).length ≤ i := by
      rw [length_map, length_take]
      omega
    have hn : ((l.toList.take n).map f).length = n := by
      rw [length_map, length_take]
      exact Nat.min_eq_left (Nat.le_trans hi (Nat.le_of_lt h4))
    unfold mapFirst
    rw [get_ofList h4, get, getD_eq_getElem?_getD, getD_eq_getElem?_getD,
      getElem?_append_right hlen, hn, getElem?_drop, Nat.add_sub_cancel' hi]
  · rw [get_of_four_le _ (Nat.not_lt.1 h4), get_of_four_le _ (Nat.not_lt.1 h4)]

end Lanes

/-- A value of which only what counts for its type is set: a truth value is zero or one, a value
made of lanes has no word, and lanes that the type does not have are zero. -/
structure Value.Normal (v : Value) : Prop where
  ty_ne : v.ty ≠ .invalid
  truth : v.ty = .bool → v.word = 0 ∨ v.word = 1
  word : v.ty.isFloat = true → v.word = 0
  lanes : ∀ i, v.ty.lanes ≤ i → v.lanes.get i = .zero

variable {v : Value}

lemma Value.Normal.canonical (h : v.Normal) : v.Canonical := ⟨h.ty_ne, h.truth⟩

namespace Value

lemma get_default_lanes (i : Nat) : ({} : Lanes).get i = .zero := by
  by_cases h4 : i < 4
  · match i with
    | 0 | 1 | 2 | 3 => rfl
  · exact Lanes.get_of_four_le _ (Nat.not_lt.1 h4)

lemma normal_int (n : Int64) : (int n).Normal where
  ty_ne := nofun
  truth := nofun
  word h := absurd h (by decide : ¬ (Ty.int.isFloat = true))
  lanes i _ := get_default_lanes i

lemma normal_bool (b : Bool) : (bool b).Normal where
  ty_ne := nofun
  truth _ := by cases b <;> simp [bool]
  word h := absurd h (by decide : ¬ (Ty.bool.isFloat = true))
  lanes i _ := get_default_lanes i

variable {t : Ty}

lemma normal_ofList (ht : t.isFloat = true)
    (hls : ls.length ≤ t.lanes) : ({ ty := t, lanes := .ofList ls } : Value).Normal where
  ty_ne h := absurd ht (by rw [show t = .invalid from h]; decide)
  truth h := absurd ht (by rw [show t = .bool from h]; decide)
  word _ := rfl
  lanes i hi := Lanes.get_ofList_of_length_le (Nat.le_trans hls hi)

lemma normal_real (x : Binary32) : (real x).Normal := by
  have h : [x].length ≤ Ty.real.lanes := Nat.le_refl 1
  exact normal_ofList rfl h

lemma normal_complex (x y : Binary32) : (complex x y).Normal := by
  have h : [x, y].length ≤ Ty.complex.lanes := Nat.le_refl 2
  exact normal_ofList rfl h

lemma normal_complexArith (op : BinaryOp) (l r : Lanes) : (complexArith op l r).Normal := by
  cases op <;> exact normal_complex _ _

lemma length_parts_le (v : Value) : v.parts.length ≤ v.ty.lanes := by
  unfold parts
  rw [length_take]
  exact Nat.min_le_left _ _

lemma isFloat_of_isVector (h : t.isVector = true) : t.isFloat = true := by
  cases t <;> first | rfl | exact absurd h (by decide)

lemma normal_scale (op : BinaryOp) {l r : Value} (h : op.isScaling l.ty r.ty = true) :
    (scale op l r).Normal := by
  have hvec : l.ty.isVector = true ∨ r.ty.isVector = true := by
    unfold BinaryOp.isScaling at h
    cases op <;> grind
  unfold scale
  by_cases hl : l.ty.isVector = true
  · simp only [hl, if_true]
    refine normal_ofList (isFloat_of_isVector hl) ?_
    rw [length_map]
    exact length_parts_le l
  · have hr : r.ty.isVector = true := hvec.resolve_left hl
    simp only [Bool.not_eq_true] at hl
    simp only [hl, Bool.false_eq_true, if_false]
    refine normal_ofList (isFloat_of_isVector hr) ?_
    rw [length_map]
    exact length_parts_le r

lemma normal_of_binary? {op : BinaryOp} {l r : Value} (hl : l.ty ≠ .invalid)
    (h : binary? op l r = some v) : v.Normal := by
  obtain ⟨hres, hcan⟩ := binary?_spec hl h
  unfold binary? at h
  rw [hres] at h
  simp only at h
  split at h
  case isTrue hs =>
    cases h
    exact normal_scale op hs
  case isFalse hs =>
    split at h
    · cases h
      exact normal_bool _
    split at h
    · cases h
      exact normal_bool _
    split at h
    · cases h
      exact normal_bool _
    split at h
    · -- integers
      obtain ⟨n, -, rfl⟩ := map_eq_some_iff.1 h
      exact normal_int n
    · cases h
      exact normal_complexArith _ _ _
    case h_3 hint hcomplex =>
      -- arithmetic on lanes, one by one
      have hfloat : v.ty.isFloat = true := by
        obtain ⟨-, hkind⟩ := BinaryOp.result?_plain (Bool.not_eq_true _ ▸ hs) hres
        have hne := hcan.ty_ne
        have hbool : v.ty ≠ .bool := by
          rcases hkind with ⟨hlogic, -⟩ | ⟨hrel, -⟩ | ⟨-, -, hb⟩
          · cases op <;> simp_all [BinaryOp.isLogic]
          · simp_all
          · exact hb
        cases hty : v.ty <;> simp_all [Ty.isFloat, Ty.lanes]
      have hv := Option.some.inj h
      rw [← hv]
      refine normal_ofList hfloat ?_
      rw [length_take]
      exact Nat.min_le_left _ _

lemma normal_of_unary? {op : UnaryOp} {w : Value} (hv : v.Normal) (h : unary? op v = some w) :
    w.Normal := by
  unfold unary? at h
  cases hres : op.result? v.ty with
  | none =>
    rw [hres] at h
    cases h
  | some t =>
    rw [hres] at h
    simp only at h
    split at h
    · cases h
      exact normal_bool _
    case isFalse hnot =>
      split at h
      · cases h
        exact normal_int _
      · -- negation changes the lanes that count and no others
        cases h
        refine ⟨hv.ty_ne, hv.truth, hv.word, fun i hi => ?_⟩
        exact (Lanes.get_mapFirst_of_le _ _ hi).trans (hv.lanes i hi)

lemma normal_of_pack {vs : List Value} (h : pack t vs = .ok v)
    (ht : t.isFloat = true) (hlen : vs.length ≤ t.lanes) : v.Normal := by
  unfold pack at h
  split at h
  · cases h
  · cases h
    refine normal_ofList ht ?_
    rwa [length_map]

lemma exists_pack {vs : List Value} (hlen : vs.length = t.lanes) : ∃ v, pack t vs = .ok v := by
  have hfour : t.lanes ≤ 4 := by cases t <;> decide
  unfold pack
  rw [if_neg (by omega)]
  exact ⟨_, rfl⟩

lemma length_of_mapM_eq_some {α β : Type} {f : α → Option β} {xs : List α} {ys : List β}
    (h : xs.mapM f = some ys) : ys.length = xs.length := by
  induction xs generalizing ys with
  | nil =>
    cases h
    rfl
  | cons x xs ih =>
    rw [mapM_cons] at h
    obtain ⟨y, -, h⟩ := bind_eq_some_iff.1 h
    obtain ⟨ys', hys', h⟩ := bind_eq_some_iff.1 h
    cases h
    rw [length_cons, length_cons, ih hys']

lemma swizzle_result?_lanes {n : Nat} (h : Swizzle.result? n = some t) :
    t.lanes = n ∧ t.isFloat = true := by
  unfold Swizzle.result? at h
  split at h
  case isTrue hone =>
    cases h
    rw [hone]
    decide
  case isFalse =>
    unfold Ty.vector? at h
    split at h <;> cases h <;> decide

lemma normal_of_swizzle {w : Value} {lanes : List Nat} (h : v.swizzle lanes = .ok w) :
    w.Normal := by
  unfold swizzle at h
  split at h
  · cases h
  case h_2 t ht =>
    obtain ⟨hlanes, hfloat⟩ := swizzle_result?_lanes ht
    split at h
    · cases h
    case h_2 ls hls =>
      cases h
      refine normal_ofList hfloat (Nat.le_of_eq ?_)
      rw [hlanes, length_of_mapM_eq_some hls]

lemma exists_swizzle (v : Value) {lanes : List Nat}
    (hres : Swizzle.result? lanes.length = some t) (hlanes : ∀ i ∈ lanes, i < 4) :
    ∃ w, v.swizzle lanes = .ok w := by
  have hpick : ∃ ls, (lanes.mapM fun i => v.lanes.toList[i]?) = some ls := by
    clear hres
    induction lanes with
    | nil => exact ⟨[], rfl⟩
    | cons i is ih =>
      obtain ⟨ls, hls⟩ := ih fun j hj => hlanes j (mem_cons_of_mem _ hj)
      have hi : i < v.lanes.toList.length := hlanes i mem_cons_self
      exact ⟨v.lanes.toList[i] :: ls, by simp [getElem?_eq_getElem hi, hls]⟩
  obtain ⟨ls, hls⟩ := hpick
  unfold swizzle
  simp only [hres, hls]
  exact ⟨_, rfl⟩

end Value

end VecLang
