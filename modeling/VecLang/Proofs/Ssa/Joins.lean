import Mathlib.Data.List.Nodup
import VecLang.Proofs.Assoc
import VecLang.Proofs.Ssa.Growth

/-!
# Where ways meet

What becomes of variables where control flow joins: behind a choice (`armMeets`) and behind a loop
(`exitMeets`). Either a phi with a value of its own takes the place of the values that meet, or one
of them is taken over. `meetAll` adds these phis and nothing else; here is which they are
(`joinPhis`) and what the variables are afterwards (`settled`).
-/

namespace VecLang.Ssa

open Stateful LowerState List Option Assoc

variable {c : LowerContext} {s t : LowerState}

def joinPhis (label : LabelId) : (n : Nat) → List (VarId × Meet) → List Phi
  | _, [] => []
  | n, (_, .phi branches) :: rest => ⟨n, label, branches⟩ :: joinPhis label (n + 1) rest
  | n, (_, _) :: rest => joinPhis label n rest

/-- The variables that get another value where ways meet; new values are numbered from `n` on. -/
def settled : (n : Nat) → List (VarId × Meet) → Assoc VarId ValueId
  | _, [] => []
  | n, (v, .phi _) :: rest => (v, n) :: settled (n + 1) rest
  | n, (v, .take id) :: rest => (v, id) :: settled n rest
  | n, (_, .keep) :: rest => settled n rest

def joinVars : List (VarId × Meet) → List VarId
  | [] => []
  | (v, .phi _) :: rest => v :: joinVars rest
  | (_, _) :: rest => joinVars rest

lemma length_joinPhis (label : LabelId) (n : Nat) (ms : List (VarId × Meet)) :
    (joinPhis label n ms).length = (joinVars ms).length := by
  induction ms generalizing n with
  | nil => rfl
  | cons x rest ih =>
    obtain ⟨v, _ | _ | _⟩ := x <;> simp [joinPhis, joinVars, ih]

lemma dsts_joinPhis (label : LabelId) (n : Nat) (ms : List (VarId × Meet)) :
    (joinPhis label n ms).map (·.dst) = List.range' n (joinPhis label n ms).length := by
  induction ms generalizing n with
  | nil => rfl
  | cons x rest ih =>
    obtain ⟨v, _ | _ | _⟩ := x
    · rw [joinPhis, map_cons, ih, length_cons, range'_succ]
    · exact ih n
    · exact ih n

variable {label : LabelId} {n : Nat} {ms : List (VarId × Meet)} {p : Phi}

lemma label_joinPhis (hp : p ∈ joinPhis label n ms) : p.label = label := by
  induction ms generalizing n with
  | nil => cases hp
  | cons x rest ih =>
    obtain ⟨v, _ | _ | _⟩ := x
    · rcases mem_cons.1 hp with rfl | hp
      · rfl
      · exact ih hp
    · exact ih hp
    · exact ih hp

lemma meetAll_eq (label : LabelId) (ms : List (VarId × Meet)) (s : LowerState) :
    s.meetAll c label ms = ((s.addValues ((joinVars ms).map c.module.varType)).addPhis
      (joinPhis label s.types.size ms)).inScope (s.meetAll c label ms).scope := by
  induction ms generalizing s with
  | nil => simp [meetAll, addValues, addPhis, joinVars, joinPhis, inScope]
  | cons x rest ih =>
    obtain ⟨v, _ | _ | _⟩ := x
    · rw [meetAll, ih]
      simp [meet, addValues, addPhis, inScope, bound, addValue, joinVars, joinPhis]
    · exact ih _
    · exact ih _

lemma keys_settled_subset (n : Nat) (ms : List (VarId × Meet)) :
    (settled n ms).keys ⊆ ms.map (·.1) := by
  induction ms generalizing n with
  | nil => exact nil_subset _
  | cons x rest ih =>
    obtain ⟨v, _ | _ | _⟩ := x
    · exact cons_subset_cons v (ih _)
    · exact cons_subset_cons v (ih _)
    · exact subset_cons_of_subset v (ih _)

lemma lookup_meetAll (label : LabelId) (hnd : (ms.map (·.1)).Nodup) (s : LowerState) (v : VarId) :
    (s.meetAll c label ms).lookup v = ((settled s.types.size ms).get? v).or (s.lookup v) := by
  induction ms generalizing s with
  | nil => rfl
  | cons x rest ih =>
    obtain ⟨w, m⟩ := x
    obtain ⟨hw, hnd⟩ := nodup_cons.1 hnd
    rw [meetAll, ih hnd]
    by_cases hwv : w = v
    · subst hwv
      have hrest (n : Nat) : (settled n rest).get? w = none :=
        get?_eq_none_iff.2 fun h => hw (keys_settled_subset n rest h)
      rw [hrest, none_or]
      cases m with
      | phi branches => simp [settled, get?, meet, lookup_bound]
      | take id => simp [settled, get?, meet, lookup_bound]
      | keep => simp [settled, hrest, meet]
    · rw [lookup_meet_of_ne label hwv]
      cases m with
      | phi branches => simp [settled, get?, hwv, meet, bound, inScope, addPhis]
      | take id => simp [settled, get?, hwv, meet, bound, inScope]
      | keep => rfl

inductive Settles (label : LabelId) (n : Nat) (ms : List (VarId × Meet)) (v : VarId) : Meet → Prop
  | phi {dst : ValueId} {branches : List ValueId} (hget : (settled n ms).get? v = some dst)
      (hphi : ⟨dst, label, branches⟩ ∈ joinPhis label n ms) : Settles label n ms v (.phi branches)
  | take {id : ValueId} (hget : (settled n ms).get? v = some id) : Settles label n ms v (.take id)
  | keep (hget : (settled n ms).get? v = none) : Settles label n ms v .keep

lemma settles_of_mem (label : LabelId) (n : Nat)
    (hnd : (ms.map (·.1)).Nodup) {v : VarId} {m : Meet} (hm : (v, m) ∈ ms) :
    Settles label n ms v m := by
  induction ms generalizing n with
  | nil => cases hm
  | cons x rest ih =>
    obtain ⟨w, d⟩ := x
    obtain ⟨hx, hnd⟩ := nodup_cons.1 hnd
    rcases mem_cons.1 hm with heq | hm
    · cases heq
      cases m with
      | phi branches =>
        exact .phi (by simp [settled, get?]; rfl) (by simp [joinPhis])
      | take id => exact .take (by simp [settled, get?])
      | keep => exact .keep (get?_eq_none_iff.2 fun h => hx (keys_settled_subset n rest h))
    · have hwv : w ≠ v := by
        rintro rfl
        exact hx (List.mem_map.2 ⟨_, hm, rfl⟩)
      -- the entry before changes neither how `v` is settled nor which phis come after it
      have step : ∀ k, (settled n ((w, d) :: rest)).get? v = (settled k rest).get? v →
          joinPhis label k rest ⊆ joinPhis label n ((w, d) :: rest) →
          Settles label n ((w, d) :: rest) v m := by
        intro k hget hsub
        cases ih k hnd hm with
        | phi hget' hphi => exact .phi (hget.trans hget') (hsub hphi)
        | take hget' => exact .take (hget.trans hget')
        | keep hget' => exact .keep (hget.trans hget')
      cases d with
      | phi branches => exact step (n + 1) (by simp [settled, get?, hwv]) (by simp [joinPhis])
      | take id => exact step n (by simp [settled, get?, hwv]) (by simp [joinPhis])
      | keep => exact step n rfl (by simp [joinPhis])

lemma settled_cases {v : VarId} {id : ValueId} (h : (settled n ms).get? v = some id) :
    (∃ k, id = n + k ∧ (joinVars ms)[k]? = some v) ∨ (v, .take id) ∈ ms := by
  induction ms generalizing n with
  | nil => cases h
  | cons x rest ih =>
    obtain ⟨w, d⟩ := x
    cases d with
    | phi branches =>
      rw [settled, get?] at h
      split at h
      case isTrue hwv =>
        cases h
        exact .inl ⟨0, rfl, congrArg some hwv⟩
      case isFalse =>
        rcases ih h with ⟨k, rfl, hk⟩ | hmem
        · exact .inl ⟨k + 1, Nat.add_right_comm _ _ _, hk⟩
        · exact .inr (mem_cons_of_mem _ hmem)
    | take id' =>
      rw [settled, get?] at h
      split at h
      case isTrue hwv =>
        cases h
        exact .inr (hwv ▸ mem_cons_self)
      case isFalse => exact (ih h).imp_right (mem_cons_of_mem _)
    | keep => exact (ih h).imp_right (mem_cons_of_mem _)

lemma exists_of_mem_joinPhis (hnd : (ms.map (·.1)).Nodup) (hp : p ∈ joinPhis label n ms) :
    ∃ v, (v, .phi p.branches) ∈ ms ∧ (settled n ms).get? v = some p.dst := by
  induction ms generalizing n with
  | nil => cases hp
  | cons x rest ih =>
    obtain ⟨w, d⟩ := x
    obtain ⟨hx, hnd⟩ := nodup_cons.1 hnd
    have later : ∀ k, p ∈ joinPhis label k rest → (∀ v ≠ w,
        (settled n ((w, d) :: rest)).get? v = (settled k rest).get? v) →
        ∃ v, (v, .phi p.branches) ∈ (w, d) :: rest ∧
          (settled n ((w, d) :: rest)).get? v = some p.dst := by
      intro k hp hsame
      obtain ⟨v, hv, hget⟩ := ih hnd hp
      have hvw : v ≠ w := by
        rintro rfl
        exact hx (List.mem_map.2 ⟨_, hv, rfl⟩)
      exact ⟨v, mem_cons_of_mem _ hv, (hsame v hvw).trans hget⟩
    cases d with
    | phi branches =>
      rcases mem_cons.1 hp with rfl | hp
      · exact ⟨w, mem_cons_self, by simp [settled, get?]⟩
      · exact later (n + 1) hp fun v hv => by simp [settled, get?, hv.symm]
    | take id => exact later n hp fun v hv => by simp [settled, get?, hv.symm]
    | keep => exact later n hp fun v _ => rfl

/-- Ways arrive with the values `ways` of a variable, and from there on its value is `r`: that of a
phi whose branches these are, or the one with which all ways arrive. -/
def Joins (phis : List Phi) (ways : List (Option ValueId)) (r : Option ValueId) : Prop :=
  (∃ p ∈ phis, r = some p.dst ∧ ways = p.branches.map some) ∨ ∀ w ∈ ways, w = r

/-! ## Choices -/

/-- The values of a variable at the ends of two arms, as far as they are reached. -/
def armWays (aLive bLive : Bool) (a b : Option ValueId) : List (Option ValueId) :=
  (if aLive then [a] else []) ++ if bLive then [b] else []

section Arms

variable {a b : Bindings} {aLive bLive : Bool} {v : VarId}

lemma mem_touched : v ∈ touched a b ↔ v ∈ a.keys ∨ v ∈ b.keys := by
  simp only [touched, mem_append, mem_filter, isNone_iff_eq_none, get?_eq_none_iff]
  tauto

lemma nodup_touched (ha : a.keys.Nodup) (hb : b.keys.Nodup) : (touched a b).Nodup := by
  refine nodup_append.2 ⟨ha, hb.filter _, fun v hva w hvb heq => ?_⟩
  have hnone := (mem_filter.1 hvb).2
  rw [isNone_iff_eq_none, get?_eq_none_iff] at hnone
  exact hnone (heq ▸ hva)

lemma keys_armMeets (outer : VarId → Option ValueId) :
    (armMeets aLive bLive outer a b).map (·.1) = touched a b := by
  simp [armMeets, Function.comp_def]

lemma joins_armMeets (label : LabelId) (ha : a.keys.Nodup) (hb : b.keys.Nodup)
    (hv : (s.lookup v).isSome) :
    Joins (joinPhis label s.types.size (armMeets aLive bLive s.lookup a b))
      (armWays aLive bLive ((a.get? v).or (s.lookup v)) ((b.get? v).or (s.lookup v)))
      ((s.meetAll c label (armMeets aLive bLive s.lookup a b)).lookup v) := by
  have hnd : ((armMeets aLive bLive s.lookup a b).map (·.1)).Nodup := by
    rw [keys_armMeets]
    exact nodup_touched ha hb
  rw [lookup_meetAll label hnd]
  obtain ⟨id, hid⟩ := isSome_iff_exists.1 hv
  by_cases hmem : v ∈ touched a b
  · have hm : (v, armMeet aLive bLive (s.lookup v) (a.get? v) (b.get? v)) ∈
        armMeets aLive bLive s.lookup a b := List.mem_map_of_mem hmem
    have hset := settles_of_mem label s.types.size hnd hm
    rw [hid] at hset ⊢
    cases aLive with
    | false =>
      refine .inr fun w hw => ?_
      cases bLive with
      | false => simp [armWays] at hw
      | true =>
        obtain rfl : w = (b.get? v).or (some id) := by simpa [armWays] using hw
        cases hbv : b.get? v with
        | none =>
          rw [hbv] at hset
          cases hset with | keep hget => simp [hget]
        | some bv =>
          rw [hbv] at hset
          cases hset with | take hget => simp [hget]
    | true =>
      cases bLive with
      | false =>
        refine .inr fun w hw => ?_
        obtain rfl : w = (a.get? v).or (some id) := by simpa [armWays] using hw
        cases hav : a.get? v with
        | none =>
          rw [hav] at hset
          cases hset with | keep hget => simp [hget]
        | some av =>
          rw [hav] at hset
          cases hset with | take hget => simp [hget]
      | true =>
        -- both arms reach the end, so a phi tells them apart
        obtain ⟨av, hav⟩ : ∃ av, (a.get? v).or (some id) = some av := by
          cases a.get? v <;> simp
        obtain ⟨bv, hbv⟩ : ∃ bv, (b.get? v).or (some id) = some bv := by
          cases b.get? v <;> simp
        rw [hav, hbv]
        have harm : armMeet true true (some id) (a.get? v) (b.get? v) = .phi [av, bv] := by
          simp [armMeet, hav, hbv]
        rw [harm] at hset
        cases hset with
        | phi hget hphi => exact .inl ⟨_, hphi, by simp [hget], by simp [armWays]⟩
  · rw [mem_touched, not_or, ← get?_eq_none_iff, ← get?_eq_none_iff] at hmem
    have hget : (settled s.types.size (armMeets aLive bLive s.lookup a b)).get? v = none := by
      refine get?_eq_none_iff.2 fun h => ?_
      have h := keys_settled_subset _ _ h
      rw [keys_armMeets, mem_touched, ← isSome_get?_iff, ← isSome_get?_iff, hmem.1, hmem.2] at h
      simp at h
    refine .inr fun w hw => ?_
    rw [hget, none_or]
    rw [hmem.1, hmem.2, none_or] at hw
    cases aLive <;> cases bLive <;> simp_all [armWays]

lemma armMeet_eq_phi {outer x y : Option ValueId} {branches : List ValueId}
    (h : armMeet aLive bLive outer x y = .phi branches) :
    aLive = true ∧ bLive = true ∧ [x.or outer, y.or outer] = branches.map some := by
  cases aLive <;> cases bLive <;> cases x <;> cases y <;> cases outer <;> cases h <;> simp

lemma exists_of_mem_armPhis {outer : VarId → Option ValueId} (ha : a.keys.Nodup) (hb : b.keys.Nodup)
    (hp : p ∈ joinPhis label n (armMeets aLive bLive outer a b)) :
    ∃ v ∈ touched a b, (settled n (armMeets aLive bLive outer a b)).get? v = some p.dst ∧
      aLive = true ∧ bLive = true ∧
      [(a.get? v).or (outer v), (b.get? v).or (outer v)] = p.branches.map some := by
  have hnd : ((armMeets aLive bLive outer a b).map (·.1)).Nodup := by
    rw [keys_armMeets]
    exact nodup_touched ha hb
  obtain ⟨v, hm, hget⟩ := exists_of_mem_joinPhis hnd hp
  obtain ⟨w, hw, heq⟩ := List.mem_map.1 hm
  obtain ⟨rfl, harm⟩ := Prod.mk.inj heq
  exact ⟨w, hw, hget, armMeet_eq_phi harm⟩

end Arms

/-! ## Loops -/

section Loops

variable {body : List Typed.Stmt} {v : VarId}

lemma mem_carriedBy : v ∈ carriedBy s body ↔ v ∈ assignedAll body ∧ (s.lookup v).isSome := by
  simp only [carriedBy, carriedVars, LowerState.lookup, List.mem_map, mem_filterMap,
    mem_eraseDups, mem_mergeSort, map_eq_some_iff, isSome_iff_exists]
  constructor
  · rintro ⟨_, ⟨w, hw, id, hid, rfl⟩, rfl⟩
    exact ⟨hw, id, hid⟩
  · rintro ⟨hv, id, hid⟩
    exact ⟨(v, id), ⟨v, hv, id, hid, rfl⟩, rfl⟩

lemma nodup_eraseDups : (vs : List VarId) → vs.eraseDups.Nodup
  | [] => by simp
  | v :: vs => by
    rw [eraseDups_cons]
    refine nodup_cons.2 ⟨fun hmem => ?_, nodup_eraseDups _⟩
    rw [mem_eraseDups] at hmem
    simp at hmem
termination_by vs => vs.length
decreasing_by exact Nat.lt_succ_of_le (length_filter_le _ _)

lemma nodup_carriedBy (s : LowerState) (body : List Typed.Stmt) : (carriedBy s body).Nodup := by
  unfold carriedBy carriedVars
  rw [map_filterMap]
  refine List.Nodup.filterMap (fun v w x hv hw => ?_) (nodup_eraseDups _)
  simp only [Option.map_map, mem_def, map_eq_some_iff] at hv hw
  obtain ⟨_, -, rfl⟩ := hv
  obtain ⟨_, -, heq⟩ := hw
  exact heq.symm

lemma entries_eq (s : LowerState) (body : List Typed.Stmt) :
    ((carriedVars s.scope body).map (·.2)).map some = (carriedBy s body).map s.lookup := by
  unfold carriedBy
  rw [List.map_map, List.map_map]
  refine map_congr_left fun x hx => ?_
  obtain ⟨v, -, hv⟩ := mem_filterMap.1 hx
  obtain ⟨id, hid, rfl⟩ := map_eq_some_iff.1 hv
  exact hid.symm

lemma length_headsOf : (headsOf s body).length = (carriedBy s body).length := length_range'

lemma keys_zip_headsOf : Assoc.keys ((carriedBy s body).zip (headsOf s body)) = carriedBy s body :=
  map_fst_zip (Nat.le_of_eq length_headsOf.symm)

lemma lookup_loopHead {i : Nat} (hi : (carriedBy s body)[i]? = some v) :
    (loopHead c s body).lookup v = some (s.types.size + i) := by
  have hlt : i < (carriedBy s body).length := (List.getElem?_eq_some_iff.1 hi).1
  have hhead : (headsOf s body)[i]? = some (s.types.size + i) := by
    simp [headsOf, hlt]
  have hmem : (v, s.types.size + i) ∈ (carriedBy s body).zip (headsOf s body) :=
    mem_iff_getElem?.2 ⟨i, by rw [getElem?_zip_eq_some]; exact ⟨hi, hhead⟩⟩
  have hget := get?_eq_some_of_mem (by
    rw [keys_zip_headsOf]
    exact nodup_carriedBy s body) hmem
  change lookupIn _ v = _
  rw [loopHead, inScope, lookupIn_cons, hget, some_or]

lemma lookup_loopHead_of_notMem (hv : v ∉ carriedBy s body) :
    (loopHead c s body).lookup v = s.lookup v := by
  have hget : get? ((carriedBy s body).zip (headsOf s body)) v = none := by
    rw [get?_eq_none_iff, keys_zip_headsOf]
    exact hv
  change lookupIn _ v = _
  rw [loopHead, inScope, lookupIn_cons, hget, none_or]
  rfl

end Loops

lemma getElem?_headPhis (start : LabelId) (ways : List (List ValueId)) (n i : Nat)
    (vars : List (ValueId × ValueId)) : (headPhis start ways n vars)[i]? = vars[i]?.map fun x =>
      ⟨x.1, start, x.2 :: ways.map fun vals => vals.getD (n + i) 0⟩ := by
  induction vars generalizing n i with
  | nil => rfl
  | cons x vars ih =>
    obtain ⟨head, entry⟩ := x
    cases i with
    | zero => rfl
    | succ i =>
      rw [headPhis, getElem?_cons_succ, getElem?_cons_succ, ih]
      simp only [Nat.add_assoc, Nat.add_comm 1]

lemma getElem?_exitMeets (breaks : List (List ValueId)) (n i : Nat)
    (vars : List (VarId × ValueId)) :
    (exitMeets breaks n vars)[i]? = vars[i]?.map fun x => (x.1, if breaks.isEmpty then .take x.2
      else .phi ((breaks.map fun vals => vals.getD (n + i) 0) ++ [x.2])) := by
  induction vars generalizing n i with
  | nil => rfl
  | cons x vars ih =>
    obtain ⟨v, head⟩ := x
    cases i with
    | zero => rfl
    | succ i =>
      rw [exitMeets, getElem?_cons_succ, getElem?_cons_succ, ih]
      simp only [Nat.add_assoc, Nat.add_comm 1]

lemma keys_exitMeets (breaks : List (List ValueId)) (n : Nat) (vars : List (VarId × ValueId)) :
    (exitMeets breaks n vars).map (·.1) = vars.map (·.1) := by
  induction vars generalizing n with
  | nil => rfl
  | cons x vars ih =>
    obtain ⟨v, head⟩ := x
    rw [exitMeets, map_cons, map_cons, ih]

section Ways

variable {i : Nat} {v : VarId} {head : ValueId}

lemma map_getD_eq {ways : List (List ValueId)} (hlen : ∀ vals ∈ ways, i < vals.length) :
    (ways.map fun vals => vals.getD i 0).map some = ways.map (·[i]?) := by
  rw [List.map_map]
  refine map_congr_left fun vals hvals => ?_
  have hlt := hlen vals hvals
  simp [getD_eq_getElem?_getD, hlt]

lemma joins_headPhis (start : LabelId) {ways : List (List ValueId)} {entry : ValueId}
    {vars : List (ValueId × ValueId)} (hi : vars[i]? = some (head, entry))
    (hlen : ∀ vals ∈ ways, i < vals.length) :
    Joins (headPhis start ways 0 vars) (some entry :: ways.map (·[i]?)) (some head) := by
  refine .inl ⟨⟨head, start, entry :: ways.map fun vals => vals.getD i 0⟩, ?_, rfl, ?_⟩
  · refine mem_iff_getElem?.2 ⟨i, ?_⟩
    rw [getElem?_headPhis, hi, map_some, Nat.zero_add]
  · rw [map_cons, map_getD_eq hlen]

lemma joins_exitMeets (label : LabelId) {breaks : List (List ValueId)}
    {vars : List (VarId × ValueId)} (hnd : (vars.map (·.1)).Nodup)
    (hi : vars[i]? = some (v, head)) (hlen : ∀ vals ∈ breaks, i < vals.length) :
    Joins (joinPhis label s.types.size (exitMeets breaks 0 vars))
      (breaks.map (·[i]?) ++ [some head])
      ((s.meetAll c label (exitMeets breaks 0 vars)).lookup v) := by
  have hnd' : ((exitMeets breaks 0 vars).map (·.1)).Nodup := by rwa [keys_exitMeets]
  have hm := getElem?_exitMeets breaks 0 i vars
  rw [hi, map_some, Nat.zero_add] at hm
  have hset := settles_of_mem label s.types.size hnd' (mem_of_getElem? hm)
  rw [lookup_meetAll label hnd']
  cases breaks with
  | nil =>
    -- the only way out is the condition
    cases hset with
    | take hget => exact .inr (by simp [hget])
  | cons vals breaks =>
    cases hset with
    | phi hget hphi =>
      refine .inl ⟨_, hphi, by simp [hget], ?_⟩
      rw [map_append, map_getD_eq hlen]
      rfl

lemma exists_of_mem_exitPhis {breaks : List (List ValueId)}
    {vars : List (VarId × ValueId)} (hnd : (vars.map (·.1)).Nodup)
    (hp : p ∈ joinPhis label n (exitMeets breaks 0 vars)) :
    ∃ i v head, vars[i]? = some (v, head) ∧
      (settled n (exitMeets breaks 0 vars)).get? v = some p.dst ∧
      p.branches = (breaks.map fun vals => vals.getD i 0) ++ [head] := by
  obtain ⟨v, hm, hget⟩ := exists_of_mem_joinPhis (by rwa [keys_exitMeets]) hp
  obtain ⟨i, hi⟩ := mem_iff_getElem?.1 hm
  rw [getElem?_exitMeets, map_eq_some_iff] at hi
  obtain ⟨⟨w, head⟩, hvars, heq⟩ := hi
  obtain ⟨rfl, hmeet⟩ := Prod.mk.inj heq
  refine ⟨i, w, head, hvars, hget, ?_⟩
  split at hmeet
  · cases hmeet
  · rw [Nat.zero_add] at hmeet
    exact (Meet.phi.inj hmeet).symm

end Ways

end VecLang.Ssa
