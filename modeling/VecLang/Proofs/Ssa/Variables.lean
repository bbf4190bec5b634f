import VecLang.Proofs.Statements
import VecLang.Proofs.Ssa.Regions

/-!
# Variables in scope

Statements give values to the variables that they assign to and to those that they declare, and to
no others (`Keeps`). So whatever is in scope at a place has a value there, and all variables with a
value are numbered below the next variable (`Names`).
-/

namespace VecLang.Ssa

open Stateful LowerState List Stmt

variable {c : LowerContext} {s t u : LowerState} {lo hi : Nat} {vars : List VarId}

/-- From `s` to `t` at most the variables `vars` and those from `lo` on and below `hi` are given
values, and none loses its value. -/
structure Keeps (vars : List VarId) (lo hi : Nat) (s t : LowerState) : Prop where
  arm : ∀ v : Nat, v ∉ vars → ¬ (lo ≤ v ∧ v < hi) → t.arm.get? v = s.arm.get? v
  mono : ∀ v, (s.lookup v).isSome → (t.lookup v).isSome

lemma Keeps.refl (vars : List VarId) (lo hi : Nat) (s : LowerState) : Keeps vars lo hi s s :=
  ⟨fun _ _ _ => rfl, fun _ h => h⟩

lemma Keeps.trans (hst : Keeps vars lo hi s t) (htu : Keeps vars lo hi t u) :
    Keeps vars lo hi s u where
  arm v hv hr := (htu.arm v hv hr).trans (hst.arm v hv hr)
  mono v h := htu.mono v (hst.mono v h)

lemma Keeps.weaken {vars' : List VarId} {lo' hi' : Nat} (h : Keeps vars lo hi s t)
    (hvars : vars ⊆ vars') (hlo : lo' ≤ lo) (hhi : hi ≤ hi') : Keeps vars' lo' hi' s t where
  arm v hv hr := h.arm v (fun hm => hv (hvars hm)) fun hb =>
    hr ⟨Nat.le_trans hlo hb.1, Nat.lt_of_lt_of_le hb.2 hhi⟩
  mono := h.mono

lemma Keeps.of_scope (h : t.scope = s.scope) : Keeps vars lo hi s t where
  arm v _ _ := by rw [LowerState.arm, LowerState.arm, h]
  mono v hv := by rwa [LowerState.lookup, h]

lemma lookup_eq (hne : s.scope ≠ []) (v : VarId) :
    s.lookup v = (s.arm.get? v).or (lookupIn s.scope.tail v) := by
  unfold LowerState.lookup LowerState.arm
  cases hs : s.scope with
  | nil => exact absurd hs hne
  | cons b rest => exact lookupIn_cons b rest v

variable {v : Nat}

lemma Keeps.lookup (h : Keeps vars lo hi s t) (hs : s.scope ≠ []) (ht : t.scope ≠ [])
    (htail : t.scope.tail = s.scope.tail) (hv : v ∉ vars)
    (hr : ¬ (lo ≤ v ∧ v < hi)) : t.lookup v = s.lookup v := by
  rw [lookup_eq hs, lookup_eq ht, htail, h.arm v hv hr]

lemma get?_arm_bound (hne : s.scope ≠ []) (v w : VarId) (id : ValueId) :
    (s.bound v id).arm.get? w = if v = w then some id else s.arm.get? w := by
  unfold bound LowerState.inScope LowerState.arm
  cases hs : s.scope with
  | nil => exact absurd hs hne
  | cons b rest => exact Assoc.get?_set b v id w

lemma keeps_bound (hne : s.scope ≠ []) (id : ValueId)
    (hv : v ∈ vars ∨ (lo ≤ v ∧ v < hi)) : Keeps vars lo hi s (s.bound v id) where
  arm w hw hr := by
    rw [get?_arm_bound hne, if_neg]
    rintro rfl
    exact hv.elim hw hr
  mono w hw := by
    rw [lookup_bound]
    split
    · rfl
    · exact hw

lemma keeps_meetAll (hne : s.scope ≠ []) (label : LabelId) {ms : List (VarId × Meet)}
    (hms : ∀ v : Nat, v ∈ ms.map (·.1) → v ∈ vars ∨ (lo ≤ v ∧ v < hi)) :
    Keeps vars lo hi s (s.meetAll c label ms) := by
  induction ms generalizing s with
  | nil => exact .refl _ _ _ s
  | cons x rest ih =>
    obtain ⟨v, m⟩ := x
    have hv := hms v mem_cons_self
    have hrest : ∀ w : Nat, w ∈ rest.map (·.1) → w ∈ vars ∨ (lo ≤ w ∧ w < hi) :=
      fun w hw => hms w (mem_cons_of_mem _ hw)
    cases m with
    | phi branches =>
      let s' := (s.addValue (c.module.varType v)).addPhis [⟨s.types.size, label, branches⟩]
      have hsame : Keeps vars lo hi s s' := .of_scope rfl
      have hset : Keeps vars lo hi s' (s'.bound v s.types.size) :=
        keeps_bound (show s'.scope ≠ [] from hne) _ hv
      exact (hsame.trans hset).trans (ih (setIn_ne_nil _ _ _) hrest)
    | take id => exact (keeps_bound hne id hv).trans (ih (setIn_ne_nil _ _ _) hrest)
    | keep => exact ih hne hrest

/-! ## Statements -/

section Statements

variable {E : List VarId → Typed.Expr → Prop} {inLoop : Bool} {K V : List VarId}

lemma declares_of_scoped {st : Typed.Stmt} (h : st.Scoped E inLoop V lo)
    (hv : v ∈ st.declares) : lo ≤ v ∧ v < lo + st.numLets := by
  cases st with
  | letVar _ w e =>
    obtain rfl := mem_singleton.1 hv
    obtain ⟨-, rfl⟩ := h
    exact ⟨Nat.le_refl _, Nat.lt_succ_self _⟩
  | _ => cases hv

mutual

lemma assigned_of_scoped (st : Typed.Stmt) {inLoop : Bool} {V : List VarId} {lo : Nat}
    (h : st.Scoped E inLoop V lo) :
    ∀ v : Nat, v ∈ assigned st → v ∈ V ∨ (lo ≤ v ∧ v < lo + st.numLets) := by
  match st with
  | .letVar _ _ _ | .expr _ _ | .ret _ none | .ret _ (some _) | .breakLoop _ | .continueLoop _ =>
    intro v hv
    simp [assigned] at hv
  | .assign _ w _ =>
    intro v hv
    rw [assigned, mem_singleton] at hv
    exact .inl (hv ▸ h.2)
  | .ifElse _ _ t none => exact assignedAll_of_scoped t h.2
  | .ifElse _ _ t (some e) =>
    intro v hv
    rw [assigned, mem_append] at hv
    rw [numLets]
    rcases hv with hv | hv
    · have := assignedAll_of_scoped t h.2.1 v hv
      exact this.imp_right fun _ => by omega
    · have := assignedAll_of_scoped e h.2.2 v hv
      exact this.imp_right fun _ => by omega
  | .whileDo _ _ body => exact assignedAll_of_scoped body h.2

lemma assignedAll_of_scoped (sts : List Typed.Stmt) {inLoop : Bool} {V : List VarId}
    {lo : Nat} (h : AllScoped E inLoop V lo sts) :
    ∀ v : Nat, v ∈ assignedAll sts → v ∈ V ∨ (lo ≤ v ∧ v < lo + numLetsAll sts) := by
  match sts with
  | [] =>
    intro v hv
    simp [assignedAll] at hv
  | st :: sts =>
    intro v hv
    rw [assignedAll, mem_append] at hv
    rw [numLetsAll]
    rcases hv with hv | hv
    · have := assigned_of_scoped st h.1 v hv
      exact this.imp_right fun _ => by omega
    · rcases assignedAll_of_scoped sts h.2 v hv with hmem | hmem
      · rcases mem_append.1 hmem with hmem | hmem
        · have := declares_of_scoped h.1 hmem
          exact .inr (by omega)
        · exact .inl hmem
      · exact .inr (by omega)

end

lemma ChoiceRun.keeps {cond : Typed.Expr} {thenArm elseArm : Lower Unit}
    {r : ChoiceRun c cond thenArm elseArm s} (hr : r.Layout t) (h : Framed s)
    (hthen : Keeps vars lo hi r.thenStart r.afterThen)
    (helse : Keeps vars lo hi r.elseStart r.afterElse) : Keeps vars lo hi s t := by
  have hscope : r.joinStart.scope = s.scope := hr.cond.scope
  have hsame : Keeps vars lo hi s r.joinStart := .of_scope hscope
  have hkeys (v : Nat) (b : Bindings) (hb : v ∉ vars → ¬ (lo ≤ v ∧ v < hi) → b.get? v = none)
      (hv : v ∈ b.keys) : v ∈ vars ∨ (lo ≤ v ∧ v < hi) := by
    by_contra hnot
    rw [not_or] at hnot
    exact Assoc.get?_eq_none_iff.1 (hb hnot.1 hnot.2) hv
  rw [hr.join_eq]
  refine hsame.trans (keeps_meetAll (hscope ▸ h.scope) _ fun v hv => ?_)
  unfold ChoiceRun.meets at hv
  rw [keys_armMeets, mem_touched] at hv
  rcases hv with hv | hv
  · exact hkeys v _ (hthen.arm v) hv
  · exact hkeys v _ (helse.arm v) hv

lemma LoopRun.keeps {cond : Typed.Expr} {body : List Typed.Stmt} {run : Lower Unit}
    (r : LoopRun c cond body run s) (h : Framed s) (hbody : assignedAll body ⊆ vars) :
    Keeps vars lo hi s r.result := by
  have hsame : Keeps vars lo hi s r.closed := .of_scope rfl
  refine hsame.trans (keeps_meetAll (show r.closed.scope ≠ [] from h.scope) _ fun v hv => ?_)
  unfold LoopRun.meets at hv
  rw [keys_exitMeets] at hv
  change v ∈ Assoc.keys _ at hv
  rw [keys_zip_headsOf, mem_carriedBy] at hv
  exact .inl (hbody hv.1)

lemma keeps_bindVar (h : Framed s) {a : Atom} (hv : v ∈ vars ∨ (lo ≤ v ∧ v < hi))
    (hrun : bindVar c v a s = .ok ((), t)) : Keeps vars lo hi s t := by
  cases (bindVar_eq v a).symm.trans hrun
  let s' := (s.addValue (c.module.varType v)).append (.assign s.types.size a)
  have hsame : Keeps vars lo hi s s' := .of_scope rfl
  exact hsame.trans (keeps_bound (show s'.scope ≠ [] from h.scope) _ hv)

mutual

lemma keeps_lowerStmt (st : Typed.Stmt) {inLoop : Bool} {V : List VarId} {lo : Nat}
    (hs : st.Scoped E inLoop V lo) {s t : LowerState} (hlive : s.Live) (h : Framed s)
    (hrun : lowerStmt c st s = .ok ((), t)) : Keeps (assigned st) lo (lo + st.numLets) s t := by
  match st with
  | .letVar _ v e =>
    obtain ⟨a, s1, ha, hrun⟩ := bind_eq_ok.1 hrun
    have ha := emits_lowerExpr e hlive ha
    obtain ⟨-, rfl⟩ := hs
    exact (Keeps.of_scope ha.scope).trans (keeps_bindVar (region_of_emits h ha).framed
      (.inr ⟨Nat.le_refl _, Nat.lt_succ_self _⟩) hrun)
  | .assign _ v e =>
    obtain ⟨a, s1, ha, hrun⟩ := bind_eq_ok.1 hrun
    have ha := emits_lowerExpr e hlive ha
    exact (Keeps.of_scope ha.scope).trans (keeps_bindVar (region_of_emits h ha).framed
      (.inl (mem_singleton_self v)) hrun)
  | .expr _ e =>
    obtain ⟨a, s1, ha, hrun⟩ := bind_eq_ok.1 hrun
    cases pure_eq_ok.1 hrun
    exact .of_scope (emits_lowerExpr e hlive ha).scope
  | .ret _ none =>
    cases modify_eq_ok.1 hrun
    exact .of_scope rfl
  | .ret _ (some e) =>
    obtain ⟨a, s1, ha, hrun⟩ := bind_eq_ok.1 hrun
    cases modify_eq_ok.1 hrun
    exact .of_scope (emits_lowerExpr e hlive ha).scope
  | .breakLoop _ | .continueLoop _ =>
    obtain ⟨loop, outer, vals, -, -, rfl⟩ := lowerLoopExit_eq_ok.1 hrun
    exact .of_scope rfl
  | .ifElse _ cond t none =>
    obtain ⟨r, hmerge⟩ := lowerChoice_eq_ok.1 hrun
    have hr := r.layout hlive h (region_lowerStmts t) regional_pure hmerge
    have hnone : r.afterElse = r.elseStart := congrArg Prod.snd (pure_eq_ok.1 r.else_eq)
    refine ChoiceRun.keeps hr h (keeps_lowerStmts t hs.2 rfl hr.thenFramed r.then_eq) ?_
    rw [hnone]
    exact .refl _ _ _ _
  | .ifElse _ cond t (some e) =>
    obtain ⟨r, hmerge⟩ := lowerChoice_eq_ok.1 hrun
    have hr := r.layout hlive h (region_lowerStmts t) (region_lowerStmts e) hmerge
    have hthen := keeps_lowerStmts t hs.2.1 (s := r.thenStart) rfl hr.thenFramed r.then_eq
    have helse := keeps_lowerStmts e hs.2.2 (s := r.elseStart) rfl hr.elseFramed r.else_eq
    rw [assigned, numLets]
    exact ChoiceRun.keeps hr h
      (hthen.weaken (subset_append_left _ _) (Nat.le_refl _) (by omega))
      (helse.weaken (subset_append_right _ _) (by omega) (by omega))
  | .whileDo _ cond body =>
    obtain ⟨r, rfl⟩ := lowerLoop_eq_ok.1 hrun
    exact r.keeps h (List.Subset.refl _)

lemma keeps_lowerStmts (sts : List Typed.Stmt) {inLoop : Bool} {V : List VarId} {lo : Nat}
    (hs : AllScoped E inLoop V lo sts) {s t : LowerState} (hlive : s.Live) (h : Framed s)
    (hrun : lowerStmts c sts s = .ok ((), t)) :
    Keeps (assignedAll sts) lo (lo + numLetsAll sts) s t := by
  match sts with
  | [] =>
    cases pure_eq_ok.1 hrun
    exact .refl _ _ _ s
  | st :: sts =>
    obtain ⟨s1, hst, hrun⟩ := (lowerStmts_cons_eq_ok hlive).1 hrun
    have hr := region_lowerStmt st hlive h hst
    have hhead := (keeps_lowerStmt st hs.1 hlive h hst).weaken
      (subset_append_left _ (assignedAll sts)) (Nat.le_refl lo)
      (show lo + st.numLets ≤ lo + (st.numLets + numLetsAll sts) by omega)
    by_cases hlive1 : s1.Live
    · have htail := keeps_lowerStmts sts hs.2 hlive1 hr.framed hrun
      exact hhead.trans (htail.weaken (subset_append_right _ _) (by omega) (by omega))
    · cases (lowerStmts_of_not_live hlive1).symm.trans hrun
      exact hhead

end

/-! ## Names -/

/-- The variables `V` are in scope besides the constants `K`, and `lo` is the number of the next
variable. -/
structure Names (K V : List VarId) (lo : Nat) (s : LowerState) : Prop where
  visible : ∀ v ∈ V, (s.lookup v).isSome
  below : ∀ v : Nat, (s.lookup v).isSome → v < lo
  const : ∀ v ∈ K, s.lookup v = none
  const_lt : ∀ v : Nat, v ∈ K → v < lo

lemma Names.lt (h : Names K V lo s) (hv : v ∈ V) : v < lo := h.below v (h.visible v hv)

lemma Names.of_lookup (h : Names K V lo s) (hlook : ∀ v, t.lookup v = s.lookup v) :
    Names K V lo t where
  visible v hv := by
    rw [hlook]
    exact h.visible v hv
  below v hv := h.below v (by rwa [← hlook])
  const v hv := (hlook v).trans (h.const v hv)
  const_lt := h.const_lt

lemma Names.weaken {lo' : Nat} (h : Names K V lo s) (hle : lo ≤ lo') : Names K V lo' s where
  visible := h.visible
  below v hv := Nat.lt_of_lt_of_le (h.below v hv) hle
  const := h.const
  const_lt v hv := Nat.lt_of_lt_of_le (h.const_lt v hv) hle

lemma Names.of_keeps (h : Names K V lo s) (hk : Keeps vars lo hi s t) (hr : Region s t)
    (hs : Framed s) (hlohi : lo ≤ hi) (hvars : ∀ v : Nat, v ∈ vars → v ∈ V ∨ (lo ≤ v ∧ v < hi)) :
    Names K V hi t where
  visible v hv := hk.mono v (h.visible v hv)
  below v hv := by
    by_cases hmem : v ∈ vars
    · rcases hvars v hmem with hV | hin
      · exact Nat.lt_of_lt_of_le (h.lt hV) hlohi
      · exact hin.2
    · by_cases hin : lo ≤ v ∧ v < hi
      · exact hin.2
      · rw [hk.lookup hs.scope hr.framed.scope hr.tail hmem hin] at hv
        exact Nat.lt_of_lt_of_le (h.below v hv) hlohi
  const v hv := by
    have hlt := h.const_lt v hv
    have hnone := h.const v hv
    rw [hk.lookup hs.scope hr.framed.scope hr.tail ?_ fun hin => Nat.not_lt.2 hin.1 hlt]
    · exact hnone
    · intro hmem
      rcases hvars v hmem with hV | hin
      · have hsome := h.visible v hV
        rw [hnone] at hsome
        cases hsome
      · exact Nat.not_lt.2 hin.1 hlt
  const_lt v hv := Nat.lt_of_lt_of_le (h.const_lt v hv) hlohi

lemma lookup_letVar {e : Typed.Expr} {span : Span} {v : VarId}
    (hrun : lowerStmt c (.letVar span v e) s = .ok ((), t)) : (t.lookup v).isSome := by
  obtain ⟨a, s1, ha, hrun⟩ := bind_eq_ok.1 hrun
  cases (bindVar_eq v a).symm.trans hrun
  rw [lookup_bound, if_pos rfl]
  rfl

lemma names_lowerStmt {st : Typed.Stmt} (hs : st.Scoped E inLoop V lo) (hn : Names K V lo s)
    (hlive : s.Live) (h : Framed s) (hrun : lowerStmt c st s = .ok ((), t)) :
    Names K (st.declares ++ V) (lo + st.numLets) t := by
  have hk := keeps_lowerStmt st hs hlive h hrun
  have hr := region_lowerStmt st hlive h hrun
  have hV := hn.of_keeps hk hr h (Nat.le_add_right _ _) (assigned_of_scoped st hs)
  refine ⟨fun v hv => ?_, hV.below, hV.const, hV.const_lt⟩
  rcases mem_append.1 hv with hv | hv
  · cases st with
    | letVar _ w e =>
      obtain rfl := mem_singleton.1 hv
      exact lookup_letVar hrun
    | _ => cases hv
  · exact hV.visible v hv

end Statements

end VecLang.Ssa
