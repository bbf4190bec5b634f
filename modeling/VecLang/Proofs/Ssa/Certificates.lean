import VecLang.Proofs.Ssa.Loops

/-!
# The code of statements and functions follows the plan

What holds of choices and loops when it holds of the statements inside (`stmtPlanned_choice`,
`stmtPlanned_loop`) holds of all statements.
-/

namespace VecLang.Ssa

open Stateful LowerState List Planned Resolved Setting
open Option hiding or_assoc

variable {c : LowerContext} {S : Setting} {F s t u : LowerState} {σ : Point} {K V W : List VarId}
  {A : List VarId} {lo : Nat}

lemma Certified.mono (h : Certified S W s) (hV : V ⊆ W) : Certified S V s := by
  obtain ⟨σ, hat, hag, hend⟩ := h.here
  exact ⟨h.pos, σ, hat, fun v hv => hag v (hV hv), hend⟩

lemma Setting.Stands.certified (h : S.Stands K V s σ) : Certified S V s :=
  ⟨h.pos, σ, h.at_point, h.agrees, fun hlive => absurd h.live hlive⟩

/-! ## Variables that are given values -/

variable {v : VarId} {a : Atom}

lemma planned_bindVar (hrun : bindVar c v a s = .ok ((), t)) :
    Planned c s t fun S _ => ∀ {σ}, S.Stands K V s σ → S.AtomOk σ a (c.module.varType v) →
      Certified S (v :: V) t ∧ Made S s t := by
  cases (bindVar_eq v a).symm.trans hrun
  refine mono (planned_vars [v] rfl rfl rfl) ?_
  intro S F hS hF howner σ hs ha
  have howner : S.plan.owner s.types.size = some v := howner 0 v rfl
  have htype : S.module.types[s.types.size]? = some (c.module.varType v) :=
    type?_addValue hS ((grows_inScope _ _).trans hF)
  have hat : S.At ((s.addValue (c.module.varType v)).append (.assign s.types.size a))
      (σ.after S.plan (.assign s.types.size a)) :=
    At.append (s := s.addValue _) hs.at_point ⟨_, htype, ha⟩
  refine ⟨⟨?_, _, hat, fun w hw => ?_, fun hlive => absurd hs.live hlive⟩, .of_same rfl rfl rfl⟩
  · exact Nat.lt_of_lt_of_le hs.pos (grows_addValue s _).types_size
  · have hpos : s.types.size ≠ 0 := Nat.ne_of_gt hs.pos
    rw [lookup_bound, after_of_owner_eq_some (i := .assign s.types.size a) hpos howner]
    by_cases hvw : v = w
    · rw [if_pos hvw]
      exact if_pos hvw.symm
    · rw [if_neg hvw]
      simp only [if_neg (Ne.symm hvw)]
      exact hs.agrees w ((mem_cons.1 hw).resolve_left (Ne.symm hvw))

/-- What is demanded of the expressions of statements, by the place they stand at. -/
def codeRules (c : LowerContext) (S : Setting) : Stmt.Rules Typed.Expr :=
  (Typed.rules c.table c.module.varType S.fits S.func.result).and
    (.over (c.module.varType · ≠ .invalid) fun _ => True)

variable {e : Typed.Expr}

lemma stmtPlanned_bind {s1 : LowerState} (hlive : s.Live)
    (he : lowerExpr c e s = .ok (a, s1)) (hrun : bindVar c v a s1 = .ok ((), t))
    (hwf : Visible c.table K V e.erase) :
    StmtPlanned c (fun S => (codeRules c S).bind v e) K V A (v :: V) lo s t := by
  have hemits := emits_lowerExpr e hlive he
  have hgrows : Grows s1 t := by
    cases (bindVar_eq v a).symm.trans hrun
    have hlive1 : (s1.addValue (c.module.varType v)).Live := hemits.live hlive
    exact (grows_addValue _ _).trans ((grows_append hlive1 _).trans (grows_inScope _ _))
  refine mono (Planned.trans (planned_emits hemits)
    (planned_bindVar (K := K) (V := V) hrun) hgrows) ?_
  rintro S F hS hF ⟨hown, hbind⟩ ⟨⟨hwt, hty⟩, hne, -⟩ hset hcert
  obtain ⟨σ, hs⟩ := hcert.stands hlive hset.names.const
  obtain ⟨σ', hs', -, hgives⟩ := exprOk hS e he (hgrows.trans hF) hwf hwt hs hown
  obtain ⟨hcert, hmade⟩ := hbind hs' (hty ▸ hgives.atomOk (hty ▸ hne))
  exact ⟨hcert, hemits.made.trans hmade⟩

lemma stmtPlanned_expr (hlive : s.Live)
    (he : lowerExpr c e s = .ok (a, t)) (hwf : Visible c.table K V e.erase) :
    StmtPlanned c (fun S => (codeRules c S).value e) K V A V lo s t := by
  have hemits := emits_lowerExpr e hlive he
  refine mono (planned_emits hemits) ?_
  rintro S F hS hF hown ⟨hwt, -⟩ hset hcert
  obtain ⟨σ, hs⟩ := hcert.stands hlive hset.names.const
  obtain ⟨σ', hs', -, -⟩ := exprOk hS e he hF hwf hwt hs hown
  exact ⟨hs'.certified, hemits.made⟩

/-! ## Statements that leave the block -/

lemma Setting.TermOk.endOk {term : Term} {j : Nat} (h : S.TermOk σ term)
    (htargets : term.targets = []) (hfalls : term.fallsThrough = false) : S.EndOk j σ term where
  term := h
  jump l hl := by
    rw [htargets] at hl
    cases hl
  fall h := by
    rw [hfalls] at h
    cases h

lemma stmtPlanned_ret_none (hlive : s.Live) :
    StmtPlanned c (fun S => (codeRules c S).ret none) K V A V lo s (s.close (.ret none)) := by
  refine mono (planned_same rfl rfl rfl) ?_
  rintro S F hS hF - ⟨hres, -⟩ hset hcert
  obtain ⟨σ, hs⟩ := hcert.stands hlive hset.names.const
  exact ⟨hs.close (TermOk.endOk hres rfl rfl), .of_same rfl rfl rfl⟩

lemma stmtPlanned_ret_some {s1 : LowerState} (hlive : s.Live)
    (he : lowerExpr c e s = .ok (a, s1)) (hwf : Visible c.table K V e.erase) :
    StmtPlanned c (fun S => (codeRules c S).ret (some e)) K V A V lo s
      (s1.close (.ret (if a = .none then none else some a))) := by
  have hemits := emits_lowerExpr e hlive he
  have hgrows : Grows s1 (s1.close (.ret (if a = .none then none else some a))) :=
    grows_close (hemits.live hlive) _
  refine mono (Planned.trans (planned_emits hemits) (planned_same rfl rfl rfl) hgrows) ?_
  rintro S F hS hF ⟨hown, -⟩ ⟨⟨hwt, hty⟩, -⟩ hset hcert
  obtain ⟨σ, hs⟩ := hcert.stands hlive hset.names.const
  obtain ⟨σ', hs', -, hgives⟩ := exprOk hS e he (hgrows.trans hF) hwf hwt hs hown
  refine ⟨hs'.close (TermOk.endOk ?_ rfl rfl), hemits.made.trans (.of_same rfl rfl rfl)⟩
  -- a call without a result leaves nothing to return
  by_cases hvoid : e.ty = .invalid
  · rw [Gives, if_pos hvoid] at hgives
    rw [if_pos hgives]
    exact hty.symm.trans hvoid
  · have hatom := hgives.atomOk hvoid
    rw [if_neg fun hnone => ?_]
    · rw [hty] at hatom
      exact hatom
    · rw [hnone] at hatom
      exact hatom

/-! ## Ways back and out of a loop -/

lemma rows_left (loop : LoopFrame) (again : Bool) (vals : List ValueId) :
    (loop.left again vals).rows again = vals :: loop.rows again := by
  cases again <;> rfl

lemma LoopFrame.Becomes.rows {loop loop' : LoopFrame} (h : loop.Becomes loop') (again : Bool) :
    loop.rows again <:+ loop'.rows again := by
  cases again
  · exact h.breaks
  · exact h.continues

lemma Ways.rows {loop : LoopFrame} (h : Ways s loop) (again : Bool) :
    (s.sources (loop.exit again)).length = (loop.rows again).length := by
  cases again
  · exact h.breaks
  · exact h.continues

lemma getElem?_of_concat_prefix {α : Type} {xs ys : List α} {x : α} (h : xs ++ [x] <+: ys) :
    ys[xs.length]? = some x := by
  obtain ⟨rest, rfl⟩ := h
  rw [append_assoc, getElem?_append_right (Nat.le_refl _), Nat.sub_self]
  rfl

lemma Grows.sources_prefix (h : Grows t F) (hended : ¬ t.Live) (l : Nat) :
    t.sources l <+: F.sources l := by
  have hsize : t.all.size ≤ F.all.size := by
    simpa [LowerState.all] using h.size
  have hsame : ∀ i < t.all.size, F.all[i]? = t.all[i]? := by
    intro i hi
    rw [LowerState.all, Array.size_push] at hi
    rcases Nat.lt_or_eq_of_le (Nat.le_of_lt_succ hi) with hi | rfl
    · exact h.done i hi
    · obtain ⟨b, hb, hbegins⟩ := h.current
      rw [hb, hbegins.ended hended, getElem?_all_size]
  rw [sources_eq, sources_eq, range_eq_append hsize, flatMap_append]
  refine ⟨_, congrArg (· ++ _) ?_⟩
  refine flatMap_congr fun i hi => ?_
  rw [jumpsFrom, jumpsFrom, hsame i (mem_range.1 hi)]

section LoopExit

variable {again : Bool} {loop loop' : LoopFrame} {outer : List LoopFrame} {vals : List ValueId}
  {U : List VarId} {base : Env}

lemma vals_eq (hvals : loop.carried.mapM (varValue c) s = .ok (vals, s))
    (hvisible : ∀ v ∈ loop.carried, (s.lookup v).isSome) {i : Nat}
    (hi : loop.carried[i]? = some v) : vals[i]? = s.lookup v := by
  obtain ⟨ids, hids, heq⟩ := mapM_varValue_eq_ok.1 hvals
  cases heq
  obtain ⟨id, hid⟩ := isSome_iff_exists.1 (hvisible v (mem_of_getElem? hi))
  have hrow := congrArg (·[i]?) hids
  simp only [getElem?_map, hi, map_some, hid, some_or] at hrow
  obtain ⟨id', hid', heq⟩ := map_eq_some_iff.1 hrow.symm
  cases heq
  rw [hid, hid']

lemma arrives_loopExit (h : Framed s) (hlive : s.Live) (hloops : s.loops = loop :: outer)
    (hbecomes : (loop.left again vals).Becomes loop') (hctx : LoopContext S F loop' U base)
    (hF : Grows ((s.inLoops (loop.left again vals :: outer)).close (.goto (loop.exit again))) F)
    {e : Env} (hleaves : loop'.Leaves U base vals e) {j : Nat}
    (hj : blockOf? S.func.blocks (loop.exit again) = some j) :
    S.Arrives (.jump s.blocks.size) j e := by
  have hexit : loop'.exit again = loop.exit again := by
    cases again
    · exact hbecomes.stop
    · exact hbecomes.start
  refine hctx.leaves again (loop.rows again).length vals s.blocks.size j e ?_ ?_ hleaves
    (hexit ▸ hj)
  · have hbegins := reverse_prefix.2 (hbecomes.rows again)
    rw [rows_left, reverse_cons] at hbegins
    rw [← length_reverse]
    exact getElem?_of_concat_prefix hbegins
  · have hlive' : (s.inLoops (loop.left again vals :: outer)).Live := hlive
    have hended : ¬ ((s.inLoops (loop.left again vals :: outer)).close
        (.goto (loop.exit again))).Live := nofun
    have hbegins := hF.sources_prefix hended (loop.exit again)
    rw [sources_goto hlive', if_pos rfl] at hbegins
    have hways := (h.ways loop (by rw [hloops]; rfl)).rows again
    rw [hexit, ← hways]
    exact getElem?_of_concat_prefix hbegins

end LoopExit

lemma stmtPlanned_loopExit {again : Bool} (hlive : s.Live) (h : Framed s)
    (hrun : lowerLoopExit c again s = .ok ((), t)) :
    StmtPlanned c (fun _ => True) K V A V lo s t := by
  obtain ⟨loop, outer, vals, hloops, hvals, rfl⟩ := lowerLoopExit_eq_ok.1 hrun
  refine mono (planned_same rfl rfl rfl) ?_
  rintro S F hS hF - - hset hcert
  obtain ⟨loop', U, base, hbecomes, hctx, hUV, -, -, hothers⟩ := hset.loop _ rfl
  obtain ⟨σ, hs⟩ := hcert.stands hlive hset.names.const
  have hcarried : loop'.carried = loop.carried := by
    rw [hbecomes.carried]
    cases again <;> rfl
  have hV : ∀ v ∈ loop.carried, v ∈ V := fun v hv => hUV (hctx.carried v (hcarried ▸ hv))
  have hrow {i : Nat} {v : VarId} (hi : loop.carried[i]? = some v) : σ.env v = vals[i]? := by
    rw [vals_eq hvals (fun v hv => hset.names.visible v (hV v hv)) hi]
    exact hs.agrees v (hV v (mem_of_getElem? hi))
  have hleaves : loop'.Leaves U base vals σ.env := ⟨fun i v hi => hrow (hcarried ▸ hi),
      fun v hv hne => (hs.agrees v (hUV hv)).trans (hothers v hv hne)⟩
  have hlive' : (s.inLoops (loop.left again vals :: outer)).Live := hlive
  refine ⟨Stands.close (s := s.inLoops _) (K := K) ⟨hlive', hs.pos, hs.at_point, hs.agrees,
    hs.const⟩ ⟨trivial, fun l hl j hj => ?_, nofun⟩, ⟨fun j hlo hhi => ?_, fun p hp => .inl hp,
    fun hrows _ hmem => ?_⟩⟩
  · cases mem_singleton.1 hl
    exact arrives_loopExit h hlive hloops hbecomes hctx hF hleaves hj
  · exact absurd hhi (Nat.not_lt.2 hlo)
  · -- one more row, with the values at hand
    cases hmem
    have hold := hrows loop (by rw [hloops]; rfl)
    have hnew (i : Nat) (v : VarId) (hi : loop.carried[i]? = some v) :
        ∃ id, vals[i]? = some id ∧ S.plan.owner id = some v := by
      obtain ⟨id, hid⟩ := isSome_iff_exists.1
        (hset.names.visible v (hV v (mem_of_getElem? hi)))
      have henv := (hs.agrees v (hV v (mem_of_getElem? hi))).trans hid
      exact ⟨id, (hrow hi).symm.trans henv, hs.at_point.owned v id henv⟩
    intro row hmem
    have hmem' : row = vals ∨ row ∈ loop.continues ++ loop.breaks := by
      cases again <;> simpa [LoopFrame.left, or_assoc, or_left_comm] using hmem
    rcases hmem' with rfl | hmem'
    · cases again <;> exact hnew
    · cases again <;> exact hold row hmem'

/-! ## All statements -/

variable {T : Setting → Prop}

lemma stmtPlanned_nil (s : LowerState) : StmtPlanned c T K V A V lo s s :=
  mono (planned_same rfl rfl rfl) fun _ _ _ _ _ _ _ hcert =>
    ⟨hcert, .of_same rfl rfl rfl⟩

lemma stmtPlanned_cons {st : Typed.Stmt} {A' : List VarId} {T' : Setting → Prop} {inLoop : Bool}
    (hs : st.Scoped (fun V e => Visible c.table K V e.erase) inLoop V lo) (hlive : s.Live)
    (h : Framed s) (hrun : lowerStmt c st s = .ok ((), t)) (htu : Region t u)
    (hfirst : StmtPlanned c T K V (assigned st) (st.declares ++ V) lo s t)
    (hrest : StmtPlanned c T' K (st.declares ++ V) A' (st.declares ++ V) (lo + st.numLets) t u) :
    StmtPlanned c (fun S => T S ∧ T' S) K V (assigned st ++ A') V lo s u := by
  have hst := region_lowerStmt st hlive h hrun
  refine mono (Planned.trans hfirst hrest htu.adds.grows) ?_
  rintro S F hS hF ⟨hfirst, hrest⟩ ⟨hT, hT'⟩ hset hcert
  have hloop1 : InLoop S F (assigned st) V lo s t :=
    hset.loop.part (fun v hv => mem_append_left _ hv) (fun v hv => hv) (Nat.le_refl _)
      htu.loops.head fun _ _ _ => rfl
  obtain ⟨hcert, hmade⟩ := hfirst hT ⟨hset.names, hset.complete.first hst htu h, hloop1⟩ hcert
  have hkeeps := keeps_lowerStmt st hs hlive h hrun
  have hloop2 : InLoop S F A' (st.declares ++ V) (lo + st.numLets) t u := by
    refine hset.loop.part (fun v hv => mem_append_right _ hv)
      (fun v hv => mem_append_right _ hv) (Nat.le_add_right _ _)
      (fun loop hloop => ⟨loop, hloop, .refl loop⟩) fun v hv hA => ?_
    exact hkeeps.lookup h.scope hst.framed.scope hst.tail
      (fun hmem => hA (mem_append_left _ hmem)) (by omega)
  obtain ⟨hcert, hmade'⟩ := hrest hT'
    ⟨names_lowerStmt hs hset.names hlive h hrun, hset.complete.rest hst, hloop2⟩ hcert
  exact ⟨hcert.mono (subset_append_right _ _), hmade.trans hmade'⟩

lemma condTyped_of_rules {cond : Typed.Expr} (hwf : Visible c.table K V cond.erase)
    (hcond : (codeRules c S).cond cond) : CondTyped c K V cond S := ⟨hwf, hcond.1.1, hcond.1.2⟩

lemma StmtPlanned.imp {T' : Setting → Prop} (h : StmtPlanned c T K V A W lo s t)
    (hT : ∀ S, T' S → T S) : StmtPlanned c T' K V A W lo s t :=
  mono h fun S _ _ _ hP hT' => hP (hT S hT')

mutual

lemma stmtPlanned (st : Typed.Stmt) {inLoop : Bool} {V : List VarId} {lo : Nat}
    (hs : st.Scoped (fun V e => Visible c.table K V e.erase) inLoop V lo)
    {s t : LowerState} (hlive : s.Live) (h : Framed s) (hrun : lowerStmt c st s = .ok ((), t)) :
    StmtPlanned c (fun S => st.Obeys (codeRules c S)) K V (assigned st) (st.declares ++ V) lo s
      t := by
  match st with
  | .letVar _ v e =>
    obtain ⟨a, s1, he, hrun⟩ := bind_eq_ok.1 hrun
    exact stmtPlanned_bind hlive he hrun hs.1
  | .assign span v e =>
    obtain ⟨a, s1, he, hrun⟩ := bind_eq_ok.1 hrun
    have hbind : StmtPlanned c _ K V (assigned (.assign span v e)) (v :: V) lo s t :=
      stmtPlanned_bind hlive he hrun hs.1
    refine mono hbind ?_
    intro S F _ _ hP hT hset hcert
    obtain ⟨hcert, hmade⟩ := hP hT hset hcert
    exact ⟨hcert.mono (subset_cons_self _ _), hmade⟩
  | .expr _ e =>
    obtain ⟨a, s1, he, hrun⟩ := bind_eq_ok.1 hrun
    cases pure_eq_ok.1 hrun
    exact stmtPlanned_expr hlive he hs
  | .ret _ none =>
    cases modify_eq_ok.1 hrun
    exact stmtPlanned_ret_none hlive
  | .ret _ (some e) =>
    obtain ⟨a, s1, he, hrun⟩ := bind_eq_ok.1 hrun
    cases modify_eq_ok.1 hrun
    exact stmtPlanned_ret_some hlive he hs
  | .breakLoop _ | .continueLoop _ =>
    exact (stmtPlanned_loopExit hlive h hrun).imp fun _ _ => trivial
  | .ifElse _ cond body none =>
    obtain ⟨r, hmerge⟩ := lowerChoice_eq_ok.1 hrun
    have hr := r.layout hlive h (region_lowerStmts body) regional_pure hmerge
    have hnone : r.afterElse = r.elseStart := congrArg Prod.snd (pure_eq_ok.1 r.else_eq)
    have hthen := stmtsPlanned body hs.2 (s := r.thenStart) rfl hr.thenFramed r.then_eq
    have hkeeps := keeps_lowerStmts body hs.2 (s := r.thenStart) rfl hr.thenFramed r.then_eq
    have helse : StmtPlanned c (fun _ => True) K V [] V (lo + Stmt.numLetsAll body) r.elseStart
        r.afterElse := by
      rw [hnone]
      exact stmtPlanned_nil _
    have hkelse : Keeps [] (lo + Stmt.numLetsAll body) (lo + Stmt.numLetsAll body) r.elseStart
        r.afterElse := by
      rw [hnone]
      exact .refl _ _ _ _
    have hcond := condPlanned_of_run (K := K) (V := V) (condRun_of_lowerCond cond r.cond_eq) hlive
    have hall := stmtPlanned_choice h hr hcond hthen helse hkeeps hkelse (Nat.le_add_right _ _)
      (assignedAll_of_scoped body hs.2) nofun
    rw [append_nil] at hall
    rw [assigned]
    exact hall.imp fun S hT => ⟨condTyped_of_rules hs.1 hT.1, hT.2, trivial⟩
  | .ifElse _ cond thenBody (some elseBody) =>
    obtain ⟨r, hmerge⟩ := lowerChoice_eq_ok.1 hrun
    have hr := r.layout hlive h (region_lowerStmts thenBody) (region_lowerStmts elseBody) hmerge
    have hthen := stmtsPlanned thenBody hs.2.1 (s := r.thenStart) rfl hr.thenFramed r.then_eq
    have helse := stmtsPlanned elseBody hs.2.2 (s := r.elseStart) rfl hr.elseFramed r.else_eq
    have hcond := condPlanned_of_run (K := K) (V := V) (condRun_of_lowerCond cond r.cond_eq) hlive
    rw [assigned]
    refine (stmtPlanned_choice h hr hcond hthen helse
      (keeps_lowerStmts thenBody hs.2.1 (s := r.thenStart) rfl hr.thenFramed r.then_eq)
      (keeps_lowerStmts elseBody hs.2.2 (s := r.elseStart) rfl hr.elseFramed r.else_eq)
      (Nat.le_add_right _ _) (assignedAll_of_scoped thenBody hs.2.1)
      (assignedAll_of_scoped elseBody hs.2.2)).imp fun S hT => ?_
    exact ⟨condTyped_of_rules hs.1 hT.1, hT.2.1, hT.2.2⟩
  | .whileDo _ cond body =>
    obtain ⟨r, rfl⟩ := lowerLoop_eq_ok.1 hrun
    have hr := r.layout h (region_lowerStmts body)
    have hbody := stmtsPlanned body hs.2 (s := r.bodyStart) rfl hr.framed r.body_eq
    have hkeeps := keeps_lowerStmts body hs.2 (s := r.bodyStart) rfl hr.framed r.body_eq
    have hcond := condPlanned_of_run (K := K) (V := V) (condRun_of_lowerCond cond r.cond_eq) rfl
    refine (stmtPlanned_loop h hlive hr hcond hbody hkeeps
      (assignedAll_of_scoped body hs.2)).imp fun S hT => ?_
    exact ⟨condTyped_of_rules hs.1 hT.1, hT.2⟩

lemma stmtsPlanned (sts : List Typed.Stmt) {inLoop : Bool} {V : List VarId} {lo : Nat}
    (hs : Stmt.AllScoped (fun V e => Visible c.table K V e.erase) inLoop V lo sts)
    {s t : LowerState} (hlive : s.Live) (h : Framed s) (hrun : lowerStmts c sts s = .ok ((), t)) :
    StmtPlanned c (fun S => Stmt.AllObey (codeRules c S) sts) K V (assignedAll sts) V lo s t := by
  match sts with
  | [] =>
    rw [lowerStmts] at hrun
    cases pure_eq_ok.1 hrun
    exact stmtPlanned_nil s
  | st :: sts =>
    obtain ⟨s1, hst, hrun⟩ := (lowerStmts_cons_eq_ok hlive).1 hrun
    have hr := region_lowerStmt st hlive h hst
    by_cases hlive1 : s1.Live
    · exact stmtPlanned_cons hs.1 hlive h hst (region_lowerStmts sts hlive1 hr.framed hrun)
        (stmtPlanned st hs.1 hlive h hst) (stmtsPlanned sts hs.2 hlive1 hr.framed hrun)
    · -- what follows the end of a block is left out
      rw [lowerStmts_of_not_live hlive1] at hrun
      cases hrun
      refine (stmtPlanned_cons hs.1 hlive h hst (.refl hr.framed) (stmtPlanned st hs.1 hlive h hst)
        (stmtPlanned_nil _ (T := fun _ => True))).imp fun S hT => ⟨hT.1, trivial⟩

end

end VecLang.Ssa
