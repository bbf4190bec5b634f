import VecLang.Proofs.Machine.Branching

/-!
# Evaluation of constants and folding

An expression over constants is worked out in two places: where it is the initializer of a constant,
and where code is made of it. If it has a value, there is no code left; otherwise the first
instruction left is a division that stops the machine (`folds_lowerExpr`). So a function that returns
it has no instructions exactly if the initializer is accepted (`folding_agrees`).
-/

namespace VecLang.Machine

open Ssa Stateful LowerState Typed List Typing

variable {c : LowerContext} {s t u : LowerState} {a : Atom} {fits : Fits} {K : List VarId}
  {known : List (VarId × Value)}

/-! ## What folding leaves -/

/-- A division of constants at which the machine stops. -/
def Faulty (c : LowerContext) (i : Instr) : Prop :=
  ∃ dst op ty scaling l r x y trap, i = .binary dst op ty scaling l r ∧ c.constant? l = some x ∧
    c.constant? r = some y ∧ binaryValue op ty x y = .error (.trapped trap) ∧ trap.code = "VM1002"

/-- Between `s` and `t` there is no code, and the value is as `P` says; or there is none, and the
code begins with a faulty division. -/
def Folds {β : Type} (c : LowerContext) (s t : LowerState) (P : β → Prop) : Option β → Prop
  | some v => t = s ∧ P v
  | none => ∃ i, Faulty c i ∧ s.current.instrs.toList ++ [i] <+: t.current.instrs.toList

lemma Folds.bind {β γ : Type} {P : β → Prop} {Q : γ → Prop} {o : Option β} {f : β → Option γ}
    (h : Folds c s t P o) (htu : Emits t u)
    (hf : ∀ v, o = some v → P v → Folds c t u Q (f v)) : Folds c s u Q (o.bind f) := by
  cases o with
  | none =>
    obtain ⟨i, hi, hfirst⟩ := h
    exact ⟨i, hi, hfirst.trans htu.instrs⟩
  | some v =>
    obtain ⟨rfl, hv⟩ := h
    exact hf v rfl hv

lemma folds_result {o : Option Value} {ty : Ty} {instr : ValueId → Instr}
    (h : result o ty instr s = .ok (a, t)) (hnone : o = none → Faulty c (instr s.types.size)) :
    Folds c s t (c.constant? a = some ·) o := by
  rcases result_eq_ok.1 h with ⟨v, rfl, heq⟩ | ⟨rfl, heq⟩
  · cases heq
    exact ⟨rfl, rfl⟩
  · cases heq
    exact ⟨_, hnone rfl, by simp [append, addValue]⟩

/-- What is made of constants right away, if they are all known. -/
lemma folds_known {β : Type} {o r : Option β} {f : β → Except Breakdown Value} {ty : Ty}
    {instr : ValueId → Instr} (hfolds : Folds c s u (o = some ·) r) (hlive : u.Live)
    (hdst : ∀ id, (instr id).dst = id)
    (h : Folded o f ty instr u (a, t)) : Folds c s t (c.constant? a = some ·) (r.bind fun v => (f v).toOption) := by
  obtain ⟨known, h, hnone, hsome⟩ := h
  refine hfolds.bind (emits_result hlive hdst h) fun v _ hv => ?_
  cases known with
  | none => cases hv.symm.trans (hnone rfl)
  | some x =>
    obtain ⟨k, hk, hx⟩ := hsome x rfl
    cases hk.symm.trans hv
    rw [hx]
    exact folds_result h nofun

/-! ## Expressions -/

/-- The variables `K` are constants with known values. -/
structure Knows (c : LowerContext) (K : List VarId) (known : List (VarId × Value)) : Prop where
  typed : ∀ v x, known.lookup v = some x → HasType (c.module.varType v) x
  pooled : ∀ v ∈ K, ∃ x id, known.lookup v = some x ∧ c.consts.get? v = some id ∧
    c.pool.get? id = some x

/-- Code is appended, and no local variable stands for a constant. -/
structure Clear (K : List VarId) (s : LowerState) : Prop where
  live : s.Live
  scope : ∀ v ∈ K, s.lookup v = none

lemma Clear.after (h : Clear K s) (hst : Emits s t) : Clear K t where
  live := hst.live h.live
  scope v hv := by
    rw [LowerState.lookup, hst.scope]
    exact h.scope v hv

mutual

lemma folds_lowerExpr (hk : Knows c K known) (e : Expr)
    (hwt : e.WellTyped c.table c.module.varType fits) (hwf : Resolved.Visible c.table K [] e.erase)
    (hfree : e.callFree = true) {s t : LowerState} {a : Atom} (hs : Clear K s)
    (h : lowerExpr c e s = .ok (a, t)) :
    Folds c s t (c.constant? a = some ·) (e.eval? known) := by
  match e with
  | .lit _ _ v =>
    cases pure_eq_ok.1 h
    exact ⟨rfl, rfl⟩
  | .var ty _ v =>
    obtain ⟨id, s1, hid, h⟩ := bind_eq_ok.1 h
    obtain ⟨_, hlook, heq⟩ := varValue_eq_ok.1 hid
    cases heq
    cases pure_eq_ok.1 h
    have hv : v ∈ K := hwf.resolve_left not_mem_nil
    obtain ⟨x, id', hx, hid', hvalue⟩ := hk.pooled v hv
    rw [hs.scope v hv, Option.none_or, hid'] at hlook
    cases hlook
    rw [Expr.eval?, hx]
    exact ⟨rfl, hvalue⟩
  | .unary ty _ op x =>
    obtain ⟨l, s1, hx, h⟩ := bind_eq_ok.1 h
    have hrest := emits_result ((emits_lowerExpr x hs.live hx).live hs.live) (fun _ => rfl) h
    rw [eval?_unary]
    refine (folds_lowerExpr hk x hwt.1 hwf.2 hfree hs hx).bind hrest fun v hv hl => ?_
    rw [hl, Option.bind_some] at h
    refine folds_result h fun hnone => ?_
    rw [unary?_eq_unaryValue hwt.2.2 (eval?_spec hk.typed x hwt.1 hwf.2 hv)] at hnone
    cases hnone
  | .binary ty _ op operand scaling x y =>
    simp only [lowerExpr, bind_eq_ok] at h
    obtain ⟨l, s1, hx, r, s2, hy, h⟩ := h
    obtain ⟨hwx, hwy, -, hres, rfl, rfl⟩ := hwt
    obtain ⟨hfx, hfy⟩ := Bool.and_eq_true_iff.1 hfree
    have hs1 := hs.after (emits_lowerExpr x hs.live hx)
    have hey := emits_lowerExpr y hs1.live hy
    have hrest := emits_result (hey.live hs1.live) (fun _ => rfl) h
    rw [eval?_binary]
    refine (folds_lowerExpr hk x hwx hwf.2.1 hfx hs hx).bind (hey.trans hrest) fun v hv hl => ?_
    refine (folds_lowerExpr hk y hwy hwf.2.2 hfy hs1 hy).bind hrest fun w hw hr => ?_
    simp only [hl, hr, Option.bind_eq_bind, Option.bind_some] at h
    refine folds_result h fun hnone => ?_
    have hvt := eval?_spec hk.typed x hwx hwf.2.1 hv
    have hwt := eval?_spec hk.typed y hwy hwf.2.2 hw
    rw [← toOption_binaryValue hres hvt hwt] at hnone
    rcases binaryValue_spec hres hvt hwt with ⟨z, hz, -⟩ | ⟨trap, htrap, hcode⟩
    · rw [hz] at hnone
      cases hnone
    · exact ⟨_, _, _, _, l, r, v, w, trap, rfl, hl, hr, htrap, by rcases hcode with rfl | rfl <;> rfl⟩
  | .call _ _ _ _ => cases hfree
  | .pack ty _ elems =>
    obtain ⟨as, s1, has, h⟩ := lowerExpr_pack_eq_ok h
    have hlive := (emits_lowerExprs elems hs.live has).live hs.live
    have hfolds := folds_lowerExprs hk elems (fun e he => (elemsWellTyped_iff.1 hwt.2.2 e he).1)
      (allWellFormed_eraseAll.1 hwf.2.2) hfree hs has
    rw [eval?_pack]
    exact folds_known hfolds hlive (fun _ => rfl) h
  | .swizzle ty _ lanes x =>
    obtain ⟨l, s1, hx, h⟩ := lowerExpr_swizzle_eq_ok h
    have hlive := (emits_lowerExpr x hs.live hx).live hs.live
    have hfolds := folds_lowerExpr hk x hwt.1 hwf.2.2 hfree hs hx
    rw [eval?_swizzle]
    exact folds_known hfolds hlive (fun _ => rfl) h

lemma folds_lowerExprs (hk : Knows c K known) (es : List Expr)
    (hwt : ∀ e ∈ es, e.WellTyped c.table c.module.varType fits)
    (hwf : ∀ e ∈ es, Resolved.Visible c.table K [] e.erase) (hfree : allCallFree es = true)
    {s t : LowerState} {as : List Atom} (hs : Clear K s) (h : lowerExprs c es s = .ok (as, t)) :
    Folds c s t (as.mapM c.constant? = some ·) (evalAll? known es) := by
  match es with
  | [] =>
    cases pure_eq_ok.1 h
    exact ⟨rfl, rfl⟩
  | e :: es =>
    simp only [lowerExprs, bind_eq_ok, pure_eq_ok] at h
    obtain ⟨a, s1, ha, as, s2, has, h⟩ := h
    cases h
    obtain ⟨hfe, hfes⟩ := Bool.and_eq_true_iff.1 hfree
    obtain ⟨hwe, hwes⟩ := forall_mem_cons.1 hwt
    obtain ⟨hve, hves⟩ := forall_mem_cons.1 hwf
    have hs1 := hs.after (emits_lowerExpr e hs.live ha)
    rw [evalAll?_cons]
    refine (folds_lowerExpr hk e hwe hve hfe hs ha).bind (emits_lowerExprs es hs1.live has)
      fun v _ hv => ?_
    refine (folds_lowerExprs hk es hwes hves hfes hs1 has).bind (.refl _) fun vs _ hvs => ⟨rfl, ?_⟩
    rw [mapM_cons, hv, hvs]
    rfl

end

/-- The machine stops where the code begins. -/
lemma Folds.trapped {β : Type} {P : β → Prop} (h : Folds c s t P none) (hst : Emits s t)
    {M : Ssa.Module} (hpool : M.pool = c.pool) {F : LowerState} (hF : Grows t F) {fr : Frame}
    (hblocks : fr.routine.func.blocks = F.all) (hplace : fr.AtEnd s) (d : Nat) {S : State}
    {below : List Frame} (hS : S.stack = fr :: below) :
    ∃ trap : Trap, trap.code = "VM1002" ∧ (S.step (within M none d)).status = .trapped trap := by
  obtain ⟨i, ⟨dst, op, ty, scaling, l, r, x, y, trap, rfl, hl, hr, hvalue, hcode⟩, hfirst⟩ := h
  obtain ⟨b, hb, -, hinstrs, -⟩ := hF.current
  have hblock : fr.routine.func.blocks[fr.block]? = some b := by
    rw [hblocks, hplace.block, ← hst.blocks, hb]
  have hnext : b.instrs[fr.next]? = some (.binary dst op ty scaling l r) := by
    obtain ⟨more, hmore⟩ := hfirst.trans hinstrs
    rw [hplace.next, ← Array.getElem?_toList, ← hmore]
    simp
  refine ⟨trap, hcode, ?_⟩
  rw [step_within, State.advance]
  simp only [hS, hblock, hnext]
  rw [(computes_binary (read_constant hpool hl) (read_constant hpool hr)).instr d _ _ below rfl, hvalue]
  rfl

/-! ## Programs -/

variable {m : Typed.Module} {table : SymbolTable}

lemma exists_constValues {v : VarId} (ks : List Const) (n : Nat) (hv : v ∈ ks.map (·.var)) :
    ∃ k, ks.find? (·.var = v) = some k ∧ ∃ id, n ≤ id ∧
      Assoc.get? ((constValues n ks).map fun x => (x.1, x.2.1)) v = some id ∧
      Assoc.get? ((constValues n ks).map fun x => (x.2.1, x.2.2)) id = some k.value := by
  induction ks generalizing n with
  | nil => cases hv
  | cons k ks ih =>
    have hcons : constValues n (k :: ks) = (k.var, n, k.value) :: constValues (n + 1) ks := rfl
    rw [hcons, map_cons, map_cons, Assoc.get?]
    by_cases hk : k.var = v
    · exact ⟨k, find?_cons_of_pos (by simpa using hk), n, Nat.le_refl n, if_pos hk, if_pos rfl⟩
    · obtain ⟨k', hfind, id, hid, hconst, hpool⟩ :=
        ih (n + 1) ((mem_cons.1 hv).resolve_left fun h => hk h.symm)
      refine ⟨k', ?_, id, Nat.le_of_succ_le hid, ?_, ?_⟩
      · rw [find?_cons_of_neg (by simpa using hk), hfind]
      · rw [if_neg hk, hconst]
      · rw [Assoc.get?, if_neg (Nat.ne_of_lt hid), hpool]

lemma knows_contextOf (hconsts : ∀ k ∈ m.consts, HasType (m.varType k.var) k.value)
    (hknown : ∀ v, known.lookup v = m.constValue? v) :
    Knows (contextOf m table) (m.consts.map (·.var)) known where
  typed v x hx := by
    rw [hknown, Typed.Module.constValue?] at hx
    obtain ⟨k, hk, rfl⟩ := Option.map_eq_some_iff.1 hx
    obtain rfl : k.var = v := by simpa using find?_some hk
    exact hconsts k (mem_of_find?_eq_some hk)
  pooled v hv := by
    obtain ⟨k, hfind, id, -, hid⟩ := exists_constValues m.consts 1 hv
    exact ⟨k.value, id, by rw [hknown, Typed.Module.constValue?, hfind]; rfl, hid⟩

/-- The code of a function that returns an expression is that of the expression. -/
lemma exists_lowerFunc_of_ret {f : Typed.Func} {e : Expr} {span : Span}
    (hbody : f.body = [.ret span (some e)]) (h : lowerExpr c e (funcStart c s f) = .ok (a, t)) :
    ∃ g t' b, lowerFunc c f s = .ok (g, t') ∧ g.blocks = #[b] ∧ b.instrs = t.current.instrs := by
  have hlive : (funcStart c s f).Live := rfl
  have hblocks : t.blocks = #[] := (emits_lowerExpr e hlive h).blocks
  let r : FuncRun c f s := {
    afterBody := t.close (.ret (if a = .none then none else some a))
    body_eq := by
      rw [hbody]
      refine (lowerStmts_cons_eq_ok hlive).2 ⟨_, ?_, lowerStmts_of_not_live nofun⟩
      exact bind_eq_ok.2 ⟨a, t, h, rfl⟩ }
  have hresult : r.result = r.afterBody := if_neg nofun
  refine ⟨r.func, r.result, r.afterBody.current, lowerFunc_eq_ok.2 ⟨r, rfl, rfl⟩, ?_, rfl⟩
  change r.result.all = _
  rw [hresult]
  change t.blocks.push _ = _
  rw [hblocks]
  rfl

/-- The initializer of a constant is accepted if it has a value. -/
lemma exists_buildConsts_iff {k : Typing.ConstSketch} {e : Expr} {st st' : Typing.InferState}
    (h : build k.value st = .ok (e, st')) :
    (∃ r, buildConsts table known [k] st = .ok r) ↔ ∃ v, e.eval? known = some v := by
  rw [buildConsts, bind_of_eq_ok h]
  cases e.eval? known with
  | none =>
    constructor
    · rintro ⟨_, hr⟩
      exact absurd hr throw_ne_ok
    · rintro ⟨_, ⟨⟩⟩
  | some v => exact ⟨fun _ => ⟨v, rfl⟩, fun _ => ⟨_, rfl⟩⟩

/-- Constants are evaluated and folded alike. If an expression over constants has a value, then it is
lowered to a constant with this value and no instructions. If it has none, then the machine stops
where the code begins. So a function that returns the expression is a block without instructions
exactly if it is accepted as the initializer of a constant. -/
theorem folding_agrees (hconsts : ∀ k ∈ m.consts, HasType (m.varType k.var) k.value)
    (hknown : ∀ v, known.lookup v = m.constValue? v) {e : Expr}
    (hwt : e.WellTyped table m.varType fits) (hfree : e.callFree = true)
    (hwf : Resolved.Visible table (m.consts.map (·.var)) [] e.erase) :
    (∀ s, s.Live → (∀ v ∈ m.consts.map (·.var), s.lookup v = none) →
      ∃ a t, lowerExpr (contextOf m table) e s = .ok (a, t) ∧
        (∀ v, e.eval? known = some v →
          t = s ∧ (contextOf m table).constant? a = some v ∧ v.ty = e.ty) ∧
        (e.eval? known = none → ∀ {M : Ssa.Module}, M.pool = (contextOf m table).pool →
          ∀ {F : LowerState}, Grows t F → ∀ {fr : Frame}, fr.routine.func.blocks = F.all →
          fr.AtEnd s → ∀ (d : Nat) {S : State} {below : List Frame}, S.stack = fr :: below →
          ∃ trap : Trap, trap.code = "VM1002" ∧ (S.step (within M none d)).status = .trapped trap)) ∧
    ∀ (s : LowerState) (f : Typed.Func) (span : Span), f.body = [.ret span (some e)] →
      f.params.Nodup → (∀ v ∈ m.consts.map (·.var), v ∉ f.params) →
      ∃ g t, lowerFunc (contextOf m table) f s = .ok (g, t) ∧
        ∀ {k : Typing.ConstSketch} {st st' : Typing.InferState}, build k.value st = .ok (e, st') →
          ((∃ b, g.blocks = #[b] ∧ b.instrs = #[]) ↔
            ∃ r, buildConsts table known [k] st = .ok r) := by
  have hk : Knows (contextOf m table) _ known := knows_contextOf hconsts hknown
  have hlower (s : LowerState) (hs : Clear (m.consts.map (·.var)) s) :
      ∃ a t, lowerExpr (contextOf m table) e s = .ok (a, t) ∧ Emits s t ∧
        Folds (contextOf m table) s t ((contextOf m table).constant? a = some ·) (e.eval? known) := by
    obtain ⟨a, t, h⟩ := exists_lowerExpr (c := contextOf m table) e hwf hwt (fun v hv => by
      rw [Option.isSome_or, isSome_consts (hv.resolve_left not_mem_nil), Bool.or_true]) hs.live
    exact ⟨a, t, h, emits_lowerExpr e hs.live h, folds_lowerExpr hk e hwt hwf hfree hs h⟩
  refine ⟨fun s hlive hscope => ?_, fun s f span hbody hnodup hparams => ?_⟩
  · obtain ⟨a, t, h, hemits, hfolds⟩ := hlower s ⟨hlive, hscope⟩
    refine ⟨a, t, h, fun v hv => ?_, fun hnone => ?_⟩
    · rw [hv] at hfolds
      exact ⟨hfolds.1, hfolds.2, (eval?_spec hk.typed e hwt hwf hv).1⟩
    · rw [hnone] at hfolds
      exact hfolds.trapped hemits
  · obtain ⟨a, t, h, -, hfolds⟩ := hlower (funcStart (contextOf m table) s f)
      ⟨rfl, fun v hv => lookup_funcStart_of_notMem hnodup (hparams v hv)⟩
    obtain ⟨g, t', b, hg, hblocks, hinstrs⟩ := exists_lowerFunc_of_ret hbody h
    refine ⟨g, t', hg, fun hbuild => ?_⟩
    rw [exists_buildConsts_iff hbuild, hblocks]
    cases hv : e.eval? known with
    | some v =>
      rw [hv] at hfolds
      exact ⟨fun _ => ⟨v, rfl⟩, fun _ => ⟨b, rfl, by rw [hinstrs, hfolds.1]; rfl⟩⟩
    | none =>
      rw [hv] at hfolds
      obtain ⟨i, -, hfirst⟩ := hfolds
      refine ⟨?_, nofun⟩
      rintro ⟨b', hb', hempty⟩
      cases hb'
      rw [← hinstrs, hempty] at hfirst
      simp at hfirst

/-- The constant six, with number one. -/
def sixModule : Typed.Module :=
  { consts := [⟨1, .int 6⟩], funcs := [], main := none, varTypes := #[.int] }

/-- One more than the constant. -/
def sixPlusOne : Expr :=
  .binary .int .none .add .int false (.var .int .none 1) (.lit .int .none (.int 1))

theorem folding_agrees_six : ∃ a, lowerExpr (contextOf sixModule default) sixPlusOne {} = .ok (a, {}) ∧
    (contextOf sixModule default).constant? a = some (.int 7) := by
  obtain ⟨h, -⟩ := @folding_agrees (fun _ _ => True) [(1, .int 6)] sixModule default
    (fun k hk => by cases mem_singleton.1 hk; exact ⟨rfl, Value.normal_int 6⟩)
    (fun v => by
      by_cases hv : v = 1
      · subst hv
        rfl
      · have hne : (v == 1) = false := by simpa using hv
        simp [List.lookup, Typed.Module.constValue?, sixModule, hne, Ne.symm hv])
    sixPlusOne ⟨⟨rfl, nofun⟩, ⟨rfl, nofun, nofun⟩, ⟨nofun, nofun⟩, rfl, rfl, rfl⟩ rfl
    ⟨nofun, .inr mem_cons_self, Value.normal_int 1⟩
  obtain ⟨a, t, hlower, hvalue, -⟩ := h {} rfl fun _ _ => rfl
  obtain ⟨rfl, hconst, -⟩ := hvalue (.int 7) rfl
  exact ⟨a, hlower, hconst⟩

end VecLang.Machine
