import VecLang.Proofs.Ssa.Plans

/-!
# The code of expressions follows the plan

The code of an expression leaves all variables as they are, and behind it the operand that holds
its value is at hand with the type of the expression (`exprOk`). What is worked out on the way
belongs to no variable.
-/

namespace VecLang.Ssa

open Stateful LowerState List Option Array Setting Typed Value

variable {c : LowerContext} {S : Setting} {F s t u : LowerState} {σ σ' : Point}

structure Finishes (c : LowerContext) (S : Setting) (F : LowerState) : Prop where
  table : S.table = c.table
  pool : S.module.pool = c.pool
  blocks : S.func.blocks = F.all
  phis : S.func.phis = F.phis.toList
  types : F.types.toList <+: S.module.types.toList
  distinct : Distinct F.all
  sites : ∀ p ∈ S.func.phis, p.label ≠ 0
  /-- A value has the type of the variable it belongs to. -/
  owned : ∀ id v, S.plan.owner id = some v → S.module.types[id]? = some (c.module.varType v)
  consts : ∀ v id, c.consts.get? v = some id →
    (c.pool.get? id).isSome ∧ S.module.types[id]? = some (c.module.varType v)
  values : ∀ id v, c.pool.get? id = some v → v.Normal ∧ S.module.types[id]? = some v.ty
  /-- What fits a parameter has a type. -/
  fits : ∀ {id g p ty}, S.table.fun? id = some g → p ∈ g.params → S.fits p ty → ty ≠ .invalid

variable {ty : Ty}

lemma Finishes.type? (hS : Finishes c S F) (hF : Grows t F) {id : ValueId}
    (h : t.types[id]? = some ty) : S.module.types[id]? = some ty :=
  type?_of_begins hS.types (hF.type? h)

def Setting.At (S : Setting) (s : LowerState) (σ : Point) : Prop :=
  ∃ e, S.plan.entryAt s.current.label s.blocks.size = some e ∧ S.plan.Owned e ∧
    S.CodeOk ⟨e, []⟩ s.current.instrs.toList ∧
    σ = Point.afterAll S.plan ⟨e, []⟩ s.current.instrs.toList

def Agrees (V : List VarId) (e : Env) (s : LowerState) : Prop := ∀ v ∈ V, e v = s.lookup v

structure Point.Up (σ σ' : Point) : Prop where
  env : σ'.env = σ.env
  temps : σ.temps ⊆ σ'.temps

lemma Point.Up.refl (σ : Point) : σ.Up σ := ⟨rfl, fun _ => id⟩

lemma Point.Up.trans {σ1 σ2 σ3 : Point} (h : σ1.Up σ2) (h' : σ2.Up σ3) : σ1.Up σ3 :=
  ⟨h'.env.trans h.env, fun _ hx => h'.temps (h.temps hx)⟩

variable {a : Atom}

lemma Setting.AtomOk.up (h : S.AtomOk σ a ty) (hup : σ.Up σ') : S.AtomOk σ' a ty := by
  cases a with
  | none => exact h
  | lit v => exact h
  | ref id ty' =>
    obtain ⟨hty, hne, htype, hknown⟩ := h
    refine ⟨hty, hne, htype, ?_⟩
    rcases hknown with hpool | htemp | ⟨v, hv⟩
    · exact .inl hpool
    · exact .inr (.inl (hup.temps htemp))
    · exact .inr (.inr ⟨v, by rw [hup.env, hv]⟩)

lemma Setting.AtomOk.ne_invalid (h : S.AtomOk σ a ty) : ty ≠ .invalid := by
  cases a with
  | none => cases h
  | lit v => exact h.1 ▸ h.2.ty_ne
  | ref id ty' => exact h.2.1

lemma Setting.At.owned (h : S.At s σ) : S.plan.Owned σ.env := by
  obtain ⟨e, -, hown, -, rfl⟩ := h
  generalize s.current.instrs.toList = is
  suffices ∀ τ : Point, S.plan.Owned τ.env → S.plan.Owned (τ.afterAll S.plan is).env from this _ hown
  induction is with
  | nil => exact fun τ h => h
  | cons i is ih => exact fun τ h => ih _ (h.after i)

variable {i : Instr}

lemma Setting.At.append (h : S.At s σ) (hi : S.InstrOk σ i) :
    S.At (s.append i) (σ.after S.plan i) := by
  obtain ⟨e, hentry, hown, hcode, rfl⟩ := h
  have hlist : (s.append i).current.instrs.toList = s.current.instrs.toList ++ [i] := by
    rw [LowerState.append, toList_push]
  refine ⟨e, hentry, hown, ?_, ?_⟩
  · rw [hlist, codeOk_append]
    exact ⟨hcode, hi⟩
  · rw [hlist, afterAll_append]

lemma Setting.At.define (h : S.At s σ) (hdst : i.dst = s.types.size)
    (hpos : s.types.size ≠ 0) (howner : S.plan.owner s.types.size = none) (hi : S.InstrOk σ i) :
    ∃ σ', S.At ((s.addValue ty).append i) σ' ∧ σ.Up σ' ∧ s.types.size ∈ σ'.temps := by
  refine ⟨_, At.append h hi, ?_, ?_⟩
  all_goals
    rw [Point.after, if_neg (by rwa [hdst]), hdst, howner]
  · exact ⟨rfl, fun _ hx => mem_cons_of_mem _ hx⟩
  · exact mem_cons_self

lemma type?_addValue (hS : Finishes c S F)
    (hF : Grows ((s.addValue ty).append i) F) : S.module.types[s.types.size]? = some ty := by
  refine hS.type? hF ?_
  rw [LowerState.append, LowerState.addValue, getElem?_push_size]

def Setting.Unowned (S : Setting) (s t : LowerState) : Prop :=
  ∀ id, s.types.size ≤ id → id < t.types.size → S.plan.owner id = none

lemma Setting.Unowned.first (h : S.Unowned s u) (htu : Grows t u) : S.Unowned s t :=
  fun id hlo hhi => h id hlo (Nat.lt_of_lt_of_le hhi htu.types_size)

lemma Setting.Unowned.rest (h : S.Unowned s u) (hst : Grows s t) : S.Unowned t u :=
  fun id hlo hhi => h id (Nat.le_trans hst.types_size hlo) hhi

/-- Code can be appended where `σ` is at hand, with the variables `V` and the constants `K` in
scope. -/
structure Setting.Stands (S : Setting) (K V : List VarId) (s : LowerState) (σ : Point) : Prop where
  live : s.Live
  pos : 0 < s.types.size
  at_point : S.At s σ
  agrees : Agrees V σ.env s
  const : ∀ v ∈ K, s.lookup v = none

section Stands

variable {K V : List VarId}

lemma Setting.Stands.emits (h : S.Stands K V s σ) (hst : Emits s t) (hat : S.At t σ')
    (hup : σ.Up σ') : S.Stands K V t σ' where
  live := hst.live h.live
  pos := Nat.lt_of_lt_of_le h.pos hst.adds.grows.types_size
  at_point := hat
  agrees v hv := by rw [hup.env, LowerState.lookup, hst.scope]; exact h.agrees v hv
  const v hv := by rw [LowerState.lookup, hst.scope]; exact h.const v hv

/-! ## Results -/

lemma constant?_ok (hS : Finishes c S F) (h : S.AtomOk σ a ty) {v : Value}
    (hv : c.constant? a = some v) : v.ty = ty ∧ v.Normal := by
  cases a with
  | none => cases hv
  | lit w =>
    cases hv
    exact h
  | ref id ty' =>
    obtain ⟨hnormal, htype⟩ := hS.values id v hv
    rw [h.2.2.1] at htype
    exact ⟨(Option.some.inj htype).symm, hnormal⟩

lemma result_ok (hS : Finishes c S F) {known : Option Value} {instr : ValueId → Instr}
    (hrun : result known ty instr s = .ok (a, t)) (hF : Grows t F)
    (hs : S.Stands K V s σ) (hty : ty ≠ .invalid) (hdst : ∀ id, (instr id).dst = id)
    (hknown : ∀ v, known = some v → v.ty = ty ∧ v.Normal)
    (hinstr : S.module.types[s.types.size]? = some ty → S.InstrOk σ (instr s.types.size))
    (hown : S.Unowned s t) : ∃ σ', S.Stands K V t σ' ∧ σ.Up σ' ∧ S.AtomOk σ' a ty := by
  have hemits := emits_result hs.live hdst hrun
  rcases result_eq_ok.1 hrun with ⟨v, hv, heq⟩ | ⟨-, heq⟩
  · cases heq
    exact ⟨σ, hs, .refl σ, hknown v hv⟩
  · cases heq
    have htype := type?_addValue hS hF
    have howner : S.plan.owner s.types.size = none :=
      hown _ (Nat.le_refl _) (by rw [LowerState.append, size_types_addValue]; omega)
    obtain ⟨σ', hat', hup, hmem⟩ := hs.at_point.define (hdst _) (Nat.pos_iff_ne_zero.1 hs.pos)
      howner (hinstr htype)
    exact ⟨σ', hs.emits hemits hat' hup, hup, rfl, hty, htype, .inr (.inl hmem)⟩

/-- What an expression leaves at hand: an operand of its type, or nothing if it has no value. -/
def Setting.Gives (S : Setting) (σ : Point) (a : Atom) (ty : Ty) : Prop :=
  if ty = .invalid then a = .none else S.AtomOk σ a ty

lemma Setting.Gives.atomOk (h : S.Gives σ a ty) (hty : ty ≠ .invalid) :
    S.AtomOk σ a ty := by rwa [Gives, if_neg hty] at h

lemma Setting.AtomOk.gives (h : S.AtomOk σ a ty) : S.Gives σ a ty := by
  rwa [Gives, if_neg h.ne_invalid]

/-! ## Expressions -/

lemma varValue_ok (hS : Finishes c S F) {v : VarId} {id : ValueId}
    (hid : (s.lookup v).or (c.consts.get? v) = some id) (hv : v ∈ V ∨ v ∈ K)
    (hs : S.Stands K V s σ) (hty : c.module.varType v ≠ .invalid) :
    S.AtomOk σ (.ref id (c.module.varType v)) (c.module.varType v) := by
  cases hlook : s.lookup v with
  | some id' =>
    rw [hlook, some_or] at hid
    cases hid
    have hV : v ∈ V := hv.resolve_right fun hmem => by rw [hs.const v hmem] at hlook; cases hlook
    have henv : σ.env v = some id := (hs.agrees v hV).trans hlook
    exact ⟨rfl, hty, hS.owned id v (hs.at_point.owned v id henv), .inr (.inr ⟨v, henv⟩)⟩
  | none =>
    rw [hlook, none_or] at hid
    obtain ⟨hpool, htype⟩ := hS.consts v id hid
    exact ⟨rfl, hty, htype, .inl (by rwa [hS.pool])⟩

lemma known?_ok (hS : Finishes c S F) {op : BinaryOp} {l r : Atom} {tl tr : Ty}
    (hl : S.AtomOk σ l tl) (hr : S.AtomOk σ r tr) (hres : op.result? tl tr = some ty) {v : Value}
    (hv : c.known? op l r = some v) : v.ty = ty ∧ v.Normal := by
  obtain ⟨x, hx, hv⟩ := bind_eq_some_iff.1 hv
  obtain ⟨y, hy, hv⟩ := bind_eq_some_iff.1 hv
  obtain ⟨hxt, hxn⟩ := constant?_ok hS hl hx
  obtain ⟨hyt, -⟩ := constant?_ok hS hr hy
  obtain ⟨hvt, -⟩ := binary?_spec hxn.ty_ne hv
  rw [hxt, hyt, hres] at hvt
  exact ⟨(Option.some.inj hvt).symm, normal_of_binary? hxn.ty_ne hv⟩

lemma passed_ok {as : List Atom} {es : List Expr} {ps : List VarId} {Q : Expr → Prop}
    (has : List.Forall₂ (fun a e => S.AtomOk σ a e.ty) as es)
    (hes : List.Forall₂ (fun e p => Q e ∧ S.fits p e.ty) es ps) :
    List.Forall₂ (fun a p => ∃ ty, S.AtomOk σ a ty ∧ S.fits p ty) as ps := by
  induction has generalizing ps with
  | nil =>
    cases hes
    exact .nil
  | cons ha _ ih =>
    cases hes with
    | cons he hes => exact .cons ⟨_, ha, he.2⟩ (ih hes)

mutual

lemma exprOk (hS : Finishes c S F) (e : Expr) {s t : LowerState} {a : Atom} {σ : Point}
    (hrun : lowerExpr c e s = .ok (a, t)) (hF : Grows t F)
    (hwf : e.erase.WellFormed c.table fun v => v ∈ V ∨ v ∈ K)
    (hwt : e.WellTyped c.table c.module.varType S.fits) (hs : S.Stands K V s σ)
    (hown : S.Unowned s t) : ∃ σ', S.Stands K V t σ' ∧ σ.Up σ' ∧ S.Gives σ' a e.ty := by
  match e with
  | .lit ty _ v =>
    cases pure_eq_ok.1 hrun
    have hlit : S.AtomOk σ (.lit v) ty := ⟨hwt.1, hwf⟩
    exact ⟨σ, hs, .refl σ, hlit.gives⟩
  | .var ty _ v =>
    obtain ⟨id, s1, hvar, hrun⟩ := bind_eq_ok.1 hrun
    obtain ⟨id', hid, heq⟩ := varValue_eq_ok.1 hvar
    cases heq
    cases pure_eq_ok.1 hrun
    obtain ⟨rfl, hty⟩ := hwt
    exact ⟨σ, hs, .refl σ, (varValue_ok hS hid hwf hs hty).gives⟩
  | .unary ty _ op x =>
    obtain ⟨l, s1, hx, hrun⟩ := bind_eq_ok.1 hrun
    have hst1 := (emits_lowerExpr x hs.live hx).adds.grows
    have h1t : Grows s1 t :=
      (emits_result ((emits_lowerExpr x hs.live hx).live hs.live) (fun _ => rfl) hrun).adds.grows
    obtain ⟨σ1, hs1, hup1, hl⟩ := exprOk hS x hx (h1t.trans hF) hwf.2 hwt.1 hs (hown.first h1t)
    have hl := hl.atomOk hwt.2.1
    have hty : ty = x.ty := UnaryOp.result?_eq hwt.2.2
    have hknown : ∀ v, (c.constant? l).bind (unary? op) = some v → v.ty = ty ∧ v.Normal := by
      intro v hv
      obtain ⟨w, hw, hv⟩ := bind_eq_some_iff.1 hv
      obtain ⟨hwty, hwn⟩ := constant?_ok hS hl hw
      obtain ⟨hvty, -⟩ := unary?_spec hwn.ty_ne hv
      rw [hwty, hwt.2.2] at hvty
      exact ⟨(Option.some.inj hvty).symm, normal_of_unary? hwn hv⟩
    obtain ⟨σ2, hs2, hup2, ha⟩ := result_ok hS hrun hF hs1 (hty ▸ hwt.2.1) (fun _ => rfl) hknown
      (fun htype => ⟨_, _, htype, hl, hwt.2.2⟩) (hown.rest hst1)
    exact ⟨σ2, hs2, hup1.trans hup2, ha.gives⟩
  | .binary ty _ op operand scaling x y =>
    simp only [lowerExpr, bind_eq_ok] at hrun
    obtain ⟨l, s1, hx, r, s2, hy, hrun⟩ := hrun
    obtain ⟨hwx, hwy, ⟨hxne, hyne⟩, hres, hscaling, hoperand⟩ := hwt
    have hex := emits_lowerExpr x hs.live hx
    have hey := emits_lowerExpr y (hex.live hs.live) hy
    have h2t : Grows s2 t :=
      (emits_result ((hex.trans hey).live hs.live) (fun _ => rfl) hrun).adds.grows
    have h1t := hey.adds.grows.trans h2t
    obtain ⟨σ1, hs1, hup1, hl⟩ := exprOk hS x hx (h1t.trans hF) hwf.2.1 hwx hs (hown.first h1t)
    have hown1 := hown.rest hex.adds.grows
    obtain ⟨σ2, hs2, hup2, hr⟩ := exprOk hS y hy (h2t.trans hF) hwf.2.2 hwy hs1 (hown1.first h2t)
    have hl := (hl.atomOk hxne).up hup2
    have hr := hr.atomOk hyne
    obtain ⟨σ3, hs3, hup3, ha⟩ := result_ok hS hrun hF hs2
      (BinaryOp.result?_ne_invalid hxne hres) (fun _ => rfl) (fun v hv => known?_ok hS hl hr hres hv)
      (fun htype => ⟨_, _, _, htype, hl, hr, hres, hscaling, hoperand⟩) (hown1.rest hey.adds.grows)
    exact ⟨σ3, hs3, (hup1.trans hup2).trans hup3, ha.gives⟩
  | .call ty _ callee args =>
    obtain ⟨as, s1, has, hrun⟩ := bind_eq_ok.1 hrun
    obtain ⟨g, hg, hres, hargs⟩ := hwt
    have hargs := argsWellTyped_iff.1 hargs
    have heas := emits_lowerExprs args hs.live has
    have hs1live := heas.live hs.live
    have hne : ∀ x ∈ args, x.WellTyped c.table c.module.varType S.fits ∧ x.ty ≠ .invalid := by
      intro x hx
      obtain ⟨p, hp, hwx, hfit⟩ := exists_of_mem_left hargs hx
      exact ⟨hwx, hS.fits (hS.table ▸ hg) hp hfit⟩
    have hwfs := allWellFormed_eraseAll.1 hwf.2
    simp only [hg] at hrun
    split at hrun
    case isTrue hvoid =>
      -- nothing is given back
      cases hrun
      obtain ⟨σ1, hs1, hup1, has⟩ := exprsOk hS args has ((grows_append hs1live _).trans hF) hwfs hne hs
        (hown.first (grows_append hs1live _))
      have hinstr : S.InstrOk σ1 (.call 0 callee g.name as) :=
        ⟨g, hS.table ▸ hg, rfl, passed_ok has hargs, by rw [if_pos rfl, ← hres, hvoid]⟩
      refine ⟨σ1, ⟨hs1.live, hs1.pos, ?_, hs1.agrees, hs1.const⟩, hup1, ?_⟩
      · have hat := hs1.at_point.append hinstr
        rwa [after_of_dst_eq_zero rfl] at hat
      · rw [Gives, Expr.ty, if_pos hvoid]
    case isFalse hty =>
      cases hrun
      have h1t : Grows s1 ((s1.addValue ty).append (.call s1.types.size callee g.name as)) :=
        (Emits.define hs1live ty rfl).adds.grows
      obtain ⟨σ1, hs1, hup1, has⟩ := exprsOk hS args has (h1t.trans hF) hwfs hne hs
        (hown.first h1t)
      have htype := type?_addValue hS hF
      have hpos := Nat.pos_iff_ne_zero.1 hs1.pos
      have hinstr : S.InstrOk σ1 (.call s1.types.size callee g.name as) :=
        ⟨g, hS.table ▸ hg, rfl, passed_ok has hargs, by rw [if_neg hpos, ← hres]; exact ⟨hty, htype⟩⟩
      have howner : S.plan.owner s1.types.size = none := hown.rest heas.adds.grows _ (Nat.le_refl _)
          (Nat.lt_of_lt_of_eq (Nat.lt_succ_self _) (size_types_addValue s1 ty).symm)
      obtain ⟨σ2, hat2, hup2, hmem⟩ := hs1.at_point.define rfl hpos howner hinstr
      have ha : S.AtomOk σ2 (.ref s1.types.size ty) ty := ⟨rfl, hty, htype, .inr (.inl hmem)⟩
      exact ⟨σ2, hs1.emits (.define hs1live ty rfl) hat2 hup2, hup1.trans hup2, ha.gives⟩
  | .pack ty _ elems =>
    obtain ⟨as, s1, has, known, hrun, -, hknown⟩ := lowerExpr_pack_eq_ok hrun
    obtain ⟨hcons, hlen, helems⟩ := hwt
    have helems := elemsWellTyped_iff.1 helems
    have heas := emits_lowerExprs elems hs.live has
    have hne : ∀ x ∈ elems, x.WellTyped c.table c.module.varType S.fits ∧ x.ty ≠ .invalid :=
      fun x hx => ⟨(helems x hx).1, by rw [(helems x hx).2]; decide⟩
    have hfloat : ∀ k ∈ Resolved.constructors, k.isFloat = true ∧ k ≠ .invalid := by decide
    have h1t : Grows s1 t := (emits_result (heas.live hs.live) (fun _ => rfl) hrun).adds.grows
    obtain ⟨σ1, hs1, hup1, has'⟩ := exprsOk hS elems has (h1t.trans hF)
      (allWellFormed_eraseAll.1 hwf.2.2) hne hs (hown.first h1t)
    have hlen' := has'.length_eq.trans hlen
    have hreal : ∀ a ∈ as, S.AtomOk σ1 a .real := by
      intro a ha
      obtain ⟨x, hx, hax⟩ := exists_of_mem_left has' ha
      exact (helems x hx).2 ▸ hax
    have hknown : ∀ v, known = some v → v.ty = ty ∧ v.Normal := by
      intro v hv
      obtain ⟨vs, hvs, hv⟩ := hknown v hv
      exact ⟨pack_spec hv, normal_of_pack hv (hfloat ty hcons).1
        (Nat.le_of_eq ((length_of_mapM_eq_some hvs).trans hlen'))⟩
    obtain ⟨σ2, hs2, hup2, ha⟩ := result_ok hS hrun hF hs1 (hfloat ty hcons).2 (fun _ => rfl)
      hknown (fun htype => ⟨ty, htype, hcons, hlen', hreal⟩) (hown.rest heas.adds.grows)
    exact ⟨σ2, hs2, hup1.trans hup2, ha.gives⟩
  | .swizzle ty _ lanes x =>
    obtain ⟨l, s1, hx, known, hrun, -, hknown⟩ := lowerExpr_swizzle_eq_ok hrun
    obtain ⟨hwx, hvec, hlane, hres⟩ := hwt
    have hex := emits_lowerExpr x hs.live hx
    have hxne : x.ty ≠ .invalid := by
      intro h
      rw [h] at hvec
      exact absurd hvec (by decide)
    have h1t : Grows s1 t := (emits_result (hex.live hs.live) (fun _ => rfl) hrun).adds.grows
    obtain ⟨σ1, hs1, hup1, hl⟩ := exprOk hS x hx (h1t.trans hF) hwf.2.2 hwx hs (hown.first h1t)
    have htyne : ty ≠ .invalid := fun h => swizzle_result?_ne_invalid (h ▸ hres)
    have hknown : ∀ v, known = some v → v.ty = ty ∧ v.Normal := by
      intro v hv
      obtain ⟨_, -, hv⟩ := hknown v hv
      exact ⟨Option.some.inj ((swizzle_spec hv).1.symm.trans hres), normal_of_swizzle hv⟩
    obtain ⟨σ2, hs2, hup2, ha⟩ := result_ok hS hrun hF hs1 htyne (fun _ => rfl) hknown
      (fun htype => ⟨_, _, htype, hl.atomOk hxne, hvec, hlane, hres⟩) (hown.rest hex.adds.grows)
    exact ⟨σ2, hs2, hup1.trans hup2, ha.gives⟩

lemma exprsOk (hS : Finishes c S F) (es : List Expr) {s t : LowerState} {as : List Atom}
    {σ : Point} (hrun : lowerExprs c es s = .ok (as, t)) (hF : Grows t F)
    (hwf : ∀ e ∈ es, e.erase.WellFormed c.table fun v => v ∈ V ∨ v ∈ K)
    (hwt : ∀ e ∈ es, e.WellTyped c.table c.module.varType S.fits ∧ e.ty ≠ .invalid)
    (hs : S.Stands K V s σ) (hown : S.Unowned s t) :
    ∃ σ', S.Stands K V t σ' ∧ σ.Up σ' ∧ List.Forall₂ (fun a e => S.AtomOk σ' a e.ty) as es := by
  match es with
  | [] =>
    cases pure_eq_ok.1 hrun
    exact ⟨σ, hs, .refl σ, .nil⟩
  | e :: es =>
    simp only [lowerExprs, bind_eq_ok, pure_eq_ok] at hrun
    obtain ⟨a, s1, he, as', s2, hes, hrun⟩ := hrun
    cases hrun
    obtain ⟨hwfe, hwfes⟩ := forall_mem_cons.1 hwf
    obtain ⟨⟨hwte, hne⟩, hwtes⟩ := forall_mem_cons.1 hwt
    have hee := emits_lowerExpr e hs.live he
    have h1t := (emits_lowerExprs es (hee.live hs.live) hes).adds.grows
    obtain ⟨σ1, hs1, hup1, ha⟩ := exprOk hS e he (h1t.trans hF) hwfe hwte hs (hown.first h1t)
    obtain ⟨σ2, hs2, hup2, has⟩ := exprsOk hS es hes hF hwfes hwtes hs1 (hown.rest hee.adds.grows)
    exact ⟨σ2, hs2, hup1.trans hup2, .cons ((ha.atomOk hne).up hup2) has⟩

end

end Stands

end VecLang.Ssa
