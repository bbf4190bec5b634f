import VecLang.Proofs.Typing.Readout
import VecLang.Proofs.Typing.Solving

/-!
# Soundness of inference

A program that inference accepts follows the typing rules, and it is the program that went in
(`inferModule_spec`, `Annotates`). Arguments have the types that their parameters are declared
with; nothing is said about parameters without a declared type, since those keep sets of their
own.
-/

namespace VecLang.Typing

open ConstraintSets Stateful Stmt List Option SymbolTable Typed Value

variable {table : SymbolTable} {types : VarId → Ty} {s t : InferState} {τ : Assignment}

/-! ## Constants -/

lemma length_of_evalAll? {known : List (VarId × Value)} {es : List Expr}
    {vs : List Value} (h : evalAll? known es = some vs) : vs.length = es.length := by
  induction es generalizing vs with
  | nil =>
    cases h
    rfl
  | cons e es ih =>
    rw [evalAll?] at h
    split at h
    case h_1 v vs' _ hvs' =>
      cases h
      rw [length_cons, length_cons, ih hvs']
    case h_2 => cases h

lemma eval?_spec {fits : Fits} {V : VarId → Prop} {known : List (VarId × Value)}
    (hk : ∀ id v, known.lookup id = some v → v.ty = types id ∧ v.Normal) (e : Expr)
    (hwt : e.WellTyped table types fits) (hwf : e.erase.WellFormed table V) {v : Value}
    (h : e.eval? known = some v) : v.ty = e.ty ∧ v.Normal := by
  match e with
  | .lit _ _ w =>
    cases h
    exact ⟨hwt.1, hwf⟩
  | .var ty _ id =>
    obtain ⟨hty, hnormal⟩ := hk id v h
    exact ⟨hty.trans hwt.1, hnormal⟩
  | .unary ty _ op x =>
    rw [Expr.eval?] at h
    cases hx : x.eval? known with
    | none =>
      rw [hx] at h
      cases h
    | some w =>
      rw [hx] at h
      obtain ⟨hwty, hw⟩ := eval?_spec hk x hwt.1 hwf.2 hx
      obtain ⟨hres, -⟩ := unary?_spec hw.ty_ne h
      rw [hwty, hwt.2.2] at hres
      exact ⟨(Option.some.inj hres).symm, normal_of_unary? hw h⟩
  | .binary ty _ op operand scaling x y =>
    rw [Expr.eval?] at h
    cases hx : x.eval? known with
    | none =>
      rw [hx] at h
      cases h
    | some l =>
      cases hy : y.eval? known with
      | none =>
        rw [hx, hy] at h
        cases h
      | some r =>
        rw [hx, hy] at h
        obtain ⟨hlty, hl⟩ := eval?_spec hk x hwt.1 hwf.2.1 hx
        obtain ⟨hrty, -⟩ := eval?_spec hk y hwt.2.1 hwf.2.2 hy
        obtain ⟨hres, -⟩ := binary?_spec hl.ty_ne h
        rw [hlty, hrty, hwt.2.2.2.1] at hres
        exact ⟨(Option.some.inj hres).symm, normal_of_binary? hl.ty_ne h⟩
  | .call _ _ _ _ =>
    cases h
  | .pack ty _ elems =>
    rw [Expr.eval?] at h
    cases hvs : evalAll? known elems with
    | none =>
      rw [hvs] at h
      cases h
    | some vs =>
      simp only [hvs] at h
      cases hp : pack ty vs with
      | error b =>
        rw [hp] at h
        cases h
      | ok w =>
        rw [hp] at h
        cases h
        have hfloat : ∀ c ∈ Resolved.constructors, c.isFloat = true := by decide
        have hlen : vs.length = ty.lanes := (length_of_evalAll? hvs).trans hwt.2.1
        exact ⟨pack_spec hp, normal_of_pack hp (hfloat ty hwt.1) (Nat.le_of_eq hlen)⟩
  | .swizzle ty _ lanes x =>
    rw [Expr.eval?] at h
    cases hx : x.eval? known with
    | none =>
      rw [hx] at h
      cases h
    | some w =>
      simp only [hx] at h
      cases hz : w.swizzle lanes with
      | error b =>
        rw [hz] at h
        cases h
      | ok z =>
        rw [hz] at h
        cases h
        obtain ⟨hres, -⟩ := swizzle_spec hz
        rw [hwt.2.2.2] at hres
        exact ⟨(Option.some.inj hres).symm, normal_of_swizzle hz⟩

lemma bind_error {α β : Type} {x : Infer α} {f : α → Infer β} {e : Stop}
    (h : x s = .error e) : (x >>= f) s = .error e := by
  change Except.bind (x s) _ = _
  rw [h]
  rfl

/-- The constants have the types of their variables, or one of them cannot be evaluated. -/
lemma buildConsts_cases (ks : List ConstSketch) (hks : ∀ k ∈ ks, ∃ b, Built table types t k.value b ∧
      b.ty = types k.var ∧ b.erase.WellFormed table table.Has) (known : List (VarId × Value))
    (hk : ∀ id v, known.lookup id = some v → v.ty = types id ∧ v.Normal) :
    (∃ cs, buildConsts table known ks t = .ok (cs, t) ∧ cs.map (·.var) = ks.map (·.var) ∧
      ∀ c ∈ cs, c.value.ty = types c.var ∧ c.value.Normal) ∨
    ∃ k ∈ ks, buildConsts table known ks t =
      .error (.fault (.constEval k.span (table.varName k.var))) := by
  induction ks generalizing known with
  | nil => exact .inl ⟨[], rfl, rfl, forall_mem_nil _⟩
  | cons k ks ih =>
    obtain ⟨⟨b, hb, hty, hwf⟩, hks⟩ := forall_mem_cons.1 hks
    rw [buildConsts, bind_of_eq_ok hb.ok]
    cases hv : b.eval? known with
    | none => exact .inr ⟨k, mem_cons_self, rfl⟩
    | some v =>
      obtain ⟨hvty, hnormal⟩ := eval?_spec hk b hb.wellTyped hwf hv
      have hnew : v.ty = types k.var ∧ v.Normal := ⟨hvty.trans hty, hnormal⟩
      have hk' : ∀ id w, ((k.var, v) :: known).lookup id = some w → w.ty = types id ∧ w.Normal := by
        intro id w hw
        rw [lookup_cons] at hw
        split at hw
        · rename_i heq
          cases hw
          rw [eq_of_beq heq]
          exact hnew
        · exact hk id w hw
      rcases ih hks _ hk' with ⟨cs, hcs, hvars, hall⟩ | ⟨k', hk', hfail⟩
      · refine .inl ⟨⟨k.var, v⟩ :: cs, bind_of_eq_ok hcs, by rw [map_cons, map_cons, hvars], ?_⟩
        exact forall_mem_cons.2 ⟨hnew, hall⟩
      · exact .inr ⟨k', mem_cons_of_mem _ hk', bind_error hfail⟩

lemma varTypes_spec {tys : Array Ty} (h : varTypes table s = .ok (tys, t)) :
    s = t ∧ ∀ {v}, table.Has v →
      tys.getD (v - 1) .invalid = ((s.sets.typeOfVar? v).bind TypeVar.concrete?).getD .invalid := by
  obtain ⟨_, _, hg, h⟩ := bind_eq_ok.1 h
  cases get_eq_ok.1 hg
  cases pure_eq_ok.1 h
  refine ⟨rfl, fun {v} hv => ?_⟩
  obtain ⟨hpos, hlt⟩ := has_iff.1 hv
  have hlt' : v - 1 < table.vars.size := Nat.sub_one_lt_of_le hpos (Nat.le_of_lt_succ hlt)
  simp [Array.getD_eq_getD_getElem?, hlt', Nat.sub_add_cancel hpos]

/-! ## Reading off -/

lemma members_of_concrete : ∀ {tv : TypeVar} {ty : Ty}, tv.concrete? = some ty →
    tv.members = [some ty] ∧ ty ≠ .invalid := by
  decide +kernel

section Module

variable {m : Resolved.Module} {K : VarId → Prop} {r : List ConstSketch × List FuncSketch}

lemma Solved.solid (h : Solved table K m r t) : Solid table t := by
  obtain ⟨s, -, hset⟩ := h.gathers
  exact hset.solid

lemma Solved.agrees (h : Solved table K m r t) (hτ : t.Solves τ) :
    ModuleAgrees table r False τ := by
  obtain ⟨s, hg, hset⟩ := h.gathers
  rw [hset.solves] at hτ
  exact (hg.sound τ hτ.1).2

lemma Solved.mem_pending (h : Solved table K m r t) {p : Pending} :
    p ∈ t.pending ↔ p ∈ moduleProducts r := by
  obtain ⟨s, hg, hset⟩ := h.gathers
  rw [hset.pending, hg.pending]
  simp [start]

lemma Solved.ruled (h : Solved table K m r t) {p : Pending} (hp : p ∈ moduleProducts r) :
    Ruled t p := by
  obtain ⟨s, hg, hset⟩ := h.gathers
  have hperm := verdicts_perm (S := s.Solves) _ (moduleProducts r) (Nat.le_refl _)
  generalize verdicts (moduleProducts r).length s.Solves (moduleProducts r) = log at hset hperm
  -- no two operations share a result, so no two verdicts do
  have hnodup : (log.map fun q => q.1.result).Nodup := by
    have hdistinct := hg.solid.sane.distinct
    rw [hg.pending, show (start table).pending = [] from rfl, append_nil, pairwise_reverse] at hdistinct
    have hmap : ((moduleProducts r).map (·.result)).Nodup :=
      pairwise_map.2 (hdistinct.imp fun h => h.symm)
    have := (hperm.map (·.result)).nodup_iff.2 hmap
    rwa [List.map_map] at this
  obtain ⟨q, hq, rfl⟩ := mem_map.1 (hperm.mem_iff.2 hp)
  refine ⟨(hg.placed _ hp).mono hset.grows, q.2, fun τ hτ => ?_, ?_⟩
  · rw [hset.solves] at hτ
    exact hτ.2 q hq
  · rw [hset.scaled, hg.scaled]
    constructor
    · rintro (hstart | ⟨w, hw, hne, heq⟩)
      · cases hstart
      · obtain rfl := inj_on_of_nodup_map hnodup hw hq heq
        exact hne
    · exact fun hne => .inr ⟨q, hq, hne, rfl⟩

/-- When nothing is left open, every variable has the type that its set has come down to. -/
lemma Solved.closed (h : Solved table K m r t) (hopen : unresolved table t = .ok ([], t))
    (tm : Typed.Module) (htm : varTypes table t = .ok (tm.varTypes, t)) :
    Closed table tm.varType t where
  solid := h.solid
  ruled p hp := h.ruled (h.mem_pending.1 hp)
  fixed v hv := by
    obtain ⟨i, hi⟩ := h.entered v hv
    have hty : t.sets.typeOfVar? v = some (t.sets.typeOf i) := by
      rw [typeOfVar?, hi, map_some]
    obtain ⟨ty, hc⟩ := ne_none_iff_exists'.1 fun hnone =>
      unresolved_eq_nil.1 hopen v hv _ ⟨hty, hnone⟩
    have hread : tm.varType v = ty := by
      have hpos := (has_iff.1 hv).1
      rw [Typed.Module.varType, if_neg (Nat.pos_iff_ne_zero.1 hpos), (varTypes_spec htm).2 hv, hty,
        bind_some, hc, getD_some]
    obtain ⟨hmem, hne⟩ := members_of_concrete hc
    rw [hread]
    refine ⟨hne, ⟨i, hi⟩, fun τ hτ => ?_⟩
    rw [memberOf_of_ne hne]
    have hin := (hτ.sets i v (holds_of_of? h.solid.sane.indexed hi)).1
    rw [hmem] at hin
    exact mem_singleton.1 hin

lemma Solved.exists_buildConst (h : Solved table K m r t) (hm : m.Fits table)
    (hc : Closed table types t) {k : ConstSketch} (hk : k ∈ r.1) : ∃ b,
      Built table types t k.value b ∧ b.ty = types k.var ∧ b.erase.WellFormed table table.Has := by
  have hk' := hk
  rw [h.eq_sketched] at hk'
  obtain ⟨c, hcm, k', rfl⟩ := exists_of_mem_sketchedConsts m.consts hk'
  obtain ⟨σ, hσ⟩ := h.solid.exists_solves
  obtain ⟨-, hagree, heq⟩ := (h.agrees hσ).2.1 _ hk
  have hwf := wellFormed_of_consts hm.consts (forall_mem_nil _) (fun c hc => hm.has_const hc) hcm
  obtain ⟨b, hb⟩ := exists_build hc hσ c.value hwf (fun p hp =>
    h.mem_pending.2 (mem_append_left _ (mem_flatMap.2 ⟨_, hk, hp⟩))) hagree
  refine ⟨b, hb, memberOf_inj ?_, ?_⟩
  · rw [← hb.fixed.eq σ hσ]
    exact heq.symm.trans ((hc.fixed _ (hm.has_const hcm)).2.eq σ hσ)
  · rwa [hb.erase, erase_sketched]

def Annotates (table : SymbolTable) (f : Resolved.Func) (g : Func) : Prop :=
  g.id = f.id ∧ g.name = f.name ∧ mapList Expr.erase g.body = f.body ∧
    ∃ sym, table.fun? f.id = some sym ∧ g.params = sym.params ∧ g.result = sym.result

/-- A function with types, as it is read off. -/
def Typeset (table : SymbolTable) (types : VarId → Ty) (f : Resolved.Func) (g : Func) : Prop :=
  Annotates table f g ∧ g.span = f.span ∧
    AllObey (Typed.rules table types (Declared table) g.result) g.body

/-- A sketch of a well-formed expression whose operations have all been waiting. -/
def Arises (table : SymbolTable) (s : InferState) (x : Sketch) : Prop :=
  (∃ e k, x = (sketched table e k).1) ∧ ∀ p ∈ x.products, p ∈ s.pending

lemma Arises.exists_built {x : Sketch} (h : Arises table s x) (hc : Closed table types s)
    (hτ : s.Solves τ) (hwf : x.erase.WellFormed table table.Has) (hagree : x.Agrees table False τ) :
    ∃ b, build x s = .ok (b, s) ∧ b.erase = x.erase ∧ b.WellTyped table types (Declared table) ∧
      x.operand.at τ = memberOf b.ty := by
  obtain ⟨⟨e, k, rfl⟩, hprod⟩ := h
  rw [erase_sketched] at hwf
  obtain ⟨b, hb⟩ := exists_build hc hτ e hwf hprod hagree
  exact ⟨b, hb.ok, hb.erase, hb.wellTyped, hb.fixed.eq τ hτ⟩

lemma takes_build (hc : Closed table types s) (hτ : s.Solves τ) (sym : Fun) :
    (((agreement table sym.resultVar False τ).and
      (.over table.Has fun x => x.erase.WellFormed table table.Has)).and (.all (Arises table s))).Takes
      build s (Typed.rules table types (Declared table) sym.result) Expr.erase Sketch.erase where
  bind := by
    rintro v x ⟨⟨⟨-, hagree, heq⟩, hv, hwf⟩, hx⟩
    obtain ⟨b, hb, herase, hwt, hty⟩ := hx.exists_built hc hτ hwf hagree
    refine ⟨b, hb, herase, hwt, memberOf_inj ?_⟩
    rw [← hty, ← heq]
    exact (hc.fixed v hv).2.eq τ hτ
  value := by
    rintro x ⟨⟨hagree, hwf⟩, hx⟩
    obtain ⟨b, hb, herase, hwt, -⟩ := hx.exists_built hc hτ hwf hagree
    exact ⟨b, hb, herase, hwt⟩
  none := by
    rintro ⟨⟨hr, -⟩, -⟩
    by_contra hne
    have hexact : sym.resultVar = .exact sym.result := if_neg hne
    rw [hexact] at hr
    cases hr
  ret := by
    rintro x ⟨⟨⟨hagree, hmem⟩, hwf⟩, hx⟩
    obtain ⟨b, hb, herase, hwt, hty⟩ := (hx x rfl).exists_built hc hτ (hwf x rfl) hagree
    rw [hty] at hmem
    exact ⟨b, hb, herase, hwt, eq_result_of_mem_resultVar hmem⟩
  cond := by
    rintro x ⟨⟨⟨hagree, hmem⟩, hwf⟩, hx⟩
    obtain ⟨b, hb, herase, hwt, hty⟩ := hx.exists_built hc hτ hwf hagree
    rw [hty] at hmem
    exact ⟨b, hb, herase, hwt, eq_of_mem_exact hmem⟩

lemma Solved.exists_buildFunc (h : Solved table K m r t) (hm : m.Fits table)
    (hc : Closed table types t) {f : Resolved.Func} (hf : f ∈ m.funcs) {k : VarId}
    (hk : ⟨f, (sketchedStmts table f.body k).1⟩ ∈ r.2) :
    ∃ g, buildFunc table ⟨f, (sketchedStmts table f.body k).1⟩ t = .ok (g, t) ∧
      Typeset table types f g := by
  obtain ⟨a, ha, hlast, sym, hsym, -, -, hscoped⟩ := hm.funcs f hf
  obtain ⟨σ, hσ⟩ := h.solid.exists_solves
  have hagree := (h.agrees hσ).2.2 _ hk sym hsym
  have herase : mapList Sketch.erase (sketchedStmts table f.body k).1 = f.body :=
    mapList_mapListM erase_sketched f.body k
  have hover : AllObey (.over table.Has fun x => x.erase.WellFormed table table.Has)
      (sketchedStmts table f.body k).1 := by
    rw [← herase, allScoped_mapList] at hscoped
    rw [← herase, numLetsAll_mapList] at hlast
    refine hscoped.over (fun hV he => ?_) _ (fun v hv => hm.has_param hsym hv) fun v hlo hhi => ?_
    · refine he.mono (fun _ _ => id) (fun v hv => hv.elim (hV v) fun hv => ?_) _
      obtain ⟨c, hc, rfl⟩ := mem_map.1 hv
      exact hm.has_const hc
    · exact has_iff.2 ⟨Nat.lt_of_lt_of_le ha hlo, Nat.lt_of_lt_of_le hhi hlast⟩
  have harise : AllObey (.all (Arises table t)) (sketchedStmts table f.body k).1 := by
    refine (allObey_all _).2 fun x hx => ⟨?_, fun p hp => ?_⟩
    · obtain ⟨e, -, k', rfl⟩ := exists_of_mem_mapListM f.body hx
      exact ⟨e, k', rfl⟩
    · exact h.mem_pending.2 (mem_append_right _ (mem_flatMap.2 ⟨_, hk, mem_flatMap.2 ⟨x, hx, hp⟩⟩))
  obtain ⟨body, hbody, hsame, hobey⟩ :=
    exists_mapListM (takes_build hc hσ sym) _ ((hagree.and _ hover).and _ harise)
  refine ⟨⟨f.id, f.name, sym.params, sym.result, body, f.span⟩, ?_,
    ⟨rfl, rfl, hsame.trans herase, sym, hsym, rfl, rfl⟩, rfl, hobey⟩
  rw [buildFunc, hsym]
  exact bind_of_eq_ok hbody

lemma exists_buildFuncs {P : Resolved.Func → Func → Prop} {fs : List Resolved.Func} {ks : List FuncSketch}
    (h : List.Forall₂ (fun f k => ∃ g, buildFunc table k t = .ok (g, t) ∧ P f g) fs ks) :
    ∃ gs, ks.mapM (buildFunc table) t = .ok (gs, t) ∧ List.Forall₂ P fs gs := by
  induction h with
  | nil => exact ⟨[], rfl, .nil⟩
  | cons hg _ ih =>
    obtain ⟨g, hg, hP⟩ := hg
    obtain ⟨gs, hgs, hPs⟩ := ih
    exact ⟨g :: gs, mapM_cons_eq_ok.2 ⟨g, t, gs, t, hg, hgs, rfl⟩, .cons hP hPs⟩

lemma Solved.exists_buildFuncs (h : Solved table K m r t) (hm : m.Fits table)
    (hc : Closed table types t) : ∃ gs, r.2.mapM (buildFunc table) t = .ok (gs, t) ∧
      List.Forall₂ (Typeset table types) m.funcs gs := by
  have hall := forall₂_sketchedFuncs table m.funcs
    (m.consts.mapM (sketchedConst table) table.numVars).2
  have hr : r.2 = (m.funcs.mapM (sketchedFunc table)
      (m.consts.mapM (sketchedConst table) table.numVars).2).1 := by
    rw [h.eq_sketched]
    rfl
  rw [← hr, forall₂_iff_zip] at hall
  refine Typing.exists_buildFuncs (forall₂_iff_zip.2 ⟨hall.1, fun {f k} hfk => ?_⟩)
  obtain ⟨hf, hk⟩ := of_mem_zip hfk
  obtain ⟨k', rfl⟩ := hall.2 hfk
  exact h.exists_buildFunc hm hc hf hk

/-- What is read off is read off a state in which everything is settled. -/
structure Reads (table : SymbolTable) (m : Resolved.Module)
    (r : List ConstSketch × List FuncSketch) (t : InferState) (tm : Typed.Module) : Prop where
  types : varTypes table t = .ok (tm.varTypes, t)
  closed : Closed table tm.varType t
  consts : buildConsts table [] r.1 t = .ok (tm.consts, t)
  vars : tm.consts.map (·.var) = m.consts.map (·.var)
  values : ∀ c ∈ tm.consts, c.value.ty = tm.varType c.var ∧ c.value.Normal
  funcs : List.Forall₂ (Typeset table tm.varType) m.funcs tm.funcs
  main : tm.main = m.main

lemma Solved.reads (h : Solved table K m r t) (hm : m.Fits table) {tm : Typed.Module}
    {u : InferState} (hr : readOut m table r t = .ok (.ok tm, u)) : Reads table m r t tm := by
  obtain ⟨vs, fs, hopen, -⟩ := exists_unresolved table t
  obtain ⟨tys, htys⟩ : ∃ tys, varTypes table t = .ok (tys, t) := ⟨_, rfl⟩
  rw [readOut, bind_of_eq_ok hopen] at hr
  by_cases hfs : fs ≠ []
  · rw [if_pos hfs] at hr
    cases pure_eq_ok.1 hr
  obtain rfl : fs = [] := not_not.1 hfs
  rw [if_neg hfs, bind_of_eq_ok htys] at hr
  have hc := h.closed hopen ⟨[], [], m.main, tys⟩ htys
  rcases buildConsts_cases r.1 (fun k hk => h.exists_buildConst hm hc hk) [] nofun with
    ⟨cs, hcs, hvars, hvalues⟩ | ⟨k, hk, hfail⟩
  · obtain ⟨gs, hgs, hfuncs⟩ := h.exists_buildFuncs hm hc
    rw [bind_of_eq_ok hcs, bind_of_eq_ok hgs] at hr
    cases pure_eq_ok.1 hr
    refine ⟨htys, hc, hcs, ?_, hvalues, hfuncs, rfl⟩
    rw [hvars, h.eq_sketched]
    exact map_var_sketchedConsts m.consts _
  · rw [bind_error hfail] at hr
    cases hr

/-- A program that inference accepts is the program that went in, and it follows the typing
rules. -/
lemma inferModule_spec (hm : m.Fits table) {tm : Typed.Module}
    (h : inferModule m table { nextTemp := table.numVars } = .ok (.ok tm, t)) :
    tm.WellTyped table (Declared table) ∧ tm.consts.map (·.var) = m.consts.map (·.var) ∧
      List.Forall₂ (Annotates table) m.funcs tm.funcs ∧ tm.main = m.main ∧
      ∀ c ∈ tm.consts, c.value.Normal := by
  rw [inferModule_eq] at h
  obtain ⟨r, s, hrun, hr⟩ := bind_eq_ok.1 h
  have hsolve := ends_solve hm (.of_none m)
  unfold Ends at hsolve
  rw [show solve m table (start table) = _ from hrun] at hsolve
  have hreads := Solved.reads hsolve hm hr
  refine ⟨⟨fun {v var} hvar => ⟨(hreads.closed.fixed v ⟨var, hvar⟩).1, hreads.closed.declared hvar⟩,
    fun c hc => ⟨(hreads.values c hc).1, (hreads.values c hc).2.canonical⟩, fun g hg => ?_⟩,
    hreads.vars, hreads.funcs.imp fun _ _ h => h.1, hreads.main, fun c hc => (hreads.values c hc).2⟩
  obtain ⟨f, -, ⟨hid, -, -, sym, hsym, hpar, hres⟩, -, hobey⟩ := exists_of_mem_right hreads.funcs hg
  exact ⟨⟨sym, hid ▸ hsym, hpar, hres⟩, hobey⟩

end Module

end VecLang.Typing
