import VecLang.Proofs.Typed.Annotate
import VecLang.Proofs.Typing.Order

/-!
# Programs whose functions stand in another order

If the types of arguments are evident where they stand, or those of their parameters are declared,
inference does not depend on the order of functions: it succeeds for all orders or for none, and
it finds the same types for all variables and all operators.

## Main results

* `infer_perm`: the order of functions does not matter when arguments are evident.
* `infer_order_matters`: it matters in general, because a call looks only at the types that are
  known when it is met.
-/

namespace VecLang.Typing

open ConstraintSets Stateful Stmt List Option Resolved SymbolTable

variable {table : SymbolTable} {K : VarId → Prop} {m : Resolved.Module} {s t : InferState}
  {τ : Assignment}

/-! ## Functions have variables of their own -/

lemma mem_lets_iff {consts : List VarId} {lo v : Nat} {f : Func}
    (hf : f.WellFormed table consts lo) :
    v ∈ (letsAll f.body).map Prod.fst ↔ lo ≤ v ∧ v < lo + numLetsAll f.body := by
  obtain ⟨sym, -, -, -, hscoped⟩ := hf
  rw [map_fst_letsAll f.body hscoped, mem_range'_1]

variable {fs : List Func}

lemma lets_apart {consts : List VarId} {lo : VarId} (h : FuncsWellFormed table consts lo fs) :
    fs.Pairwise fun f g => ∀ v, v ∈ (letsAll f.body).map Prod.fst →
      v ∉ (letsAll g.body).map Prod.fst := by
  induction fs generalizing lo with
  | nil => exact .nil
  | cons f fs ih =>
    refine pairwise_cons.2 ⟨fun g hg v hv hv' => ?_, ih h.2⟩
    obtain ⟨a, ha, -, hgood⟩ := h.2.of_mem hg
    have hlt := ((mem_lets_iff h.1).1 hv).2
    have hge := ((mem_lets_iff hgood).1 hv').1
    exact absurd (Nat.lt_of_lt_of_le hlt ha) (Nat.not_lt.2 hge)

lemma Orderly.of_wellFormed {lo : VarId} (hwf : m.WellFormed table lo)
    (hb : Grounded table K m) (he : ArgumentsEvident table K m) :
    Orderly table K m.consts m.funcs where
  consts := hwf.consts
  constsEvident := he.1
  constsHas c hc := (has_iff.1 (hwf.has_const hc)).2
  params := hb.params
  paramsHas id f hf p hp := (has_iff.1 (hwf.has_param hf hp)).2
  fits := hwf.fits.funcs
  evident := he.2
  lets := hb.lets
  apart := by
    have hids : m.funcs.Pairwise fun f g => f.id ≠ g.id := pairwise_map.1 hwf.id_nodup
    refine (hids.and (lets_apart hwf.funcs)).imp_of_mem fun {f g} hf hg h v hv hv' => ?_
    obtain ⟨a, ha, -, hgood⟩ := hwf.funcs.of_mem hf
    obtain ⟨b, hb, -, hgood'⟩ := hwf.funcs.of_mem hg
    rcases hv with ⟨sym, hsym, hv⟩ | hv <;> rcases hv' with ⟨sym', hsym', hv'⟩ | hv'
    · exact h.1 (hwf.param_owner hsym hsym' hv hv')
    -- parameters come before the variables of bodies
    · have hge := ((mem_lets_iff hgood').1 hv').1
      exact absurd (hwf.param_lt hsym hv).2 (Nat.not_lt.2 (Nat.le_trans hb hge))
    · have hge := ((mem_lets_iff hgood).1 hv).1
      exact absurd (hwf.param_lt hsym' hv').2 (Nat.not_lt.2 (Nat.le_trans ha hge))
    · exact h.2 v hv hv'
  aside f hf v hv := by
    obtain ⟨a, ha, hlast, hgood⟩ := hwf.funcs.of_mem hf
    rcases hv with ⟨sym, hsym, hv⟩ | hv
    · refine ⟨fun hc => ?_, (has_iff.1 (hwf.has_param hsym hv)).2⟩
      obtain ⟨c, hc', rfl⟩ := List.mem_map.1 hc
      exact hwf.const_ne_param hsym c hc' hv
    · obtain ⟨hge, hlt⟩ := (mem_lets_iff hgood).1 hv
      refine ⟨fun hc => ?_, Nat.lt_of_lt_of_le hlt hlast⟩
      obtain ⟨c, hc', rfl⟩ := List.mem_map.1 hc
      exact absurd (hwf.const_lt c hc').2 (Nat.not_lt.2 (Nat.le_trans ha hge))

/-- What is demanded of a program does not mention the order of its functions. -/
structure Demands (table : SymbolTable) (K : VarId → Prop) (m : Resolved.Module) : Prop where
  fits : m.Fits table
  orderly : Orderly table K m.consts m.funcs
  grounded : Grounded table K m
  evident : ArgumentsEvident table K m

lemma Demands.perm (h : Demands table K m) (hp : fs.Perm m.funcs) :
    Demands table K { m with funcs := fs } where
  fits := h.fits.perm hp
  orderly := h.orderly.perm hp.symm
  grounded := ⟨h.grounded.params, h.grounded.consts,
    fun f hf => h.grounded.lets f (hp.mem_iff.1 hf)⟩
  evident := ⟨h.evident.1, fun f hf => h.evident.2 f (hp.mem_iff.1 hf)⟩

/-! ## What is left of a program -/

lemma sketchedModule_eq (m : Resolved.Module) : (sketchedModule table m table.numVars).1 =
    (constsOf table m.consts,
      (places (table.numVars + constSize m.consts) m.funcs).map (Site.sketch table)) := by
  simp only [sketchedModule, run_bind, run_pure, sketchedConsts_snd, sketchedFuncs_eq]
  rfl

lemma moduleProducts_eq (m : Resolved.Module) :
    moduleProducts (sketchedModule table m table.numVars).1 =
      constProducts (constsOf table m.consts) ++
        siteProducts table (places (table.numVars + constSize m.consts) m.funcs) := by
  rw [sketchedModule_eq, moduleProducts, flatMap_map]
  rfl

lemma Sums.kept_eq (h : Sums table K m (sketchedModule table m table.numVars).1 s)
    (he : ArgumentsEvident table K m) :
    Kept s.Solves (verdicts (moduleProducts (sketchedModule table m table.numVars).1).length
      s.Solves (moduleProducts (sketchedModule table m table.numVars).1)) =
      LeftOf table m.consts m.funcs := by
  have hsolves : s.Solves = Sol table (constsOf table m.consts)
      (places (table.numVars + constSize m.consts) m.funcs) := by
    funext τ
    rw [Sol, ← sketchedModule_eq]
    refine propext ⟨fun hτ => ⟨hτ.proper, h.strict he τ hτ⟩, fun hτ => ?_⟩
    exact h.complete τ ⟨hτ.1, solves_init τ⟩ hτ.2
  rw [moduleProducts_eq, hsolves]
  rfl

lemma ends_solve_left (h : Demands table K m) : Ends (solve m table) (start table)
      (fun r t => Solved table K m r t ∧ t.Solves = LeftOf table m.consts m.funcs)
      (∀ τ, ¬ LeftOf table m.consts m.funcs τ) := by
  refine (ends_solve h.fits h.grounded).mono ?_ ?_
  · intro r t _ hsolved
    obtain ⟨s, hsums, hset⟩ := hsolved.gathers
    refine ⟨hsolved, ?_⟩
    obtain rfl := hsolved.eq_sketched
    rw [hset.solves, hsums.kept_eq h.evident]
  · rintro (hno | ⟨s, hsums, hno⟩)
    · intro τ hτ
      have hsol := hτ.1
      rw [Sol, ← sketchedModule_eq] at hsol
      exact hno τ hsol.1 hsol.2
    · rwa [hsums.kept_eq h.evident] at hno

/-! ## The typed program -/

variable {tm : Typed.Module}

section Readout

variable {types : VarId → Ty} {r : List ConstSketch × List FuncSketch}

lemma eq_annotateFunc {f : Func} {g : Typed.Func} (hg : Annotates table f g)
    (hspan : g.span = f.span)
    (hobey : AllObey (Typed.rules table types (Typed.Declared table) g.result) g.body) :
    g = Typed.annotateFunc table types f := by
  obtain ⟨hid, hname, hbody, sym, hsym, hparams, hresult⟩ := hg
  have hbody' := Typed.mapList_annotate hobey
  rw [hbody] at hbody'
  cases g
  simp only [Typed.annotateFunc, hsym, map_some, getD_some, Typed.Func.mk.injEq]
  exact ⟨hid, hname, hparams, hresult, hbody'.symm, hspan⟩

lemma eq_annotate {x : Sketch} {b : Typed.Expr} (h : Built table types t x b) :
    build x t = .ok (Typed.annotate table types x.erase, t) := by
  rw [h.ok, ← h.erase, Typed.annotate_erase b h.wellTyped]

lemma buildConsts_congr (ks : List ConstSketch)
    (hks : ∀ k ∈ ks, ∃ b, build k.value s = .ok (b, s) ∧ build k.value t = .ok (b, t))
    {known : List (VarId × Value)} {cs : List Typed.Const} {u : InferState}
    (h : buildConsts table known ks s = .ok (cs, u)) :
    buildConsts table known ks t = .ok (cs, t) := by
  induction ks generalizing known cs with
  | nil =>
    rw [buildConsts] at h ⊢
    cases pure_eq_ok.1 h
    rfl
  | cons k ks ih =>
    obtain ⟨⟨b, hb, hb'⟩, hks⟩ := forall_mem_cons.1 hks
    rw [buildConsts, bind_of_eq_ok hb] at h
    rw [buildConsts, bind_of_eq_ok hb']
    cases hv : b.eval? known with
    | none =>
      rw [hv] at h
      exact absurd h throw_ne_ok
    | some v =>
      rw [hv] at h
      obtain ⟨rest, s1, hrest, h⟩ := bind_eq_ok.1 h
      cases pure_eq_ok.1 h
      exact bind_eq_ok.2 ⟨rest, t, ih hks hrest, pure_eq_ok.2 rfl⟩

lemma Reads.funcs_eq (h : Reads table m r t tm) :
    tm.funcs = m.funcs.map (Typed.annotateFunc table tm.varType) := by
  have hmap : tm.funcs.map id = m.funcs.map (Typed.annotateFunc table _) :=
    map_eq_of_forall₂ h.funcs fun f _ g hg => eq_annotateFunc hg.1 hg.2.1 hg.2.2
  rwa [List.map_id] at hmap

lemma Closed.concrete (h : Closed table types t) {v : VarId} (hv : table.Has v) :
    (t.sets.typeOfVar? v).bind TypeVar.concrete? = some (types v) := by
  obtain ⟨hne, hfix⟩ := h.fixed v hv
  have htype : t.sets.typeOfVar? v = _ := hfix.type? h.solid
  rw [htype, bind_some, if_neg hne]
  cases hty : types v with
  | invalid => exact absurd hty hne
  | _ => rfl

lemma unresolved_of_closed (h : Closed table types t) : unresolved table t = .ok ([], t) := by
  refine unresolved_eq_nil.2 fun v hv tv htv => ?_
  have hc := h.concrete hv
  rw [htv.1, bind_some, htv.2] at hc
  cases hc

lemma varTypes_congr {t' : InferState} {tys : Array Ty} (h : Closed table types t)
    (h' : Closed table types t') (htys : varTypes table t = .ok (tys, t)) :
    varTypes table t' = .ok (tys, t') := by
  have hread (u : InferState) : varTypes table u = .ok (((List.range table.vars.size).map fun i =>
      ((u.sets.typeOfVar? (i + 1)).bind TypeVar.concrete?).getD .invalid).toArray, u) := rfl
  rw [hread] at htys ⊢
  cases htys
  congr 3
  refine map_congr_left fun i hi => ?_
  have hhas : table.Has (i + 1) := by
    rw [mem_range] at hi
    exact has_iff.2 ⟨Nat.succ_pos i, Nat.succ_lt_succ hi⟩
  rw [h.concrete hhas, h'.concrete hhas]

lemma Reads.of_same {m' : Resolved.Module} {r' : List ConstSketch × List FuncSketch}
    {t' : InferState} (h : Reads table m r t tm) (hs : Solved table K m r t)
    (hm : m.Fits table) (hs' : Solved table K m' r' t') (hm' : m'.Fits table) (hr : r'.1 = r.1)
    (hmain : m'.main = m.main)
    (hsame : ∀ σ, t'.Solves σ → ∃ τ, t.Solves τ ∧ ∀ v < table.numVars, τ v = σ v) :
    ∃ tm', readOut m' table r' t' = .ok (.ok tm', t') ∧ tm'.varTypes = tm.varTypes ∧
      tm'.consts = tm.consts ∧ tm'.main = tm.main := by
  have hclosed : Closed table tm.varType t' := by
    refine ⟨hs'.solid, fun p hp => hs'.ruled (hs'.mem_pending.1 hp), fun v hv => ?_⟩
    obtain ⟨hne, hfix⟩ := h.closed.fixed v hv
    refine ⟨hne, hs'.entered v hv, fun σ hσ => ?_⟩
    obtain ⟨τ, hτ, heq⟩ := hsame σ hσ
    exact (heq v (has_iff.1 hv).2).symm.trans (hfix.eq τ hτ)
  have hconsts : buildConsts table [] r'.1 t' = .ok (tm.consts, t') := by
    rw [hr]
    refine buildConsts_congr r.1 (fun k hk => ?_) h.consts
    obtain ⟨b, hb, -⟩ := hs.exists_buildConst hm h.closed hk
    obtain ⟨b', hb', -⟩ := hs'.exists_buildConst hm' hclosed (by rwa [hr])
    exact ⟨_, eq_annotate hb, eq_annotate hb'⟩
  obtain ⟨gs, hgs, -⟩ := hs'.exists_buildFuncs hm' hclosed
  refine ⟨⟨tm.consts, gs, m'.main, tm.varTypes⟩, ?_, rfl, rfl, hmain.trans h.main.symm⟩
  rw [readOut, bind_of_eq_ok (unresolved_of_closed hclosed), if_neg (not_not.2 rfl),
    bind_of_eq_ok (varTypes_congr h.closed hclosed h.types), bind_of_eq_ok hconsts,
    bind_of_eq_ok hgs]
  rfl

end Readout

/-! ## Any order -/

lemma infer_eq_ok : infer m table = .ok (.ok tm) ↔
      ∃ r t u, solve m table (start table) = .ok (r, t) ∧
        readOut m table r t = .ok (.ok tm, u) := by
  constructor
  · intro h
    obtain ⟨u, hu⟩ := inferModule_of_infer h
    rw [show ({ nextTemp := table.numVars } : InferState) = start table from rfl,
      inferModule_eq] at hu
    obtain ⟨r, t, hr, ht⟩ := bind_eq_ok.1 hu
    exact ⟨r, t, u, hr, ht⟩
  · rintro ⟨r, t, u, hr, ht⟩
    refine infer_of_ok (t := u) ?_
    rw [inferModule_eq]
    exact bind_eq_ok.2 ⟨r, t, hr, ht⟩

lemma Demands.infer_of_perm (h : Demands table K m)
    (hp : fs.Perm m.funcs) (htm : infer m table = .ok (.ok tm)) :
    ∃ tm', infer { m with funcs := fs } table = .ok (.ok tm') ∧ tm'.varTypes = tm.varTypes ∧
      tm'.consts = tm.consts ∧ tm'.main = tm.main ∧
      tm.funcs = m.funcs.map (Typed.annotateFunc table tm.varType) ∧
      tm'.funcs = fs.map (Typed.annotateFunc table tm.varType) := by
  have h' := h.perm hp
  obtain ⟨r, t, u, hr, ht⟩ := infer_eq_ok.1 htm
  have hsolve := ends_solve_left h
  have hsolve' := ends_solve_left h'
  unfold Ends at hsolve hsolve'
  rw [hr] at hsolve
  obtain ⟨hs, hleft⟩ := hsolve
  -- an assignment that is left in one order gives one that is left in the other
  obtain ⟨σ, hσ⟩ := hs.solid.exists_solves
  rw [hleft] at hσ
  obtain ⟨ρ, hρ, -⟩ := left_perm hp.symm h.orderly hσ
  cases hr' : solve { m with funcs := fs } table (start table) with
  | error e =>
    rw [hr'] at hsolve'
    cases e with
    | broken b => exact hsolve'.elim
    | fault f =>
      cases f with
      | mismatch span required got => exact absurd hρ (hsolve' ρ)
      | couldNotInfer span name got => exact hsolve'.elim
      | constEval span name => exact hsolve'.elim
  | ok p =>
    obtain ⟨r', t'⟩ := p
    rw [hr'] at hsolve'
    obtain ⟨hs', hleft'⟩ := hsolve'
    have hreads := hs.reads h.fits ht
    have hconsts : r'.1 = r.1 := by
      rw [hs.eq_sketched, hs'.eq_sketched, sketchedModule_eq, sketchedModule_eq]
    obtain ⟨tm', ht', htypes, hcs, hmain⟩ := hreads.of_same hs h.fits hs' h'.fits hconsts rfl
      fun ρ hρ => by
        rw [hleft'] at hρ
        obtain ⟨τ, hτ, heq⟩ := left_perm hp h'.orderly hρ
        exact ⟨τ, hleft ▸ hτ, fun v hv => (heq v hv).symm⟩
    have hvar : tm'.varType = tm.varType := by
      funext v
      rw [Typed.Module.varType, Typed.Module.varType, htypes]
    refine ⟨tm', infer_eq_ok.2 ⟨r', t', t', hr', ht'⟩, htypes, hcs, hmain, hreads.funcs_eq, ?_⟩
    rw [← hvar]
    exact (hs'.reads h'.fits ht').funcs_eq

/-- The order of functions does not matter if the types of arguments are evident or those of their
parameters are declared: inference succeeds in every order or in none. It gives all variables the
same types, all constants the same values, and each function the same annotations. -/
theorem infer_perm {lexemes : List Lexeme} {maxErrors : Nat} {r : Resolved.Resolution}
    (hr : Resolved.resolve (Syntax.parse lexemes maxErrors).module = r)
    (hclean : r.diagnostics.any Diagnostic.isError = false)
    (hgrounded : Grounded r.table K r.module) (hevident : ArgumentsEvident r.table K r.module)
    {fs : List Resolved.Func} (hp : fs.Perm r.module.funcs) :
    ((∃ tm, infer r.module r.table = .ok (.ok tm)) ↔
      ∃ tm, infer { r.module with funcs := fs } r.table = .ok (.ok tm)) ∧
    ∀ tm tm', infer r.module r.table = .ok (.ok tm) →
      infer { r.module with funcs := fs } r.table = .ok (.ok tm') →
      tm'.varTypes = tm.varTypes ∧ tm'.consts = tm.consts ∧ tm'.main = tm.main ∧
        ∃ typed : Resolved.Func → Typed.Func,
          tm.funcs = r.module.funcs.map typed ∧ tm'.funcs = fs.map typed := by
  subst hr
  obtain ⟨lo, hwf⟩ := wellFormed_of_resolve (Syntax.valid_of_parse lexemes maxErrors) hclean
  have h : Demands _ K _ := ⟨hwf.fits, .of_wellFormed hwf hgrounded hevident, hgrounded, hevident⟩
  refine ⟨⟨fun ⟨tm, htm⟩ => ?_, fun ⟨tm, htm⟩ => ?_⟩, fun tm tm' htm htm' => ?_⟩
  · obtain ⟨tm', htm', -⟩ := h.infer_of_perm hp htm
    exact ⟨tm', htm'⟩
  · obtain ⟨tm', htm', -⟩ := (h.perm hp).infer_of_perm hp.symm htm
    exact ⟨tm', htm'⟩
  · obtain ⟨tm'', htm'', htypes, hconsts, hmain, hfuncs, hfuncs'⟩ := h.infer_of_perm hp htm
    cases htm'.symm.trans htm''
    exact ⟨htypes, hconsts, hmain, _, hfuncs, hfuncs'⟩

/-! ## Evidence can be checked -/

section Decidable

variable (table K) [DecidablePred K]

instance (p : VarId) : Decidable (Stated table p) :=
  decidable_of_iff (∃ var ∈ (table.var? p).toList, var.declared ≠ .invalid) <| by
    simp only [mem_toList, Stated]

def decidableEvident : (e : Expr) → Decidable (Evident K e)
  | .lit _ _ | .call _ _ _ | .pack _ _ _ | .swizzle _ _ _ => .isTrue trivial
  | .var _ v => inferInstanceAs (Decidable (K v))
  | .unary _ _ x => decidableEvident x
  | .binary _ op x y =>
    have := decidableEvident x
    have := decidableEvident y
    inferInstanceAs (Decidable (op.isLogic ∨ op.isRel ∨
      ¬ (op = .mul ∨ op = .div) ∧ (Evident K x ∨ Evident K y)))

instance (e : Expr) : Decidable (Evident K e) := decidableEvident K e

mutual

def decidableCallsEvident : (e : Expr) → Decidable (CallsEvident table K e)
  | .lit _ _ | .var _ _ => .isTrue trivial
  | .unary _ _ x | .swizzle _ _ x => decidableCallsEvident x
  | .binary _ _ x y =>
    have := decidableCallsEvident x
    have := decidableCallsEvident y
    inferInstanceAs (Decidable (_ ∧ _))
  | .call _ callee args =>
    match hf : table.fun? callee with
    | none => .isTrue fun _ h => by cases hf.symm.trans h
    | some f =>
      have := decidableArgsEvident args f.params
      decidable_of_iff (ArgsEvident table K args f.params)
        ⟨fun h g hg => by cases hf.symm.trans hg; exact h, fun h => h f hf⟩
  | .pack _ _ elems => decidableAllCallsEvident elems

def decidableArgsEvident : (es : List Expr) → (ps : List VarId) →
    Decidable (ArgsEvident table K es ps)
  | [], _ => .isTrue trivial
  | _ :: _, [] => .isTrue trivial
  | e :: es, p :: ps =>
    have := decidableCallsEvident e
    have := decidableArgsEvident es ps
    inferInstanceAs (Decidable (CallsEvident table K e ∧ (Evident K e ∨ Stated table p) ∧
      ArgsEvident table K es ps))

def decidableAllCallsEvident : (es : List Expr) → Decidable (AllCallsEvident table K es)
  | [] => .isTrue trivial
  | e :: es =>
    have := decidableCallsEvident e
    have := decidableAllCallsEvident es
    inferInstanceAs (Decidable (_ ∧ _))

end

instance (e : Expr) : Decidable (CallsEvident table K e) := decidableCallsEvident table K e

instance (b : VarId × Expr) : Decidable (Grounds table K b) :=
  inferInstanceAs (Decidable (K b.1 → Stated table b.1 ∨ Evident K b.2))

instance : Decidable (ParamsGrounded table K) :=
  inferInstanceAs (Decidable (∀ f ∈ table.funs, ∀ p ∈ f.params, K p → Stated table p))

instance (m : Resolved.Module) : Decidable (Grounded table K m) :=
  decidable_of_iff (ParamsGrounded table K ∧ (∀ c ∈ m.consts, Grounds table K (c.var, c.value)) ∧
      ∀ f ∈ m.funcs, ∀ b ∈ letsAll f.body, Grounds table K b)
    ⟨fun h => ⟨h.1, h.2.1, h.2.2⟩, fun h => ⟨h.params, h.consts, h.lets⟩⟩

instance (m : Resolved.Module) : Decidable (ArgumentsEvident table K m) :=
  inferInstanceAs (Decidable ((∀ c ∈ m.consts, CallsEvident table K c.value) ∧
    ∀ f ∈ m.funcs, ∀ e ∈ exprsAll f.body, CallsEvident table K e))

end Decidable

/-! ## Programs -/

def succeeds (x : Except Breakdown (Except (List TypeFault) Typed.Module)) : Bool :=
  x.toOption.bind Except.toOption |>.isSome

lemma succeeds_iff {x : Except Breakdown (Except (List TypeFault) Typed.Module)} :
    succeeds x = true ↔ ∃ tm, x = .ok (.ok tm) := by
  rcases x with b | fs | tm
  · exact ⟨nofun, nofun⟩
  · exact ⟨nofun, nofun⟩
  · exact ⟨fun _ => ⟨tm, rfl⟩, fun _ => rfl⟩

/-- A function that scales a vector, called before it is declared with a variable whose type is
evident. -/
def callBeforeUse : Resolution := namesOf
    ("fn main() \x7b let a = vec2(1.0, 2.0); let b = scale(a, 3.0); \x7d\n" ++
      "fn scale(v, k) -> vec2 \x7b return v * k; \x7d\n")

theorem infer_callBeforeUse : ∃ tm tm',
    infer callBeforeUse.module callBeforeUse.table = .ok (.ok tm) ∧
    infer { callBeforeUse.module with funcs := callBeforeUse.module.funcs.reverse }
      callBeforeUse.table = .ok (.ok tm') ∧ tm'.varTypes = tm.varTypes := by
  have h := infer_perm (K := (· = 6)) (r := callBeforeUse) rfl (by decide +kernel)
    (by decide +kernel) (by decide +kernel) (reverse_perm callBeforeUse.module.funcs)
  obtain ⟨tm, htm⟩ := succeeds_iff.1
    (show succeeds (infer callBeforeUse.module callBeforeUse.table) = true by decide +kernel)
  obtain ⟨tm', htm'⟩ := h.1.1 ⟨tm, htm⟩
  exact ⟨tm, tm', htm, htm', (h.2 tm tm' htm htm').1⟩

def passedOn : Resolution := namesOf
    ("fn f(a) \x7b g(a); \x7d\n" ++ "fn g(b) \x7b let z = b; \x7d\n" ++
      "fn main() \x7b f(2); \x7d\n")

/-- In general the order of functions matters. When the call of `g` is met nothing is known of its
argument yet, unless the call of `f` was met before. -/
theorem infer_order_matters : passedOn.diagnostics.any Diagnostic.isError = false ∧
    (¬ ∃ tm, infer passedOn.module passedOn.table = .ok (.ok tm)) ∧
    ∃ fs, fs.Perm passedOn.module.funcs ∧
      ∃ tm, infer { passedOn.module with funcs := fs } passedOn.table = .ok (.ok tm) := by
  refine ⟨by decide +kernel, ?_, passedOn.module.funcs.drop 2 ++ passedOn.module.funcs.take 2,
    ?_, ?_⟩
  · rw [← succeeds_iff]
    decide +kernel
  · exact perm_append_comm.trans (.of_eq (take_append_drop 2 _))
  · rw [← succeeds_iff]
    decide +kernel

end VecLang.Typing
