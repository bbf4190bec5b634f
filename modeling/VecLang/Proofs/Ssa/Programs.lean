import VecLang.Proofs.Analysis
import VecLang.Proofs.Ssa.Functions

/-!
# The code of programs

A program that is accepted becomes functions that each follow a plan (`compiled_of_lowerModule`).
-/

namespace VecLang.Ssa

open Stateful LowerState List Stmt Typed

/-! ## Constants -/

def constValues (n : Nat) (ks : List Const) : List (VarId × ValueId × Value) :=
  (ks.zipIdx n).map fun x => (x.1.var, x.2, x.1.value)

lemma lowerConsts_eq (ks : List Const) (s : LowerState) : lowerConsts ks s =
    .ok (constValues s.types.size ks, s.addValues (ks.map (·.value.ty))) := by
  induction ks generalizing s with
  | nil => simp [lowerConsts, constValues, addValues, pure_eq_ok]
  | cons k ks ih =>
    rw [lowerConsts]
    refine bind_eq_ok.2 ⟨s.types.size, s.addValue k.value.ty, rfl, bind_eq_ok.2 ⟨_, _, ih _, ?_⟩⟩
    rw [size_types_addValue]
    simp [constValues, addValues, addValue, pure_eq_ok]

def contextOf (m : Typed.Module) (table : SymbolTable) : LowerContext where
  module := m
  table := table
  pool := (constValues 1 m.consts).map fun x => (x.2.1, x.2.2)
  consts := (constValues 1 m.consts).map fun x => (x.1, x.2.1)

def constState (m : Typed.Module) : LowerState :=
  ({} : LowerState).addValues (m.consts.map (·.value.ty))

lemma lowerModule_eq_ok {m : Typed.Module} {table : SymbolTable} {M : Module} :
    lowerModule m table = .ok M ↔ ∃ funcs s,
      m.funcs.mapM (lowerFunc (contextOf m table)) (constState m) = .ok (funcs, s) ∧
        M = { funcs, main := m.main, pool := (contextOf m table).pool
              labels := s.labels.toList.zipIdx.map fun x => (x.2 + 1, x.1)
              types := s.types } := by
  have hconsts : lowerConsts m.consts {} = .ok (constValues 1 m.consts, constState m) :=
    lowerConsts_eq m.consts {}
  unfold lowerModule
  constructor
  · intro h
    obtain ⟨⟨consts, s0⟩, hrun, h⟩ := except_bind_eq_ok.1 h
    cases hconsts.symm.trans hrun
    obtain ⟨⟨funcs, s⟩, hrun, h⟩ := except_bind_eq_ok.1 h
    cases h
    exact ⟨funcs, s, hrun, rfl⟩
  · rintro ⟨funcs, s, hrun, rfl⟩
    exact except_bind_eq_ok.2 ⟨_, hconsts, except_bind_eq_ok.2 ⟨_, hrun, rfl⟩⟩

def funcCourse (base : LowerState) : Course LowerState where
  inv s := base.types.toList <+: s.types.toList
  step s t := s.types.toList <+: t.types.toList ∧ s.labels.size ≤ t.labels.size
  refl _ := ⟨prefix_rfl, Nat.le_refl _⟩
  trans h h' := ⟨h.1.trans h'.1, Nat.le_trans h.2 h'.2⟩

variable {c : LowerContext} {s t : LowerState}

lemma funcs_of_mapM {fs : List Typed.Func} {gs : List Func} (hnd : ∀ f ∈ fs, f.params.Nodup)
    (h : fs.mapM (lowerFunc c) s = .ok (gs, t)) : s.types.toList <+: t.types.toList ∧
    List.Forall₂ (fun f g => ∃ (u : LowerState) (r : FuncRun c f u), g = r.func ∧
      s.types.toList <+: u.types.toList ∧ r.result.types.toList <+: t.types.toList) fs gs := by
  let q (f : Typed.Func) (g : Func) (t : LowerState) : Prop := ∃ (u : LowerState) (r : FuncRun c f u),
    g = r.func ∧ s.types.toList <+: u.types.toList ∧ r.result.types.toList <+: t.types.toList
  have hq : ∀ {f g s t}, (funcCourse s).step s t → q f g s → q f g t := by
    rintro f g s' t' hstep ⟨u, r, hg, hu, hr⟩
    exact ⟨u, r, hg, hu, hr.trans hstep.1⟩
  have hall := (funcCourse s).mapM_spec (q := q) hq (fun f hf => ?_) prefix_rfl h
  · exact ⟨hall.1, hall.2.2⟩
  intro g u u' hu hrun
  obtain ⟨r, rfl, rfl⟩ := lowerFunc_eq_ok.1 hrun
  have hargs : u.types.toList <+: (funcStart c u f).types.toList := by
    simp [funcStart, LowerState.addValues]
  have hgrows := (r.adds (hnd f hf)).grows
  have htypes : u.types.toList <+: r.result.types.toList := hargs.trans hgrows.types
  exact ⟨hu.trans htypes, ⟨htypes, hgrows.labels⟩, u, r, rfl, hu, prefix_rfl⟩

/-! ## Values of constants -/

section Consts

variable {ks : List Const} {n : Nat} {id : ValueId} {v : Value} {x : VarId}

lemma mem_constValues {y : VarId × ValueId × Value} (h : y ∈ constValues n ks) :
    ∃ (k : Nat) (const : Const), ks[k]? = some const ∧ y = (const.var, n + k, const.value) := by
  obtain ⟨⟨const, i⟩, hmem, rfl⟩ := mem_map.1 h
  obtain ⟨hle, hget⟩ := mem_zipIdx_iff_le_and_getElem?_sub.1 hmem
  exact ⟨i - n, const, hget, by rw [Nat.add_sub_cancel' hle]⟩

variable {m : Typed.Module} {table : SymbolTable}

lemma types_constState {k : Nat} {const : Const} (hk : m.consts[k]? = some const) :
    (constState m).types[1 + k]? = some const.value.ty := by
  change (#[Ty.invalid] ++ (m.consts.map (·.value.ty)).toArray)[1 + k]? = _
  rw [Array.getElem?_append_right (by simp), getElem?_toArray, getElem?_map]
  simp [hk]

lemma pool_eq_some (h : (contextOf m table).pool.get? id = some v) :
    (∃ const ∈ m.consts, const.value = v) ∧ (constState m).types[id]? = some v.ty := by
  obtain ⟨y, hy, heq⟩ := mem_map.1 (Assoc.mem_of_get?_eq_some h)
  obtain ⟨k, const, hk, rfl⟩ := mem_constValues hy
  obtain ⟨rfl, rfl⟩ := Prod.mk.inj heq
  exact ⟨⟨const, mem_of_getElem? hk, rfl⟩, types_constState hk⟩

lemma consts_eq_some (h : (contextOf m table).consts.get? x = some id) :
    ((contextOf m table).pool.get? id).isSome ∧ ∃ const ∈ m.consts, const.var = x ∧
      (constState m).types[id]? = some const.value.ty := by
  obtain ⟨y, hy, heq⟩ := mem_map.1 (Assoc.mem_of_get?_eq_some h)
  have hpool : id ∈ (contextOf m table).pool.keys := by
    refine mem_map.2 ⟨_, mem_map.2 ⟨y, hy, rfl⟩, ?_⟩
    exact (Prod.mk.inj heq).2
  obtain ⟨k, const, hk, rfl⟩ := mem_constValues hy
  obtain ⟨rfl, rfl⟩ := Prod.mk.inj heq
  exact ⟨Assoc.isSome_get?_iff.2 hpool, const, mem_of_getElem? hk, rfl, types_constState hk⟩

end Consts

/-! ## Programs -/

/-- All that a machine has to know of a program in order to run it. -/
structure Compiled (table : SymbolTable) (types : VarId → Ty) (fits : Fits) (M : Module) :
    Prop where
  /-- The number zero is no value. -/
  zero : M.types[0]? = some .invalid
  pool : ∀ {id v}, M.pool.get? id = some v → v.Normal ∧ M.types[id]? = some v.ty
  funcs : ∀ g ∈ M.funcs, ∃ sym q, table.fun? g.id = some sym ∧ sym.builtin = none ∧
    g.name = sym.name ∧ g.result = sym.result ∧ Certificate ⟨M, table, fits, g, q⟩ sym.params ∧
    ∀ id v, q.owner id = some v → M.types[id]? = some (types v)
  /-- Every function that is declared has code. -/
  defined : ∀ {id sym}, table.fun? id = some sym → sym.builtin = none → ∃ g ∈ M.funcs, g.id = id
  funs : Resolved.FunsWellFormed table
  main : ∃ id sym, M.main = some id ∧ table.fun? id = some sym ∧ sym.builtin = none ∧ sym.params = []

variable {table : SymbolTable} {lo : VarId} {m : Resolved.Module} {tm : Typed.Module}
  {fits : Fits} {M : Module}

variable {g : Typed.Func}

lemma scoped_of_annotates {f : Resolved.Func} {K : List VarId} {a : VarId}
    (hann : Typing.Annotates table f g) (hwf : f.WellFormed table K a) :
    ∃ sym, table.fun? g.id = some sym ∧ sym.builtin = none ∧ g.name = sym.name ∧
      g.params = sym.params ∧ g.result = sym.result ∧
      AllScoped (fun V e => Resolved.Visible table K V e.erase) false g.params a g.body := by
  obtain ⟨hid, hname, hbody, sym, hsym, hparams, hresult⟩ := hann
  obtain ⟨sym', hsym', hbuiltin, hname', hscoped⟩ := hwf
  cases hsym.symm.trans hsym'
  refine ⟨sym, hid ▸ hsym, hbuiltin, hname.trans hname'.symm, hparams, hresult, ?_⟩
  rw [← hbody, allScoped_mapList] at hscoped
  rw [hparams]
  exact hscoped

lemma obeys_codeRules (hwt : tm.WellTyped table fits) (hg : g ∈ tm.funcs) {K : List VarId} {a : Nat}
    (hscoped : AllScoped (fun V e => Resolved.Visible table K V e.erase) false g.params a g.body)
    (hparams : ∀ p ∈ g.params, table.Has p) (hpos : 0 < a)
    (hlets : a + numLetsAll g.body ≤ table.numVars) {S : Setting} (hfits : S.fits = fits)
    (hres : S.func.result = g.result) :
    AllObey (codeRules (contextOf tm table) S) g.body := by
  have hty : ∀ v, table.Has v → tm.varType v ≠ .invalid := by
    rintro v ⟨var, hvar⟩
    exact (hwt.vars hvar).1
  have hrules := (hwt.funcs g hg).2
  rw [codeRules, hfits, hres]
  refine AllObey.and g.body hrules (AllScoped.over (P := fun v => tm.varType v ≠ .invalid)
    (fun _ _ => trivial) g.body (fun v hv => hty v (hparams v hv)) (fun v hlo hhi => hty v ?_) hscoped)
  exact SymbolTable.has_iff.2 ⟨Nat.lt_of_lt_of_le hpos hlo, Nat.lt_of_lt_of_le hhi hlets⟩

lemma func_of_accepted (hacc : Accepted table lo m tm) (hg : g ∈ tm.funcs) :
    ∃ (a : Nat) (sym : Fun), table.fun? g.id = some sym ∧ sym.builtin = none ∧ g.name = sym.name ∧
      g.params = sym.params ∧ g.result = sym.result ∧ g.params.Nodup ∧
      (∀ p : Nat, p ∈ g.params → p < a ∧ table.Has p) ∧
      (∀ v : Nat, v ∈ tm.consts.map (·.var) → v < a ∧ v ∉ g.params) ∧ 0 < a ∧
      a + numLetsAll g.body ≤ table.numVars ∧
      AllScoped (fun V e => Resolved.Visible table (tm.consts.map (·.var)) V e.erase) false
        g.params a g.body := by
  have hwf := hacc.wellFormed
  obtain ⟨f, hf, hann⟩ := exists_of_mem_right hacc.funcs hg
  obtain ⟨a, hlo, hlets, hfunc⟩ := hwf.funcs.of_mem hf
  obtain ⟨sym, hsym, hbuiltin, hname, hparams, hresult, hscoped⟩ := scoped_of_annotates hann hfunc
  have hnum : numLetsAll g.body = numLetsAll f.body := by
    rw [← hann.2.2.1, numLetsAll_mapList]
  rw [← hacc.consts] at hscoped
  refine ⟨a, sym, hsym, hbuiltin, hname, hparams, hresult, ?_, fun p hp => ?_, fun v hv => ?_,
    Nat.lt_of_lt_of_le hwf.lo_pos hlo, hnum ▸ hlets, hscoped⟩
  · rw [hparams]
    exact hwf.param_nodup hsym
  · rw [hparams] at hp
    exact ⟨Nat.lt_of_lt_of_le (hwf.param_lt hsym hp).2 hlo, hwf.has_param hsym hp⟩
  · rw [hacc.consts] at hv
    obtain ⟨k, hk, rfl⟩ := mem_map.1 hv
    rw [hparams]
    exact ⟨Nat.lt_of_lt_of_le (hwf.const_lt k hk).2 hlo, hwf.const_ne_param hsym k hk⟩

section Finish

variable {g : Typed.Func} {u : LowerState} {r : FuncRun (contextOf tm table) g u} {q : Plan}

lemma finishes_of_accepted (hacc : Accepted table lo m tm) (hwt : tm.WellTyped table fits)
    (hfits : ∀ {id g p ty}, table.fun? id = some g → p ∈ g.params → fits p ty → ty ≠ .invalid)
    (hnd : g.params.Nodup) (hq : q.Covers (contextOf tm table) r.result)
    (hpool : M.pool = (contextOf tm table).pool)
    (hbase : (constState tm).types.toList <+: M.types.toList)
    (htypes : r.result.types.toList <+: M.types.toList) :
    Finishes (contextOf tm table) ⟨M, table, fits, r.func, q⟩ r.result where
  table := rfl
  pool := hpool
  blocks := rfl
  phis := rfl
  types := htypes
  distinct := r.distinct hnd
  sites p hp := r.sites hnd hp
  owned id v hid := type?_of_begins htypes (hq.typed id v hid)
  consts v id hid := by
    obtain ⟨hsome, const, hconst, rfl, hty⟩ := consts_eq_some hid
    exact ⟨hsome, type?_of_begins hbase ((hwt.consts const hconst).1 ▸ hty)⟩
  values id v hid := by
    obtain ⟨⟨const, hconst, rfl⟩, hty⟩ := pool_eq_some hid
    exact ⟨hacc.normal const hconst, type?_of_begins hbase hty⟩
  fits := hfits

end Finish

lemma compiled_of_lowerModule (hacc : Accepted table lo m tm) (hwt : tm.WellTyped table fits)
    (hfits : ∀ {id g p ty}, table.fun? id = some g → p ∈ g.params → fits p ty → ty ≠ .invalid)
    (h : lowerModule tm table = .ok M) : Compiled table tm.varType fits M := by
  obtain ⟨gs, t, hrun, hM⟩ := lowerModule_eq_ok.1 h
  have hnd : ∀ f ∈ tm.funcs, f.params.Nodup := fun f hf => by
    obtain ⟨a, sym, -, -, -, -, -, hnd, -⟩ := func_of_accepted hacc hf
    exact hnd
  obtain ⟨hbase, hfs⟩ := funcs_of_mapM hnd hrun
  have hpool : M.pool = (contextOf tm table).pool := by rw [hM]
  have htypes : M.types = t.types := by rw [hM]
  have hfuncs : M.funcs = gs := by rw [hM]
  rw [← htypes] at hbase
  refine ⟨(type?_of_begins hbase ?_ : M.types[(0 : Nat)]? = some _), fun {id v} hid => ?_, fun g hg => ?_,
    fun {id sym} hsym hbuiltin => ?_, hacc.wellFormed.funs, ?_⟩
  · simp [constState, LowerState.addValues]
  · rw [hpool] at hid
    obtain ⟨⟨const, hconst, rfl⟩, hty⟩ := pool_eq_some hid
    exact ⟨hacc.normal const hconst, type?_of_begins hbase hty⟩
  · rw [hfuncs] at hg
    obtain ⟨f, hf, u, r, rfl, hu, hr⟩ := exists_of_mem_right hfs hg
    obtain ⟨a, sym, hsym, hbuiltin, hname, hparams, hresult, hnd, hhas, hK, hpos, hlets, hscoped⟩ :=
      func_of_accepted hacc hf
    have hsize := hu.length_le
    rw [Array.length_toList, Array.length_toList] at hsize
    have hone : 0 < (constState tm).types.size := by simp [constState, LowerState.addValues]
    obtain ⟨q, hcovers, hcert⟩ := r.exists_plan hnd (Nat.lt_of_lt_of_le hone hsize) hscoped
      (fun p hp => (hhas p hp).1) hK
    rw [← htypes] at hr
    have hS := finishes_of_accepted hacc hwt hfits hnd hcovers hpool hbase hr
    refine ⟨sym, q, hsym, hbuiltin, hname, hresult, hparams ▸ hcert _ rfl rfl hS ?_ ?_, hS.owned⟩
    · exact obeys_codeRules hwt hf hscoped (fun p hp => (hhas p hp).2) hpos hlets rfl rfl
    · intro id hid
      obtain ⟨v, hv⟩ := Option.isSome_iff_exists.1 hid
      obtain ⟨-, hty⟩ := pool_eq_some (hpool ▸ hv)
      exact Nat.lt_of_lt_of_le (Array.getElem?_eq_some_iff.1 hty).1 hsize
  · obtain ⟨f, hf, rfl⟩ := hacc.wellFormed.defined hsym hbuiltin
    obtain ⟨g, hg, hann⟩ := exists_of_mem_left hacc.funcs hf
    obtain ⟨g', hg', u, r, rfl, -⟩ := exists_of_mem_left hfs hg
    exact ⟨r.func, hfuncs ▸ hg', hann.1⟩
  · obtain ⟨id, sym, hmain, hsym, hbuiltin, hparams⟩ := hacc.wellFormed.main
    exact ⟨id, sym, by rw [hM]; exact hacc.main.trans hmain, hsym, hbuiltin, hparams⟩

end VecLang.Ssa
