import VecLang.Proofs.Typing.Verdicts

/-!
# Solving the demands of a program

Inference gathers the demands of a program and settles products and quotients (`solve`); then it
reads off the typed program (`readOut`). Solving comes to an end unless demands or verdicts cannot
be met (`ends_solve`). Then every variable has a set, and the variables whose type is open are
told in order (`exists_unresolved`).
-/

namespace VecLang.Typing

open ConstraintSets Stateful Stmt List Resolved SymbolTable

variable {table : SymbolTable} {s t : InferState} {τ : Assignment}

/-! ## Solving -/

def gather (m : Resolved.Module) (table : SymbolTable) :
    Infer (List ConstSketch × List FuncSketch) := do
  addParams table
  let consts ← m.consts.mapM (sketchConst table)
  let funcs ← m.funcs.mapM (sketchFunc table)
  return (consts, funcs)

/-- Gather the demands of a program and settle products and quotients. -/
def solve (m : Resolved.Module) (table : SymbolTable) :
    Infer (List ConstSketch × List FuncSketch) := do
  let sketches ← gather m table
  let pending := (← get).pending.reverse
  settleAll pending.length pending
  return sketches

/-- Read off the typed program, or tell the variables whose type is open. -/
def readOut (m : Resolved.Module) (table : SymbolTable)
    (sketches : List ConstSketch × List FuncSketch) :
    Infer (Except (List TypeFault) Typed.Module) := do
  let faults ← unresolved table
  if faults ≠ [] then return .error faults
  let types ← varTypes table
  let consts ← buildConsts table [] sketches.1
  let funcs ← sketches.2.mapM (buildFunc table)
  return .ok { consts, funcs, main := m.main, varTypes := types }

lemma inferModule_eq (m : Resolved.Module) (table : SymbolTable) :
    inferModule m table = solve m table >>= readOut m table := by
  simp only [inferModule, solve, gather, bind_assoc, pure_bind]
  rfl

def start (table : SymbolTable) : InferState := { nextTemp := table.numVars }

lemma solid_start : Solid table (start table) := by
  exact ⟨⟨indexed_init, nofun, nofun, Nat.le_refl _, forall_mem_nil _, .nil⟩, nonVoid_init⟩

def sketchedModule (table : SymbolTable) (m : Resolved.Module) :
    StateM VarId (List ConstSketch × List FuncSketch) := do
  let consts ← m.consts.mapM (sketchedConst table)
  let funcs ← m.funcs.mapM (sketchedFunc table)
  return (consts, funcs)

/-- The products and quotients of a program, in the order they are met. -/
def moduleProducts (sketches : List ConstSketch × List FuncSketch) : List Pending :=
  sketches.1.flatMap (·.value.products) ++ sketches.2.flatMap fun k => stmtProducts k.body

def ModuleAgrees (table : SymbolTable) (sketches : List ConstSketch × List FuncSketch)
    (strict : Prop) (τ : Assignment) : Prop :=
  (∀ f ∈ table.funs.toList, ∀ p ∈ f.params, Admits table τ p) ∧
    (∀ k ∈ sketches.1, k.Agrees table strict τ) ∧ ∀ k ∈ sketches.2, k.Agrees table strict τ

/-- The types of the variables `K` of a program are declared or evident. -/
structure Grounded (table : SymbolTable) (K : VarId → Prop) (m : Resolved.Module) : Prop where
  params : ParamsGrounded table K
  consts : ∀ c ∈ m.consts, Grounds table K (c.var, c.value)
  lets : ∀ f ∈ m.funcs, ∀ b ∈ letsAll f.body, Grounds table K b

lemma Grounded.of_none (m : Resolved.Module) : Grounded table (fun _ => False) m :=
  ⟨fun _ _ _ _ => False.elim, fun _ _ => False.elim, fun _ _ _ _ => False.elim⟩

/-- The types of all arguments of a program are evident, or their parameters have declared
types. -/
def ArgumentsEvident (table : SymbolTable) (K : VarId → Prop) (m : Resolved.Module) : Prop :=
  (∀ c ∈ m.consts, CallsEvident table K c.value) ∧
    ∀ f ∈ m.funcs, ∀ e ∈ exprsAll f.body, CallsEvident table K e

section Module

variable {m : Resolved.Module} {K : VarId → Prop}

lemma yields_gather (hm : m.Fits table) (hb : Grounded table K m) :
    Yields table (gather m table) table.numVars (start table)
      (sketchedModule table m table.numVars) (fun t => ∀ v, table.Has v → Entered t v)
      (moduleProducts (sketchedModule table m table.numVars).1)
      (ModuleAgrees table (sketchedModule table m table.numVars).1)
      (ArgumentsEvident table K m) := by
  have hparam (f : Fun) (hf : f ∈ table.funs.toList) (p : VarId) (hp : p ∈ f.params) :
      table.Has p := by
    obtain ⟨id, hid⟩ := Array.getElem?_of_mem (Array.mem_toList_iff.1 hf)
    exact hm.has_param hid hp
  refine ((yields_addParams solid_start hparam).bind fun s hparams hg =>
    (yields_sketchConsts m.consts [] ⟨hg.solid, forall_mem_nil _, hparams⟩
      (fun c hc => hm.has_const hc) hm.consts hb.consts).bind fun t ht _ =>
        have hready : Ready table K (· ∈ m.consts.map (·.var)) t :=
          ⟨ht.solid, fun v hv => ht.known v (.inl hv), ht.params⟩
        (yields_sketchFuncs m.funcs hready hm.funcs hb.params hb.lets).map.congr
          (fun u hnew hg' v hv => ?_) rfl (fun _ _ => .rfl) id).congr
    (fun _ h _ => h) rfl (fun _ _ => .rfl) fun h => ⟨trivial, h⟩
  rcases hm.covered v hv with ⟨id, f, hf, hp⟩ | ⟨c, hc, rfl⟩ |
    ⟨f, hf, a, ha, hhi, sym, hsym, -, -, hscoped⟩
  · exact (ht.params id f hf v hp).mono hg'.grows
  · exact ((hready.known _ (mem_map_of_mem hc)).mono hg').1
  · have hlet : v ∈ (letsAll f.body).map Prod.fst := by
      rw [map_fst_letsAll f.body hscoped, mem_range'_1]
      exact ⟨ha, hhi⟩
    obtain ⟨b, hb, rfl⟩ := mem_map.1 hlet
    exact (hnew f hf b hb).1

def Sums (table : SymbolTable) (K : VarId → Prop) (m : Resolved.Module)
    (sketches : List ConstSketch × List FuncSketch) (s : InferState) : Prop :=
  Gathers table (start table) s (moduleProducts sketches)
    (fun strict τ => ModuleAgrees table sketches strict τ) (ArgumentsEvident table K m)

/-- The demands of a program cannot be met, or the verdicts on its products and quotients. -/
def Unsolvable (table : SymbolTable) (K : VarId → Prop) (m : Resolved.Module)
    (sketches : List ConstSketch × List FuncSketch) : Prop :=
  (∀ τ, τ.Proper → ¬ ModuleAgrees table sketches True τ) ∨
    ∃ s, Sums table K m sketches s ∧ ∀ τ, ¬ Kept s.Solves
      (verdicts (moduleProducts sketches).length s.Solves (moduleProducts sketches)) τ

structure Solved (table : SymbolTable) (K : VarId → Prop) (m : Resolved.Module)
    (sketches : List ConstSketch × List FuncSketch) (t : InferState) : Prop where
  eq_sketched : sketches = (sketchedModule table m table.numVars).1
  entered : ∀ v, table.Has v → Entered t v
  gathers : ∃ s, Sums table K m sketches s ∧
    Settled table s t (verdicts (moduleProducts sketches).length s.Solves (moduleProducts sketches))

lemma ends_solve (hm : m.Fits table) (hb : Grounded table K m) :
    Ends (solve m table) (start table) (Solved table K m)
      (Unsolvable table K m (sketchedModule table m table.numVars).1) := by
  have hproper (τ : Assignment) (hτ : τ.Proper) : (start table).Solves τ := ⟨hτ, solves_init τ⟩
  refine (yields_gather hm hb rfl).bind (fun hno => .inl fun τ hτ => hno τ (hproper τ hτ)) ?_
  rintro r s - ⟨hr, hentered, hg⟩
  obtain rfl := congrArg Prod.fst hr
  refine .of_get ?_
  have hpending : s.pending.reverse = moduleProducts (sketchedModule table m table.numVars).1 := by
    rw [hg.pending]
    change (_ ++ []).reverse = _
    rw [append_nil, reverse_reverse]
  rw [hpending]
  refine (ends_settleAll _ _ hg.solid hg.placed).bind (fun hno => .inr ⟨s, hg, hno⟩) ?_
  rintro _ t - hset
  exact .of_pure ⟨rfl, fun v hv => (hentered v hv).mono hset.grows, s, hg, hset⟩

end Module

/-! ## Sketches of a program -/

lemma exists_of_mem_sketchedConsts (cs : List Const) {k : VarId} {x : ConstSketch}
    (hx : x ∈ (cs.mapM (sketchedConst table) k).1) :
    ∃ c ∈ cs, ∃ k', x = ⟨c.var, (sketched table c.value k').1, c.span⟩ := by
  induction cs generalizing k with
  | nil => cases hx
  | cons c cs ih =>
    simp only [mapM_cons, run_bind, run_pure] at hx
    rcases mem_cons.1 hx with rfl | hx
    · exact ⟨c, mem_cons_self, k, rfl⟩
    · obtain ⟨c', hc', h⟩ := ih hx
      exact ⟨c', mem_cons_of_mem _ hc', h⟩

lemma map_var_sketchedConsts (cs : List Const) (k : VarId) :
    (cs.mapM (sketchedConst table) k).1.map (·.var) = cs.map (·.var) := by
  induction cs generalizing k with
  | nil => rfl
  | cons c cs ih =>
    simp only [mapM_cons, run_bind, run_pure, map_cons, ih]
    rfl

lemma forall₂_sketchedFuncs (table : SymbolTable) (fs : List Func) (k : VarId) :
    List.Forall₂ (fun f x => ∃ k', x = ⟨f, (sketchedStmts table f.body k').1⟩) fs
      (fs.mapM (sketchedFunc table) k).1 := by
  induction fs generalizing k with
  | nil => exact .nil
  | cons f fs ih =>
    simp only [mapM_cons, run_bind, run_pure]
    exact .cons ⟨k, rfl⟩ (ih _)

lemma wellFormed_of_consts {V : VarId → Prop} {seen : List VarId} {cs : List Const}
    (h : ConstsWellFormed table seen cs) (hseen : ∀ v ∈ seen, V v)
    (hcs : ∀ c ∈ cs, V c.var) {c : Const} (hc : c ∈ cs) :
    c.value.WellFormed table V := by
  induction cs generalizing seen with
  | nil => cases hc
  | cons d cs ih =>
    rcases mem_cons.1 hc with rfl | hc
    · exact h.1.mono (fun _ _ => id) hseen _
    · refine ih h.2 (fun v hv => ?_) (fun c' hc' => hcs c' (mem_cons_of_mem _ hc')) hc
      rcases mem_cons.1 hv with rfl | hv
      · exact hcs d mem_cons_self
      · exact hseen v hv

/-! ## Variables whose type is open -/

def InferState.Open (s : InferState) (v : VarId) (tv : TypeVar) : Prop :=
  s.sets.typeOfVar? v = some tv ∧ tv.concrete? = none

def Tells (table : SymbolTable) (s : InferState) (v : VarId) (f : TypeFault) : Prop :=
  ∃ var tv, table.var? v = some var ∧ s.Open v tv ∧ f = .couldNotInfer var.span var.name tv

lemma exists_unresolved (table : SymbolTable) (s : InferState) :
    ∃ vs fs, unresolved table s = .ok (fs, s) ∧ vs.Pairwise (· < ·) ∧
      (∀ v, v ∈ vs ↔ table.Has v ∧ ∃ tv, s.Open v tv) ∧ List.Forall₂ (Tells table s) vs fs := by
  -- the numbers from `n` on, of variables that stand at these places in the table
  have main : ∀ (vars : List Var) (n : Nat), (∀ i, vars[i]? = table.vars[n + i]?) →
      ∃ vs fs, (vars.zipIdx n).filterMap (fun p => (s.sets.typeOfVar? (p.2 + 1)).bind fun tv =>
          if tv.concrete?.isSome then none else some (.couldNotInfer p.1.span p.1.name tv)) = fs ∧
        vs.Pairwise (· < ·) ∧
        (∀ v, v ∈ vs ↔ n < v ∧ v ≤ n + vars.length ∧ ∃ tv, s.Open v tv) ∧
        List.Forall₂ (Tells table s) vs fs := by
    intro vars
    induction vars with
    | nil =>
      intro n _
      refine ⟨[], [], rfl, .nil, fun v => ⟨by simp, fun h => ?_⟩, .nil⟩
      rw [length_nil] at h
      omega
    | cons var vars ih =>
      intro n hvars
      obtain ⟨vs, fs, hfs, hsorted, hmem, hall⟩ := ih (n + 1) fun i => by
        have h := hvars (i + 1)
        rwa [getElem?_cons_succ, ← Nat.add_assoc, Nat.add_right_comm] at h
      have hhead : table.var? (n + 1) = some var := by
        rw [var?, if_neg (Nat.succ_ne_zero n)]
        exact (hvars 0).symm
      rw [zipIdx_cons, filterMap_cons]
      by_cases hopen : ∃ tv, s.Open (n + 1) tv
      · obtain ⟨tv, htv, hc⟩ := hopen
        simp only [htv, hc, Option.bind_some, Option.isSome_none, Bool.false_eq_true, if_false]
        refine ⟨(n + 1) :: vs, _, rfl, pairwise_cons.2 ⟨fun v hv => ?_, hsorted⟩,
          fun v => ?_, .cons ⟨var, tv, hhead, ⟨htv, hc⟩, rfl⟩ (hfs ▸ hall)⟩
        · exact ((hmem v).1 hv).1
        · rw [mem_cons, hmem, length_cons]
          constructor
          · rintro (rfl | ⟨hlt, hle, hopen⟩)
            · exact ⟨by omega, by omega, tv, htv, hc⟩
            · exact ⟨by omega, by omega, hopen⟩
          · rintro ⟨hlt, hle, hopen⟩
            by_cases hv : v = n + 1
            · exact .inl hv
            · exact .inr ⟨by omega, by omega, hopen⟩
      · have hskip : ((s.sets.typeOfVar? (n + 1)).bind fun tv =>
            if tv.concrete?.isSome then none
            else some (TypeFault.couldNotInfer var.span var.name tv)) = none := by
          cases htv : s.sets.typeOfVar? (n + 1) with
          | none => rfl
          | some tv =>
            refine if_pos (Option.isSome_iff_ne_none.2 fun hc => ?_)
            exact hopen ⟨tv, htv, hc⟩
        simp only [hskip]
        refine ⟨vs, fs, hfs, hsorted, fun v => ?_, hall⟩
        rw [hmem, length_cons]
        constructor
        · rintro ⟨hlt, hle, hopen⟩
          exact ⟨by omega, by omega, hopen⟩
        · rintro ⟨hlt, hle, hv⟩
          refine ⟨?_, by omega, hv⟩
          by_contra hge
          obtain rfl : v = n + 1 := by omega
          exact hopen hv
  obtain ⟨vs, fs, hfs, hsorted, hmem, hall⟩ := main table.vars.toList 0 fun i => by
    rw [Nat.zero_add, Array.getElem?_toList]
  refine ⟨vs, fs, ?_, hsorted, fun v => ?_, hall⟩
  · rw [unresolved, get_bind, pure_eq_ok]
    refine congrArg (·, s) ?_
    refine hfs.symm.trans (filterMap_congr fun p _ => ?_)
    cases h : s.sets.typeOfVar? (p.2 + 1) <;> simp [h]
  · rw [hmem, has_iff, and_assoc, Nat.zero_add, Array.length_toList]
    exact and_congr_right fun _ => and_congr_left fun _ => Nat.lt_succ_iff.symm

lemma unresolved_eq_nil :
    unresolved table s = .ok ([], s) ↔ ∀ v, table.Has v → ∀ tv, ¬ s.Open v tv := by
  obtain ⟨vs, fs, hrun, -, hmem, htells⟩ := exists_unresolved table s
  rw [hrun]
  constructor
  · intro h v hv tv htv
    cases h
    cases htells
    exact absurd ((hmem v).2 ⟨hv, tv, htv⟩) not_mem_nil
  · intro h
    obtain rfl : vs = [] := eq_nil_iff_forall_not_mem.2 fun v hv => by
      obtain ⟨hhas, tv, htv⟩ := (hmem v).1 hv
      exact h v hhas tv htv
    cases htells
    rfl

end VecLang.Typing
