import VecLang.Proofs.Resolved.WellFormed
import VecLang.Proofs.Resolved.Outline
import VecLang.Proofs.Traversal

/-!
# What names stand for

A name stands for the innermost variable that is visible under it. Here this is said of a resolved
program without the scopes that were used to resolve it: the variables that are visible at a place
are listed, the innermost first, as the places of their declarations tell, and every variable that
is read or assigned to has to be the first of them with its name (`Innermost`).
-/

variable {v : VarId}

namespace VecLang.Resolved

open List

def Innermost (table : SymbolTable) (visible : List VarId) (v : VarId) : Prop :=
  visible.find? (fun w => table.varName w = table.varName v) = some v

instance (table : SymbolTable) (visible : List VarId) (v : VarId) :
    Decidable (Innermost table visible v) := inferInstanceAs (Decidable (_ = _))

section Statements

variable (table : SymbolTable) (consts : List VarId)

mutual

/-- A statement of a block that declared the variables `here` so far, the latest first. Those of
`around` were visible before the block. Constants are visible everywhere, but are not assigned to. -/
def BoundStmt (inLoop : Bool) (here around : List VarId) : Stmt → Prop
  | .letVar _ v e =>
    e.WellFormed table (Innermost table (here ++ around ++ consts)) ∧
      ∀ w ∈ here, table.varName w ≠ table.varName v
  | .assign _ v e =>
    e.WellFormed table (Innermost table (here ++ around ++ consts)) ∧
      Innermost table (here ++ around ++ consts) v ∧ v ∈ here ++ around
  | .expr _ e => e.WellFormed table (Innermost table (here ++ around ++ consts))
  | .ret _ none => True
  | .ret _ (some e) => e.WellFormed table (Innermost table (here ++ around ++ consts))
  | .breakLoop _ => inLoop = true
  | .continueLoop _ => inLoop = true
  | .ifElse _ c t none =>
    c.WellFormed table (Innermost table (here ++ around ++ consts)) ∧
      BoundStmts inLoop [] (here ++ around) t
  | .ifElse _ c t (some e) =>
    c.WellFormed table (Innermost table (here ++ around ++ consts)) ∧
      BoundStmts inLoop [] (here ++ around) t ∧ BoundStmts inLoop [] (here ++ around) e
  | .whileDo _ c body =>
    c.WellFormed table (Innermost table (here ++ around ++ consts)) ∧
      BoundStmts true [] (here ++ around) body

def BoundStmts (inLoop : Bool) (here around : List VarId) : List Stmt → Prop
  | [] => True
  | t :: ts => BoundStmt inLoop here around t ∧ BoundStmts inLoop (t.declares ++ here) around ts

end

/-- Constants, each over those before it, which are `seen`, the latest first. -/
def BoundConsts : (seen : List VarId) → List Const → Prop
  | _, [] => True
  | seen, c :: cs =>
    c.value.WellFormed table (Innermost table seen) ∧
      (∀ w ∈ seen, table.varName w ≠ table.varName c.var) ∧ BoundConsts (c.var :: seen) cs

end Statements

def Func.locals (f : Func) : List VarId := (Stmt.letsAll f.body).map (·.1)

def Func.Bound (table : SymbolTable) (consts : List VarId) (f : Func) : Prop :=
  ∃ sym, table.fun? f.id = some sym ∧ (sym.params.map table.varName).Nodup ∧
    BoundStmts table consts false [] sym.params f.body

/-- A program in which every name stands for one thing. -/
structure Module.Closed (table : SymbolTable) (m : Module) : Prop where
  consts : BoundConsts table [] m.consts
  funcs : ∀ f ∈ m.funcs, f.Bound table (m.consts.map (·.var)).reverse
  /-- Every variable is declared once: as a parameter, a constant or in a body. -/
  vars_nodup : (table.funs.toList.flatMap (·.params) ++ m.consts.map (·.var) ++
    m.funcs.flatMap (·.locals)).Nodup
  /-- Functions are told apart by their numbers and by their names. -/
  funs_nodup : (m.funcs.map (·.id)).Nodup
  names_nodup : (table.funs.toList.map (·.name)).Nodup
  main : ∃ f ∈ m.funcs, ∃ sym, m.main = some f.id ∧ table.fun? f.id = some sym ∧
    sym.name = "main" ∧ sym.params = []

variable {table : SymbolTable}

lemma FuncsWellFormed.flatMap_locals {consts : List VarId} {fs : List Func}
    {lo : VarId} (h : FuncsWellFormed table consts lo fs) :
    fs.flatMap (·.locals) = List.range' lo (table.numVars - lo) := by
  induction fs generalizing lo with
  | nil =>
    rw [FuncsWellFormed] at h
    rw [h, Nat.sub_self]
    rfl
  | cons f fs ih =>
    obtain ⟨⟨sym, -, -, -, hscoped⟩, hrest⟩ := h
    rw [flatMap_cons, ih hrest, Func.locals, Stmt.map_fst_letsAll f.body hscoped,
      range'_append_1, Nat.sub_add_eq,
      Nat.add_sub_of_le (Nat.le_sub_of_add_le' hrest.le_numVars)]

lemma mem_flatMap_params :
    v ∈ table.funs.toList.flatMap (·.params) ↔ ∃ id f, table.fun? id = some f ∧ v ∈ f.params := by
  simp only [mem_flatMap, SymbolTable.fun?, ← Array.getElem?_toList]
  constructor
  · rintro ⟨f, hf, hv⟩
    obtain ⟨id, hid⟩ := getElem?_of_mem hf
    exact ⟨id, f, hid, hv⟩
  · rintro ⟨id, f, hid, hv⟩
    exact ⟨f, mem_of_getElem? hid, hv⟩

lemma Module.WellFormed.vars_nodup {lo : VarId} {m : Module} (h : m.WellFormed table lo) :
    (table.funs.toList.flatMap (·.params) ++ m.consts.map (·.var) ++
      m.funcs.flatMap (·.locals)).Nodup := by
  have hparams : (table.funs.toList.flatMap (·.params)).Nodup := by
    refine nodup_flatMap.2 ⟨fun f hf => ?_, pairwise_iff_getElem.2 ?_⟩
    · obtain ⟨id, hid⟩ := getElem?_of_mem hf
      rw [Array.getElem?_toList] at hid
      exact h.param_nodup hid
    · intro i j hi hj hij v hv hv'
      have hat {k : Nat} (hk : k < table.funs.toList.length) :
          table.fun? k = some table.funs.toList[k] := by
        rw [SymbolTable.fun?, ← Array.getElem?_toList, getElem?_eq_getElem hk]
      exact absurd (h.param_owner (hat hi) (hat hj) hv hv') (Nat.ne_of_lt hij)
  rw [h.funcs.flatMap_locals]
  -- parameters are not constants, and both come before the variables of bodies
  refine nodup_append.2 ⟨nodup_append.2 ⟨hparams, h.const_nodup, ?_⟩, nodup_range', ?_⟩
  · intro v hv w hw heq
    obtain ⟨id, f, hf, hp⟩ := mem_flatMap_params.1 hv
    obtain ⟨c, hc, rfl⟩ := mem_map.1 hw
    exact h.const_ne_param hf c hc (heq ▸ hp)
  · intro v hv w hw heq
    have hlo := (mem_range'_1.1 hw).1
    rw [← heq] at hlo
    rcases mem_append.1 hv with hv | hv
    · obtain ⟨id, f, hf, hp⟩ := mem_flatMap_params.1 hv
      exact absurd (h.param_lt hf hp).2 (Nat.not_lt.2 hlo)
    · obtain ⟨c, hc, rfl⟩ := mem_map.1 hv
      exact absurd (h.const_lt c hc).2 (Nat.not_lt.2 hlo)

end VecLang.Resolved

/-! ## Scopes -/

variable {id : VarId}

namespace VecLang

variable {f : Frame}

lemma Frame.lookup?_cons {name n : Bytes} :
    Frame.lookup? ((name, id) :: f) n = if name = n then some id else f.lookup? n := by
  unfold Frame.lookup?
  by_cases hn : name = n
  · simp [hn]
  · have hbeq : (n == name) = false := by simpa using Ne.symm hn
    rw [List.lookup_cons, hbeq, if_neg hn]

namespace Scope

variable {scope : Scope} {name n : Bytes} {id : VarId}

lemma lookup?_cons : lookup? (f :: scope) n = (f.lookup? n).or (lookup? scope n) := by
  unfold lookup?
  rw [List.findSome?_cons]
  cases f.lookup? n <;> rfl

lemma here?_declare (hnew : scope.here? name = none) :
    (scope.declare name id).here? n = if name = n then some id else scope.here? n := by
  cases scope with
  | nil => exact Frame.lookup?_cons
  | cons f fs =>
    have hf : f.lookup? name = none := hnew
    rw [declare, hf]
    exact Frame.lookup?_cons

lemma lookup?_declare (hnew : scope.here? name = none) :
    (scope.declare name id).lookup? n = if name = n then some id else scope.lookup? n := by
  cases scope with
  | nil =>
    rw [declare, lookup?_cons, Frame.lookup?_cons]
    split <;> rfl
  | cons f fs =>
    have hf : f.lookup? name = none := hnew
    simp only [declare, hf, Option.isSome_none, Bool.false_eq_true, if_false]
    rw [lookup?_cons, lookup?_cons, Frame.lookup?_cons]
    split <;> rfl

lemma declare_of_here? (h : scope.here? name = some v) : scope.declare name id = scope := by
  cases scope with
  | nil => cases h
  | cons f fs =>
    have hf : f.lookup? name = some v := h
    rw [declare, hf]
    rfl

lemma lookup?_foldl_declare (name : VarId → Bytes) (ps : List VarId) :
    lookup? (ps.foldl (fun s p => s.declare (name p) p) (f :: scope)) n =
      ((f.lookup? n).or (ps.find? fun p => name p = n)).or (scope.lookup? n) := by
  induction ps generalizing f with
  | nil => rw [List.foldl_nil, lookup?_cons, List.find?_nil, Option.or_none]
  | cons p ps ih =>
    rw [List.foldl_cons, declare, List.find?_cons]
    split
    case isTrue hf =>
      obtain ⟨v, hv⟩ := Option.isSome_iff_exists.1 hf
      rw [ih]
      by_cases hn : name p = n
      · rw [← hn, hv, Option.some_or, Option.some_or, Option.some_or, Option.some_or]
      · simp only [hn, decide_false]
    case isFalse hf =>
      rw [ih, Frame.lookup?_cons]
      by_cases hn : name p = n
      · rw [← hn, Option.not_isSome_iff_eq_none.1 hf]
        simp
      · rw [if_neg hn]
        simp only [hn, decide_false]

end Scope

end VecLang

namespace VecLang.Resolved

def Spells (table : SymbolTable) (scope : Scope) : Prop :=
  ∀ name v, scope.lookup? name = some v → table.varName v = name

/-- The scope knows the variables `visible`, the innermost first, of which its innermost block
declares `here`. -/
structure Mirrors (table : SymbolTable) (scope : Scope) (here visible : List VarId) : Prop where
  here : ∀ name, scope.here? name = here.find? fun v => table.varName v = name
  visible : ∀ name, scope.lookup? name = visible.find? fun v => table.varName v = name

namespace Mirrors

variable {table : SymbolTable} {scope : Scope} {here visible : List VarId}

section

variable (h : Mirrors table scope here visible)
include h

lemma spells : Spells table scope := by
  intro name v hv
  rw [h.visible] at hv
  simpa using List.find?_some hv

lemma innermost {name : Bytes} (hv : scope.lookup? name = some v) : Innermost table visible v := by
  unfold Innermost
  rw [h.spells name v hv, ← h.visible, hv]

lemma push : Mirrors table ([] :: scope) [] visible := ⟨fun _ => rfl, h.visible⟩

lemma declare (hnew : scope.here? (table.varName id) = none) :
    Mirrors table (scope.declare (table.varName id) id) (id :: here) (id :: visible) := by
  refine ⟨fun name => ?_, fun name => ?_⟩
  · rw [Scope.here?_declare hnew, List.find?_cons, h.here]
    by_cases hn : table.varName id = name <;> simp [hn]
  · rw [Scope.lookup?_declare hnew, List.find?_cons, h.visible]
    by_cases hn : table.varName id = name <;> simp [hn]

end

lemma find?_varName {T : SymbolTable} {vs : List VarId}
    (h : vs.map T.varName = vs.map table.varName) (name : Bytes) :
    vs.find? (fun v => T.varName v = name) = vs.find? (fun v => table.varName v = name) := by
  induction vs with
  | nil => rfl
  | cons v vs ih =>
    obtain ⟨hv, hvs⟩ := List.cons.inj h
    rw [List.find?_cons, List.find?_cons, hv, ih hvs]

lemma paramScope {globals : Frame} {consts params : List VarId} {T : SymbolTable}
    (h : Mirrors table [globals] consts consts)
    (hnames : params.map T.varName = params.map table.varName) :
    Mirrors table ([] :: Resolved.paramScope T globals params) [] (params ++ consts) := by
  refine ⟨fun _ => rfl, fun name => ?_⟩
  rw [Scope.lookup?_cons, Resolved.paramScope, Scope.lookup?_foldl_declare, List.find?_append,
    ← h.visible, find?_varName hnames]
  rfl

lemma ne_of_here?_eq_none (h : Mirrors table scope here visible)
    (hnew : scope.here? (table.varName id) = none) :
    ∀ w ∈ here, table.varName w ≠ table.varName id := by
  intro w hw heq
  rw [h.here, List.find?_eq_none] at hnew
  exact hnew w hw (decide_eq_true heq)

end Mirrors

end VecLang.Resolved
