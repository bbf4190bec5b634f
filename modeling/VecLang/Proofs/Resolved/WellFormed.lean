import VecLang.Resolved.Resolve
import VecLang.Proofs.Statements
import VecLang.Proofs.Value.Normal

/-!
# Well-formed programs

What holds of a program whose names were resolved without a report. Every number stands for
something that is visible where it is used, calls and constructors have as many operands as
they need, and variables are numbered in the order of their declarations: first the parameters
of all functions, then the constants, then the variables of one body after the other.
-/

variable {table : SymbolTable}

namespace VecLang

def SymbolTable.Has (table : SymbolTable) (v : VarId) : Prop := ∃ var, table.var? v = some var

lemma SymbolTable.has_iff {v : VarId} : table.Has v ↔ 0 < v ∧ v < table.numVars := by
  unfold Has var? numVars
  by_cases h : v = 0
  · simp [h]
  · simp only [if_neg h, ← Option.isSome_iff_exists, isSome_getElem?]
    have hpos : 0 < v := Nat.pos_of_ne_zero h
    constructor
    · intro hlt
      exact ⟨hpos, Nat.lt_succ_of_le (Nat.le_of_pred_lt hlt)⟩
    · rintro ⟨-, hlt⟩
      exact Nat.sub_one_lt_of_le hpos (Nat.le_of_lt_succ hlt)

end VecLang

namespace VecLang.Resolved

mutual

def Expr.WellFormed (table : SymbolTable) (V : VarId → Prop) : Expr → Prop
  | .lit _ v => v.Normal
  | .var _ id => V id
  | .unary _ op x => op ≠ .invalid ∧ x.WellFormed table V
  | .binary _ op x y => op ≠ .invalid ∧ x.WellFormed table V ∧ y.WellFormed table V
  | .call _ callee args =>
    (∃ f, table.fun? callee = some f ∧ args.length = f.params.length) ∧ AllWellFormed table V args
  | .pack _ t elems =>
    t ∈ constructors ∧ elems.length = t.lanes ∧ AllWellFormed table V elems
  | .swizzle _ lanes x =>
    (Swizzle.result? lanes.length).isSome ∧ (∀ l ∈ lanes, l < 4) ∧ x.WellFormed table V

def AllWellFormed (table : SymbolTable) (V : VarId → Prop) : List Expr → Prop
  | [] => True
  | e :: es => e.WellFormed table V ∧ AllWellFormed table V es

end

section Mono

variable {table table' : SymbolTable} {V W : VarId → Prop}

mutual

lemma Expr.WellFormed.mono (hf : ∀ id f, table.fun? id = some f → table'.fun? id = some f)
    (hV : ∀ v, V v → W v) (e : Expr) (he : e.WellFormed table V) : e.WellFormed table' W := by
  match e with
  | .lit _ _ => exact he
  | .var _ id => exact hV id he
  | .unary _ _ x => exact ⟨he.1, he.2.mono hf hV x⟩
  | .binary _ _ x y => exact ⟨he.1, he.2.1.mono hf hV x, he.2.2.mono hf hV y⟩
  | .call _ callee args =>
    obtain ⟨⟨f, hfun, hlen⟩, hargs⟩ := he
    exact ⟨⟨f, hf callee f hfun, hlen⟩, hargs.mono hf hV args⟩
  | .pack _ _ elems => exact ⟨he.1, he.2.1, he.2.2.mono hf hV elems⟩
  | .swizzle _ _ x => exact ⟨he.1, he.2.1, he.2.2.mono hf hV x⟩

lemma AllWellFormed.mono (hf : ∀ id f, table.fun? id = some f → table'.fun? id = some f)
    (hV : ∀ v, V v → W v) (es : List Expr) (hes : AllWellFormed table V es) :
    AllWellFormed table' W es := by
  match es with
  | [] => trivial
  | e :: es => exact ⟨hes.1.mono hf hV e, hes.2.mono hf hV es⟩

end

end Mono

def ConstsWellFormed (table : SymbolTable) : (seen : List VarId) → List Const → Prop
  | _, [] => True
  | seen, c :: cs =>
    c.value.WellFormed table (· ∈ seen) ∧ ConstsWellFormed table (c.var :: seen) cs

def Visible (table : SymbolTable) (consts : List VarId) (V : List VarId) (e : Expr) : Prop :=
  e.WellFormed table fun v => v ∈ V ∨ v ∈ consts

def Func.WellFormed (table : SymbolTable) (consts : List VarId) (lo : VarId) (f : Func) : Prop :=
  ∃ sym, table.fun? f.id = some sym ∧ sym.builtin = none ∧ sym.name = f.name ∧
    Stmt.AllScoped (Visible table consts) false sym.params lo f.body

def FuncsWellFormed (table : SymbolTable) (consts : List VarId) : (lo : VarId) → List Func → Prop
  | lo, [] => lo = table.numVars
  | lo, f :: fs =>
    f.WellFormed table consts lo ∧ FuncsWellFormed table consts (lo + Stmt.numLetsAll f.body) fs

variable {consts : List VarId} {fs : List Func} {lo : VarId}

section

variable (h : FuncsWellFormed table consts lo fs)
include h

lemma FuncsWellFormed.exists_func {v : VarId} (hlo : lo ≤ v) (hv : v < table.numVars) :
    ∃ f ∈ fs, ∃ a, lo ≤ a ∧ a ≤ v ∧ v < a + Stmt.numLetsAll f.body ∧
      f.WellFormed table consts a := by
  induction fs generalizing lo with
  | nil =>
    rw [FuncsWellFormed] at h
    subst h
    exact absurd hv (Nat.not_lt.2 hlo)
  | cons f fs ih =>
    by_cases hmid : v < lo + Stmt.numLetsAll f.body
    · exact ⟨f, List.mem_cons_self, lo, Nat.le_refl _, hlo, hmid, h.1⟩
    · obtain ⟨g, hg, a, ha, hgood⟩ := ih h.2 (Nat.not_lt.1 hmid)
      exact ⟨g, List.mem_cons_of_mem _ hg, a, Nat.le_trans (Nat.le_add_right _ _) ha, hgood⟩

lemma FuncsWellFormed.le_numVars : lo ≤ table.numVars := by
  induction fs generalizing lo with
  | nil => exact Nat.le_of_eq h
  | cons g fs ih => exact Nat.le_trans (Nat.le_add_right _ _) (ih h.2)

lemma FuncsWellFormed.of_mem {f : Func} (hf : f ∈ fs) :
    ∃ a, lo ≤ a ∧ a + Stmt.numLetsAll f.body ≤ table.numVars ∧ f.WellFormed table consts a := by
  induction fs generalizing lo with
  | nil => cases hf
  | cons g fs ih =>
    rcases List.mem_cons.1 hf with rfl | hf
    · exact ⟨lo, Nat.le_refl _, h.2.le_numVars, h.1⟩
    · obtain ⟨a, ha, hlast, hgood⟩ := ih h.2 hf
      exact ⟨a, Nat.le_trans (Nat.le_add_right _ _) ha, hlast, hgood⟩

end

/-- The functions of a table: the built-in ones, and others with names of their own. -/
structure FunsWellFormed (table : SymbolTable) : Prop where
  builtin : ∀ {id f}, SymbolTable.builtin.fun? id = some f → table.fun? id = some f
  declared : ∀ {id f}, table.fun? id = some f → SymbolTable.builtin.fun? id = none →
    f.builtin = none ∧ ∀ g ∈ SymbolTable.builtin.funs, f.name ≠ g.name
  param : ∀ {v var}, SymbolTable.builtin.var? v = some var → table.var? v = some var

structure Module.WellFormed (table : SymbolTable) (lo : VarId) (m : Module) : Prop where
  funs : FunsWellFormed table
  /-- Parameters and constants come before the variables of bodies, no two with one number. -/
  param_lt : ∀ {id f p}, table.fun? id = some f → p ∈ f.params → 0 < p ∧ p < lo
  param_nodup : ∀ {id f}, table.fun? id = some f → f.params.Nodup
  param_owner : ∀ {id f id' f' p}, table.fun? id = some f → table.fun? id' = some f' →
    p ∈ f.params → p ∈ f'.params → id = id'
  const_lt : ∀ c ∈ m.consts, 0 < c.var ∧ c.var < lo
  const_nodup : (m.consts.map (·.var)).Nodup
  const_ne_param : ∀ {id f}, table.fun? id = some f → ∀ c ∈ m.consts, c.var ∉ f.params
  /-- There are no other numbers before them. -/
  covered : ∀ v, 0 < v → v < lo →
    (∃ id f, table.fun? id = some f ∧ v ∈ f.params) ∨ ∃ c ∈ m.consts, c.var = v
  consts : ConstsWellFormed table [] m.consts
  funcs : FuncsWellFormed table (m.consts.map (·.var)) lo m.funcs
  id_nodup : (m.funcs.map (·.id)).Nodup
  /-- Every function that is declared has a body. -/
  defined : ∀ {id f}, table.fun? id = some f → f.builtin = none → ∃ g ∈ m.funcs, g.id = id
  main : ∃ id f, m.main = some id ∧ table.fun? id = some f ∧ f.builtin = none ∧ f.params = []

namespace Module.WellFormed

variable {table : SymbolTable} {lo : VarId} {m : Module}

lemma has_param (h : m.WellFormed table lo) {id : FunId} {f : Fun} {p : VarId}
    (hf : table.fun? id = some f) (hp : p ∈ f.params) : table.Has p := by
  obtain ⟨hpos, hlt⟩ := h.param_lt hf hp
  exact SymbolTable.has_iff.2 ⟨hpos, Nat.lt_of_lt_of_le hlt h.funcs.le_numVars⟩

lemma has_const (h : m.WellFormed table lo) {c : Const} (hc : c ∈ m.consts) : table.Has c.var := by
  obtain ⟨hpos, hlt⟩ := h.const_lt c hc
  exact SymbolTable.has_iff.2 ⟨hpos, Nat.lt_of_lt_of_le hlt h.funcs.le_numVars⟩

lemma lo_pos (h : m.WellFormed table lo) : 0 < lo := by
  have hprint : table.fun? 0 = some _ := h.funs.builtin rfl
  obtain ⟨hpos, hlt⟩ := h.param_lt hprint List.mem_cons_self
  exact Nat.lt_trans hpos hlt

end Module.WellFormed

/-! ## Programs in any order -/

def Func.Fits (table : SymbolTable) (consts : List VarId) (f : Func) : Prop :=
  ∃ lo, 0 < lo ∧ lo + Stmt.numLetsAll f.body ≤ table.numVars ∧ f.WellFormed table consts lo

/-- What is left of a well-formed program when its functions may stand in any order. -/
structure Module.Fits (table : SymbolTable) (m : Module) : Prop where
  has_param : ∀ {id f p}, table.fun? id = some f → p ∈ f.params → table.Has p
  has_const : ∀ {c}, c ∈ m.consts → table.Has c.var
  consts : ConstsWellFormed table [] m.consts
  funcs : ∀ f ∈ m.funcs, f.Fits table (m.consts.map (·.var))
  /-- Every variable is a parameter, a constant or a variable of a body. -/
  covered : ∀ v, table.Has v → (∃ id f, table.fun? id = some f ∧ v ∈ f.params) ∨
    (∃ c ∈ m.consts, c.var = v) ∨
    ∃ f ∈ m.funcs, ∃ lo, lo ≤ v ∧ v < lo + Stmt.numLetsAll f.body ∧
      f.WellFormed table (m.consts.map (·.var)) lo

lemma Module.WellFormed.fits {m : Module}
    (h : m.WellFormed table lo) : m.Fits table where
  has_param := h.has_param
  has_const := h.has_const
  consts := h.consts
  funcs f hf := by
    obtain ⟨a, ha, hlast, hgood⟩ := h.funcs.of_mem hf
    exact ⟨a, Nat.lt_of_lt_of_le h.lo_pos ha, hlast, hgood⟩
  covered v hv := by
    obtain ⟨hpos, hlt⟩ := SymbolTable.has_iff.1 hv
    by_cases hlo : v < lo
    · exact (h.covered v hpos hlo).imp id .inl
    · obtain ⟨f, hf, a, -, ha, hhi, hgood⟩ := h.funcs.exists_func (Nat.not_lt.1 hlo) hlt
      exact .inr (.inr ⟨f, hf, a, ha, hhi, hgood⟩)

lemma Module.Fits.perm {m : Module} (h : m.Fits table)
    (hfs : fs.Perm m.funcs) : Module.Fits table { m with funcs := fs } where
  has_param := h.has_param
  has_const := h.has_const
  consts := h.consts
  funcs f hf := h.funcs f (hfs.mem_iff.1 hf)
  covered v hv := by
    rcases h.covered v hv with hp | hc | ⟨f, hf, hgood⟩
    · exact .inl hp
    · exact .inr (.inl hc)
    · exact .inr (.inr ⟨f, hfs.mem_iff.2 hf, hgood⟩)

end VecLang.Resolved
