import Mathlib.Tactic.Lemma
import VecLang.Resolved.Resolve

/-!
# What resolving reports

Everything that is reported while names are resolved is an error (`isError_of_mem_resolve`). The
walk over the tree threads one state, so the claim is made of every computation that resolving
consists of (`Alarming`) and put together along the definitions.
-/

namespace VecLang.Resolved

open Syntax

def ResolveState.Clean (s : ResolveState) : Prop := s.reports.any Diagnostic.isError = false

variable {α β : Type}

/-- The computation reports errors and nothing else, and takes no report back. -/
class Alarming (x : Resolve α) : Prop where
  errors : ∀ s : ResolveState, ∃ new, (x s).2.reports = new ++ s.reports ∧
    ∀ d ∈ new, d.isError = true

namespace Alarming

lemma of_silent {x : Resolve α} (h : ∀ s, (x s).2.reports = s.reports) : Alarming x :=
  ⟨fun s => ⟨[], h s, nofun⟩⟩

instance of_pure (a : α) : Alarming (pure a : Resolve α) := of_silent fun _ => rfl

instance of_get : Alarming (get : Resolve ResolveState) := of_silent fun _ => rfl

instance of_bind {x : Resolve α} {f : α → Resolve β} [hx : Alarming x] [hf : ∀ a, Alarming (f a)] :
    Alarming (x >>= f) where
  errors s := by
    obtain ⟨new, hnew, herrors⟩ := hx.errors s
    obtain ⟨more, hmore, herrors'⟩ := (hf (x s).1).errors (x s).2
    refine ⟨more ++ new, ?_, List.forall_mem_append.2 ⟨herrors', herrors⟩⟩
    rw [List.append_assoc, ← hnew]
    exact hmore

instance of_ite {c : Prop} [Decidable c] {x y : Resolve α} [hx : Alarming x] [hy : Alarming y] :
    Alarming (if c then x else y) := by
  split
  · exact hx
  · exact hy

lemma clean {x : Resolve α} [hx : Alarming x] {s : ResolveState} (h : (x s).2.Clean) : s.Clean := by
  obtain ⟨new, hnew, -⟩ := hx.errors s
  rw [ResolveState.Clean, hnew, List.any_append, Bool.or_eq_false_iff] at h
  exact h.2

end Alarming

instance (cause : ResolveCause) (span : Span) (notes : List Note) :
    Alarming (report cause span notes) :=
  ⟨fun _ => ⟨[_], rfl, List.forall_mem_singleton.2 rfl⟩⟩

instance (cause : ResolveCause) (span : Span) :
    Alarming (refuse cause span : Resolve (Option α)) := by
  unfold refuse
  infer_instance

instance (v : Var) : Alarming (newVar v) := .of_silent fun _ => rfl

instance (f : Fun) : Alarming (newFun f) := .of_silent fun _ => rfl

/-- The symbol table says nothing about reports. -/
instance (f : ResolveState → SymbolTable) :
    Alarming (modify fun s => { s with table := f s } : Resolve PUnit) := .of_silent fun _ => rfl

instance (t : Option Syntax.TypeName) : Alarming (resolveType t) := by
  unfold resolveType
  split
  · infer_instance
  · split <;> infer_instance

instance (p : Place) (span : Span) (name : Bytes) (nameSpan : Span) (got : Nat) :
    Alarming (resolveCallee p span name nameSpan got) := by
  unfold resolveCallee
  split
  · infer_instance
  · refine @Alarming.of_bind _ _ _ _ _ fun s => ?_
    dsimp only
    split <;> infer_instance

/-! ## Expressions -/

mutual

lemma alarming_resolveExpr (p : Place) (e : Syntax.Expr) : Alarming (resolveExpr p e) := by
  match e with
  | .group _ x => exact alarming_resolveExpr p x
  | .lit _ | .ident _ _ =>
    rw [resolveExpr]
    split <;> infer_instance
  | .unary _ _ x | .swizzle _ _ _ x =>
    have := alarming_resolveExpr p x
    rw [resolveExpr]
    infer_instance
  | .binary span op x y =>
    have := alarming_resolveExpr p x
    have := alarming_resolveExpr p y
    rw [resolveExpr]
    infer_instance
  | .call span name nameSpan args =>
    have := alarming_resolveExprs p args
    refine @Alarming.of_bind _ _ _ _ _ fun args => ?_
    split
    · infer_instance
    · refine @Alarming.of_bind _ _ _ _ _ fun callee => ?_
      cases callee <;> infer_instance

lemma alarming_resolveExprs (p : Place) (es : List Syntax.Expr) : Alarming (resolveExprs p es) := by
  match es with
  | [] =>
    rw [resolveExprs]
    infer_instance
  | e :: es =>
    have := alarming_resolveExpr p e
    have := alarming_resolveExprs p es
    rw [resolveExprs]
    infer_instance

end

instance (p : Place) (e : Syntax.Expr) : Alarming (resolveExpr p e) := alarming_resolveExpr p e

/-! ## Statements -/

instance (p : Place) (span : Span) (name : Bytes) (nameSpan : Span) (type : Option Syntax.TypeName)
    (value : Syntax.Expr) : Alarming (resolveLet p span name nameSpan type value) := by
  refine @Alarming.of_bind _ _ _ _ _ fun x => @Alarming.of_bind _ _ _ _ _ fun t =>
    @Alarming.of_bind _ _ _ _ _ fun id => ?_
  split <;> infer_instance

instance (p : Place) (span : Span) (name : Bytes) (nameSpan : Span) (value : Syntax.Expr) :
    Alarming (resolveAssign p span name nameSpan value) := by
  refine @Alarming.of_bind _ _ _ _ _ fun x => ?_
  split <;> infer_instance

instance (p : Place) (span : Span) (jump : Stmt) : Alarming (resolveJump p span jump) := by
  unfold resolveJump
  infer_instance

mutual

lemma alarming_resolveStmt (p : Place) (t : Syntax.Stmt) : Alarming (resolveStmt p t) := by
  match t with
  | .letVar _ _ _ _ _ | .assign _ _ _ _ | .expr _ _ | .ret _ none | .ret _ (some _) | .breakLoop _
  | .continueLoop _ =>
    rw [resolveStmt]
    infer_instance
  | .ifElse span cond thenBody elseBody =>
    have := fun p => alarming_resolveStmts p thenBody
    have := fun p => alarming_resolveStmts p elseBody
    rw [resolveStmt]
    infer_instance
  | .whileDo span cond body =>
    have := fun p => alarming_resolveStmts p body
    rw [resolveStmt]
    infer_instance

lemma alarming_resolveStmts (p : Place) (ts : List Syntax.Stmt) : Alarming (resolveStmts p ts) := by
  match ts with
  | [] =>
    rw [resolveStmts]
    infer_instance
  | t :: ts =>
    have := alarming_resolveStmt p t
    have := fun p => alarming_resolveStmts p ts
    rw [resolveStmts]
    infer_instance

end

instance (p : Place) (ts : List Syntax.Stmt) : Alarming (resolveStmts p ts) :=
  alarming_resolveStmts p ts

/-! ## Declarations -/

instance (owner : FunId) (seen : List Bytes) (ps : List Param) :
    Alarming (declareParams owner seen ps) := by
  induction ps generalizing seen with
  | nil =>
    rw [declareParams]
    infer_instance
  | cons p ps ih =>
    rw [declareParams]
    infer_instance

instance (d : FnDecl) : Alarming (declareFn d) := by
  unfold declareFn
  split
  · infer_instance
  · refine @Alarming.of_bind _ _ _ _ _ fun s => ?_
    dsimp only
    split <;> infer_instance

instance (is : List Item) : Alarming (declareFns is) := by
  induction is with
  | nil =>
    rw [declareFns]
    infer_instance
  | cons i is ih =>
    cases i <;> rw [declareFns] <;> infer_instance

instance (globals : Frame) (is : List Item) : Alarming (resolveConsts globals is) := by
  induction is generalizing globals with
  | nil =>
    rw [resolveConsts]
    infer_instance
  | cons i is ih =>
    cases i <;> rw [resolveConsts] <;> infer_instance

instance (globals : Frame) (fns : List (FunId × FnDecl)) :
    Alarming (resolveBodies globals fns) := by
  induction fns with
  | nil =>
    rw [resolveBodies]
    infer_instance
  | cons f fns ih =>
    rw [resolveBodies]
    unfold resolveBody
    infer_instance

instance (m : Syntax.Module) : Alarming (resolveMain m) := by
  refine @Alarming.of_bind _ _ _ _ _ fun s => ?_
  dsimp only
  split <;> infer_instance

instance (m : Syntax.Module) : Alarming (resolveModule m) := by
  unfold resolveModule
  infer_instance

lemma isError_of_mem_resolve {m : Syntax.Module} {d : Diagnostic}
    (h : d ∈ (resolve m).diagnostics) : d.isError = true := by
  obtain ⟨new, hnew, herrors⟩ := Alarming.errors (x := resolveModule m) { table := .builtin }
  rw [List.append_nil] at hnew
  refine herrors d ?_
  rw [← hnew]
  exact List.mem_reverse.1 h

end VecLang.Resolved
