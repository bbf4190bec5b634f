import VecLang.Resolved.Resolve
import VecLang.Proofs.Stateful

/-!
# Outlines

A program by its names only: between the syntax of a program, where names are not connected with
what they stand for, and the resolved program, where they are replaced by numbers. Parentheses and
empty second branches are gone, literals have their values and constructors are told from calls.

The syntax of a program has an outline if its literals are in range and its types exist. A resolved
program has one by the names in its table. Resolving does not change the outline of a program.
-/

namespace VecLang

namespace Outline

structure Decl where
  name : Bytes
  span : Span
  /-- The type it is declared with, `invalid` when none is written. -/
  type : Ty
deriving Inhabited

inductive Expr where
  | lit (span : Span) (value : Value)
  | var (span : Span) (name : Bytes)
  | unary (span : Span) (op : UnaryOp) (x : Expr)
  | binary (span : Span) (op : BinaryOp) (x y : Expr)
  | call (span : Span) (callee : Bytes) (args : List Expr)
  | pack (span : Span) (ty : Ty) (elems : List Expr)
  | swizzle (span : Span) (comps : Bytes) (x : Expr)
deriving Inhabited

inductive Stmt where
  | letVar (span : Span) (decl : Decl) (value : Expr)
  | assign (span : Span) (name : Bytes) (value : Expr)
  | expr (span : Span) (value : Expr)
  | ret (span : Span) (value : Option Expr)
  | breakLoop (span : Span)
  | continueLoop (span : Span)
  | ifElse (span : Span) (cond : Expr) (thenBody : List Stmt) (elseBody : Option (List Stmt))
  | whileDo (span : Span) (cond : Expr) (body : List Stmt)
deriving Inhabited

structure Const where
  span : Span
  decl : Decl
  value : Expr
deriving Inhabited

structure Func where
  span : Span
  decl : Decl
  params : List Decl
  body : List Stmt
deriving Inhabited

structure Module where
  consts : List Const
  funcs : List Func
deriving Inhabited

end Outline

/-! ## Outlines of syntax -/

namespace Syntax

def typeOf? : Option TypeName → Option Ty
  | none => some .invalid
  | some t => Ty.ofName? t.name

mutual

def Expr.outline? : Expr → Option Outline.Expr
  | .ident span name => some (.var span name)
  | .lit t => (Resolved.literal t).toOption.map (.lit t.span)
  | .call span callee _ args =>
    (outlines? args).map fun args =>
      match Resolved.constructor? callee with
      | some ty => .pack span ty args
      | none => .call span callee args
  | .binary span op x y => do return .binary span op (← x.outline?) (← y.outline?)
  | .unary span op x => x.outline?.map (.unary span op)
  | .group _ x => x.outline?
  | .swizzle span comps _ x => x.outline?.map (.swizzle span comps)

def outlines? : List Expr → Option (List Outline.Expr)
  | [] => some []
  | e :: es => do return (← e.outline?) :: (← outlines? es)

end

mutual

def Stmt.outline? : Stmt → Option Outline.Stmt
  | .letVar span name nameSpan type value => do
    return .letVar span ⟨name, nameSpan, ← typeOf? type⟩ (← value.outline?)
  | .assign span name _ value => value.outline?.map (.assign span name)
  | .ifElse span cond thenBody [] => do
    return .ifElse span (← cond.outline?) (← stmtOutlines? thenBody) none
  | .ifElse span cond thenBody (t :: ts) => do
    return .ifElse span (← cond.outline?) (← stmtOutlines? thenBody) (← stmtOutlines? (t :: ts))
  | .whileDo span cond body => do
    return .whileDo span (← cond.outline?) (← stmtOutlines? body)
  | .ret span none => some (.ret span none)
  | .ret span (some value) => value.outline?.map fun x => .ret span (some x)
  | .breakLoop span => some (.breakLoop span)
  | .continueLoop span => some (.continueLoop span)
  | .expr span value => value.outline?.map (.expr span)

def stmtOutlines? : List Stmt → Option (List Outline.Stmt)
  | [] => some []
  | t :: ts => do return (← t.outline?) :: (← stmtOutlines? ts)

end

def Param.outline? (p : Param) : Option Outline.Decl := (typeOf? p.type).map (⟨p.name, p.span, ·⟩)

def FnDecl.outline? (d : FnDecl) : Option Outline.Func := do
  return ⟨d.span, ⟨d.name, d.nameSpan, ← typeOf? d.result⟩, ← d.params.mapM Param.outline?,
    ← stmtOutlines? d.body⟩

def ConstDecl.outline? (d : ConstDecl) : Option Outline.Const := do
  return ⟨d.span, ⟨d.name, d.nameSpan, ← typeOf? d.type⟩, ← d.value.outline?⟩

def Item.const? : Item → Option ConstDecl
  | .const d => some d
  | .fn _ => none

def Item.fn? : Item → Option FnDecl
  | .fn d => some d
  | .const _ => none

def Module.outline? (m : Module) : Option Outline.Module := do
  return ⟨← (m.items.filterMap Item.const?).mapM ConstDecl.outline?,
    ← (m.items.filterMap Item.fn?).mapM FnDecl.outline?⟩

end Syntax

/-! ## Outlines of resolved programs -/

def SymbolTable.funName (table : SymbolTable) (id : FunId) : Bytes :=
  ((table.fun? id).map (·.name)).getD []

def SymbolTable.decl (table : SymbolTable) (v : VarId) : Outline.Decl :=
  ((table.var? v).map fun x => ⟨x.name, x.span, x.declared⟩).getD default

lemma SymbolTable.varName_of (table : SymbolTable) {v : VarId} {var : Var}
    (h : table.var? v = some var) : table.varName v = var.name := by
  rw [SymbolTable.varName, h, Option.map_some, Option.getD_some]

lemma SymbolTable.decl_of (table : SymbolTable) {v : VarId} {var : Var}
    (h : table.var? v = some var) : table.decl v = ⟨var.name, var.span, var.declared⟩ := by
  rw [SymbolTable.decl, h, Option.map_some, Option.getD_some]

namespace Resolved

variable (table : SymbolTable)

mutual

def Expr.outline : Expr → Outline.Expr
  | .lit span v => .lit span v
  | .var span v => .var span (table.varName v)
  | .unary span op x => .unary span op x.outline
  | .binary span op x y => .binary span op x.outline y.outline
  | .call span callee args => .call span (table.funName callee) (outlines args)
  | .pack span ty elems => .pack span ty (outlines elems)
  | .swizzle span lanes x => .swizzle span (laneLetters lanes) x.outline

def outlines : List Expr → List Outline.Expr
  | [] => []
  | e :: es => e.outline :: outlines es

end

mutual

def stmtOutline : Stmt → Outline.Stmt
  | .letVar span v value => .letVar span (table.decl v) (value.outline table)
  | .assign span v value => .assign span (table.varName v) (value.outline table)
  | .expr span value => .expr span (value.outline table)
  | .ret span none => .ret span none
  | .ret span (some value) => .ret span (some (value.outline table))
  | .breakLoop span => .breakLoop span
  | .continueLoop span => .continueLoop span
  | .ifElse span cond thenBody none =>
    .ifElse span (cond.outline table) (stmtOutlines thenBody) none
  | .ifElse span cond thenBody (some elseBody) =>
    .ifElse span (cond.outline table) (stmtOutlines thenBody) (some (stmtOutlines elseBody))
  | .whileDo span cond body => .whileDo span (cond.outline table) (stmtOutlines body)

def stmtOutlines : List Stmt → List Outline.Stmt
  | [] => []
  | t :: ts => stmtOutline t :: stmtOutlines ts

end

def Const.outline (c : Const) : Outline.Const := ⟨c.span, table.decl c.var, c.value.outline table⟩

def Func.outline (f : Func) : Outline.Func :=
  let sym := (table.fun? f.id).getD default
  ⟨f.span, ⟨sym.name, sym.span, sym.result⟩, sym.params.map table.decl, stmtOutlines table f.body⟩

def Module.outline (m : Module) : Outline.Module :=
  ⟨m.consts.map (·.outline table), m.funcs.map (·.outline table)⟩

end Resolved

end VecLang
