import VecLang.Token.Basic
import VecLang.Types.Operator

/-!
# Syntax trees

A source text as the grammar sees it. Every node knows the span it was read from; names are
not yet connected with what they stand for.
-/

namespace VecLang.Syntax

/-- A type written in the text. Whether there is such a type is not known yet. -/
structure TypeName where
  name : Bytes
  span : Span
deriving DecidableEq, Inhabited

inductive Expr where
  | ident (span : Span) (name : Bytes)
  /-- A number or truth value, as its token. -/
  | lit (token : Token)
  | call (span : Span) (callee : Bytes) (calleeSpan : Span) (args : List Expr)
  | binary (span : Span) (op : BinaryOp) (x y : Expr)
  | unary (span : Span) (op : UnaryOp) (x : Expr)
  /-- An expression in parentheses. -/
  | group (span : Span) (x : Expr)
  /-- A choice of lanes, by their letters. -/
  | swizzle (span : Span) (comps : Bytes) (compsSpan : Span) (x : Expr)
deriving Inhabited

def Expr.span : Expr → Span
  | ident s _ => s
  | lit t => t.span
  | call s _ _ _ => s
  | binary s _ _ _ => s
  | unary s _ _ => s
  | group s _ => s
  | swizzle s _ _ _ => s

inductive Stmt where
  /-- A new variable with its first value. -/
  | letVar (span : Span) (name : Bytes) (nameSpan : Span) (type : Option TypeName) (value : Expr)
  | assign (span : Span) (name : Bytes) (nameSpan : Span) (value : Expr)
  /-- A choice; `else if` is a choice as the only statement of the second branch. -/
  | ifElse (span : Span) (cond : Expr) (thenBody elseBody : List Stmt)
  | whileDo (span : Span) (cond : Expr) (body : List Stmt)
  | ret (span : Span) (value : Option Expr)
  | breakLoop (span : Span)
  | continueLoop (span : Span)
  /-- An expression, always a call, for its effect. -/
  | expr (span : Span) (value : Expr)
deriving Inhabited

def Stmt.span : Stmt → Span
  | letVar s _ _ _ _ => s
  | assign s _ _ _ => s
  | ifElse s _ _ _ => s
  | whileDo s _ _ => s
  | ret s _ => s
  | breakLoop s => s
  | continueLoop s => s
  | expr s _ => s

structure Param where
  name : Bytes
  span : Span
  type : Option TypeName
deriving Inhabited

structure FnDecl where
  span : Span
  name : Bytes
  nameSpan : Span
  params : List Param
  result : Option TypeName
  body : List Stmt
deriving Inhabited

structure ConstDecl where
  span : Span
  name : Bytes
  nameSpan : Span
  type : Option TypeName
  value : Expr
deriving Inhabited

inductive Item where
  | fn (decl : FnDecl)
  | const (decl : ConstDecl)
deriving Inhabited

namespace Item

def span : Item → Span
  | fn d => d.span
  | const d => d.span

def name : Item → Bytes
  | fn d => d.name
  | const d => d.name

end Item

structure Module where
  span : Span
  items : List Item
deriving Inhabited

end VecLang.Syntax
