import VecLang.Stmt
import VecLang.Types.Operator
import VecLang.Value.Basic

/-!
# Resolved programs

A program in which every name is replaced by the number of what it stands for. Parentheses are
gone, literals have their values and constructors of vectors are told from calls.
-/

namespace VecLang.Resolved

inductive Expr where
  | lit (span : Span) (value : Value)
  | var (span : Span) (id : VarId)
  | unary (span : Span) (op : UnaryOp) (x : Expr)
  | binary (span : Span) (op : BinaryOp) (x y : Expr)
  | call (span : Span) (callee : FunId) (args : List Expr)
  /-- A complex number or vector made of its components. -/
  | pack (span : Span) (ty : Ty) (elems : List Expr)
  | swizzle (span : Span) (lanes : List Nat) (x : Expr)
deriving Inhabited

def Expr.span : Expr → Span
  | lit s _ => s
  | var s _ => s
  | unary s _ _ => s
  | binary s _ _ _ => s
  | call s _ _ => s
  | pack s _ _ => s
  | swizzle s _ _ => s

abbrev Stmt := VecLang.Stmt Expr

structure Func where
  id : FunId
  name : Bytes
  body : List Stmt
  span : Span
deriving Inhabited

structure Const where
  var : VarId
  value : Expr
  span : Span
deriving Inhabited

/-- A resolved program; constants and functions are in order of declaration. -/
structure Module where
  consts : List Const
  funcs : List Func
  main : Option FunId
deriving Inhabited

def maxLane (lanes : List Nat) : Nat := lanes.foldl max 0

def laneLetters (lanes : List Nat) : Bytes :=
  lanes.map fun i => (Bytes.ofString "xyzw").getD i 0x3f

end VecLang.Resolved
