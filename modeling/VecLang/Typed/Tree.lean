import VecLang.Stmt
import VecLang.Value.Eval

/-!
# Typed programs

A program in which every variable has one type and every operator knows the type it works on.
-/

namespace VecLang.Typed

/-- An expression with its type, which is `invalid` only for a call without a result. -/
inductive Expr where
  | lit (ty : Ty) (span : Span) (value : Value)
  | var (ty : Ty) (span : Span) (id : VarId)
  | unary (ty : Ty) (span : Span) (op : UnaryOp) (x : Expr)
  /-- An operation on operands of type `operand`; when it scales, one of them is a real number
  and the other of that type. -/
  | binary (ty : Ty) (span : Span) (op : BinaryOp) (operand : Ty) (scaling : Bool) (x y : Expr)
  | call (ty : Ty) (span : Span) (callee : FunId) (args : List Expr)
  | pack (ty : Ty) (span : Span) (elems : List Expr)
  | swizzle (ty : Ty) (span : Span) (lanes : List Nat) (x : Expr)
deriving Inhabited

namespace Expr

def ty : Expr → Ty
  | lit t _ _ => t
  | var t _ _ => t
  | unary t _ _ _ => t
  | binary t _ _ _ _ _ _ => t
  | call t _ _ _ => t
  | pack t _ _ => t
  | swizzle t _ _ _ => t

def span : Expr → Span
  | lit _ s _ => s
  | var _ s _ => s
  | unary _ s _ _ => s
  | binary _ s _ _ _ _ _ => s
  | call _ s _ _ => s
  | pack _ s _ => s
  | swizzle _ s _ _ => s

end Expr

abbrev Stmt := VecLang.Stmt Expr

structure Func where
  id : FunId
  name : Bytes
  params : List VarId
  /-- The type of its result, `invalid` when it has none. -/
  result : Ty
  body : List Stmt
  span : Span
deriving Inhabited

structure Const where
  var : VarId
  value : Value
deriving Inhabited

structure Module where
  consts : List Const
  funcs : List Func
  main : Option FunId
  /-- The types of the variables in order of their numbers, the first of which is one. -/
  varTypes : Array Ty
deriving Inhabited

namespace Module

def varType (m : Module) (v : VarId) : Ty :=
  if v = 0 then .invalid else m.varTypes.getD (v - 1) .invalid

def constValue? (m : Module) (v : VarId) : Option Value :=
  (m.consts.find? fun c => c.var = v).map (·.value)

end Module

/-! ## Constants -/

mutual

/-- The value of an expression over constants, when its evaluation does not stop the machine. -/
def Expr.eval? (consts : List (VarId × Value)) : Expr → Option Value
  | .lit _ _ v => some v
  | .var _ _ id => consts.lookup id
  | .unary _ _ op x =>
    match x.eval? consts with
    | some v => Value.unary? op v
    | none => none
  | .binary _ _ op _ _ x y =>
    match x.eval? consts, y.eval? consts with
    | some l, some r => Value.binary? op l r
    | _, _ => none
  | .call _ _ _ _ => none
  | .pack t _ elems =>
    match evalAll? consts elems with
    | some vs => (Value.pack t vs).toOption
    | none => none
  | .swizzle _ _ lanes x =>
    match x.eval? consts with
    | some v => (v.swizzle lanes).toOption
    | none => none

def evalAll? (consts : List (VarId × Value)) : List Expr → Option (List Value)
  | [] => some []
  | e :: es =>
    match e.eval? consts, evalAll? consts es with
    | some v, some vs => some (v :: vs)
    | _, _ => none

end

end VecLang.Typed
