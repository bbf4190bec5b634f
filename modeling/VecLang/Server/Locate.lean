import VecLang.Analysis

/-!
# What stands at a place

The declaration, name or expression at a byte offset of a program without errors. A declared name
wins; otherwise it is the smallest expression, or name on the left of an assignment, around the
offset. A span reaches to the place behind its last byte.
-/

namespace VecLang.Server

inductive Subject where
  | var (id : VarId)
  | fn (id : FunId)
  /-- An expression that is neither a variable nor a call. -/
  | expr (ty : Ty)
deriving DecidableEq, Inhabited

structure Target where
  span : Span
  subject : Subject
deriving DecidableEq, Inhabited

def covers (s : Span) (off : Nat) : Bool := !s.isEmpty && s.start ≤ off && off ≤ s.stop

namespace Target

def ofExpr (e : Typed.Expr) : Target :=
  match e with
  | .var _ s id => ⟨s, .var id⟩
  | .call _ s callee _ => ⟨s, .fn callee⟩
  | e => ⟨e.span, .expr e.ty⟩

mutual

/-- An expression around an offset and its parts around it, the whole before the parts. -/
def inExpr (off : Nat) (e : Typed.Expr) : List Target :=
  if covers e.span off then
    ofExpr e :: match e with
      | .lit _ _ _ => []
      | .var _ _ _ => []
      | .unary _ _ _ x => inExpr off x
      | .binary _ _ _ _ _ x y => inExpr off x ++ inExpr off y
      | .call _ _ _ args => inExprs off args
      | .pack _ _ elems => inExprs off elems
      | .swizzle _ _ _ x => inExpr off x
  else []

def inExprs (off : Nat) : List Typed.Expr → List Target
  | [] => []
  | e :: es => inExpr off e ++ inExprs off es

end

def ofLeftSide (t : SymbolTable) (s : Span) (v : VarId) : Target :=
  ⟨⟨s.file, s.start, s.start + (t.varName v).length⟩, .var v⟩

mutual

def inStmt (t : SymbolTable) (off : Nat) : Typed.Stmt → List Target
  | .letVar _ _ e => inExpr off e
  | .assign s v e =>
    let left := ofLeftSide t s v
    if covers left.span off then left :: inExpr off e else inExpr off e
  | .expr _ e => inExpr off e
  | .ret _ (some e) => inExpr off e
  | .ret _ none => []
  | .breakLoop _ => []
  | .continueLoop _ => []
  | .ifElse _ c body none => inExpr off c ++ inStmts t off body
  | .ifElse _ c body (some other) => inExpr off c ++ inStmts t off body ++ inStmts t off other
  | .whileDo _ c body => inExpr off c ++ inStmts t off body

def inStmts (t : SymbolTable) (off : Nat) : List Typed.Stmt → List Target
  | [] => []
  | s :: ss => inStmt t off s ++ inStmts t off ss

end

def smallest? : List Target → Option Target
  | [] => none
  | t :: ts =>
    some (ts.foldl (fun best u => if u.span.length < best.span.length then u else best) t)

def declaredVar? (t : SymbolTable) (off : Nat) : Option Target :=
  (t.vars.toList.zipIdx 1).findSome? fun (v, id) =>
    if covers v.span off then some ⟨v.span, .var id⟩ else none

def declaredFun? (t : SymbolTable) (off : Nat) : Option Target :=
  t.funs.toList.zipIdx.findSome? fun (f, id) =>
    if f.builtin.isNone && covers f.span off then some ⟨f.span, .fn id⟩ else none

end Target

/-- What stands at an offset of a program without errors. -/
def locate (a : Analysis) (off : Nat) : Option Target :=
  match a.ok, a.typed with
  | true, some m =>
    (Target.declaredVar? a.table off).or <| (Target.declaredFun? a.table off).or <|
      Target.smallest? (m.funcs.flatMap fun f => Target.inStmts a.table off f.body)
  | _, _ => none

def definition (a : Analysis) (off : Nat) : Option Span :=
  match locate a off with
  | none => none
  | some t =>
    let declared : Option Span := match t.subject with
      | .var id => (a.table.var? id).map (·.span)
      | .fn id => ((a.table.fun? id).filter (·.builtin.isNone)).map (·.span)
      | .expr _ => none
    declared.filter (!·.isEmpty)

/-! ## Descriptions -/

def describeVar (m : Typed.Module) (id : VarId) (v : Var) : Bytes :=
  let named : Bytes := v.name ++ ": " ++ (m.varType id).name
  match v.kind with
  | .const =>
    match m.constValue? id with
    | some value => "const " ++ named ++ " = " ++ value.text
    | none => "const " ++ named
  | .param => named ++ " (parameter)"
  | _ => "let " ++ named

def describeFun (a : Analysis) (m : Typed.Module) (f : Fun) : Bytes :=
  let param (id : VarId) : Bytes :=
    let declared := ((a.table.var? id).map (·.declared)).getD .invalid
    let ty := if f.builtin.isNone then m.varType id else declared
    a.table.varName id ++ ": " ++ ty.name
  let result : Bytes := if f.result = .invalid then [] else " -> " ++ f.result.name
  "fn " ++ f.name ++ "(" ++ Bytes.join ", " (f.params.map param) ++ ")" ++ result

def describe (a : Analysis) (t : Target) : Option Bytes :=
  match a.typed with
  | none => none
  | some m =>
    match t.subject with
    | .var id => (a.table.var? id).map (describeVar m id)
    | .fn id => (a.table.fun? id).map (describeFun a m)
    | .expr ty => if ty = .invalid then none else some ty.name

end VecLang.Server
