import VecLang.Resolved.Tree
import VecLang.Syntax.Tree
import VecLang.Diagnostic.Bag

/-!
# Resolving names

From a syntax tree to a resolved program. All functions are declared first, so a call may come
before its function; then the constants, each visible to those after it; then the bodies. What
cannot be resolved is reported and left out.
-/

namespace VecLang.Resolved

inductive ResolveCause where
  | missingMain
  | mainHasParams
  | constructorName (name : Bytes)
  | functionDeclared (name : Bytes)
  | parameterDeclared (name : Bytes)
  | constantDeclared (name : Bytes)
  | localDeclared (name : Bytes)
  | unknownType (name : Bytes)
  | unknownName (name : Bytes)
  | unknownVariable (name : Bytes)
  | unknownFunction (name : Bytes)
  | functionAsValue (name : Bytes)
  | notCallable (name : Bytes)
  | callInConstant (name : Bytes)
  | components (name : Bytes) (want got : Nat)
  | arguments (name : Bytes) (want got : Nat)
  | assignToConstant (name : Bytes)
  | loopControlOutside
  | intOutOfRange
  | realOutOfRange
  | notLiteral
deriving DecidableEq

namespace ResolveCause

def code : ResolveCause → Code
  | missingMain => .missingMain
  | mainHasParams | components _ _ _ | arguments _ _ _ => .arityMismatch
  | constructorName _ | functionDeclared _ | parameterDeclared _ | constantDeclared _
  | localDeclared _ => .duplicateSymbol
  | unknownType _ | unknownName _ | unknownVariable _ | unknownFunction _ => .unresolvedSymbol
  | functionAsValue _ => .functionAsValue
  | notCallable _ => .notCallable
  | callInConstant _ => .constNotConstant
  | assignToConstant _ => .notAssignable
  | loopControlOutside => .loopControlOutside
  | intOutOfRange | realOutOfRange => .badNumber
  | notLiteral => .expectExpression

def message : ResolveCause → Bytes
  | missingMain => "program has no 'main' function"
  | mainHasParams => "'main' must not take parameters"
  | constructorName n => "'" ++ n ++ "' is a builtin constructor"
  | functionDeclared n => "function '" ++ n ++ "' is already declared"
  | parameterDeclared n => "duplicate parameter '" ++ n ++ "'"
  | constantDeclared n => "constant '" ++ n ++ "' is already declared"
  | localDeclared n => "'" ++ n ++ "' is already declared in this block"
  | unknownType n => "unknown type '" ++ n ++ "'"
  | unknownName n => "unknown name '" ++ n ++ "'"
  | unknownVariable n => "unknown variable '" ++ n ++ "'"
  | unknownFunction n => "unknown function '" ++ n ++ "'"
  | functionAsValue n => "function '" ++ n ++ "' used as a value"
  | notCallable n => "'" ++ n ++ "' is a variable, not a function"
  | callInConstant n => "constant initializer cannot call '" ++ n ++ "'"
  | components n want got =>
    n ++ " takes " ++ Bytes.ofNat want ++ " components, got " ++ Bytes.ofNat got
  | arguments n want got =>
    "'" ++ n ++ "' takes " ++ Bytes.ofNat want ++ " arguments, got " ++ Bytes.ofNat got
  | assignToConstant n => "cannot assign to constant '" ++ n ++ "'"
  | loopControlOutside => "'break' and 'continue' are only allowed inside 'while'"
  | intOutOfRange => "integer literal out of range"
  | realOutOfRange => "real literal out of range"
  | notLiteral => "invalid literal"

end ResolveCause

structure ResolveState where
  table : SymbolTable
  /-- Everything reported, the latest first. -/
  reports : List Diagnostic := []

abbrev Resolve := StateM ResolveState

def report (cause : ResolveCause) (span : Span) (notes : List Note := []) : Resolve Unit :=
  modify fun s =>
    { s with
      reports := { Diagnostic.error cause.code span cause.message with notes } :: s.reports }

def refuse (cause : ResolveCause) (span : Span) : Resolve (Option α) := do
  report cause span
  return none

def previousAt (span : Span) : Note := ⟨span, "previous declaration"⟩

def newVar (v : Var) : Resolve VarId := modifyGet fun s =>
  let (table, id) := s.table.addVar v
  (id, { s with table })

def newFun (f : Fun) : Resolve FunId := modifyGet fun s =>
  let (table, id) := s.table.addFun f
  (id, { s with table })

def constructors : List Ty := [.vec2, .vec3, .vec4, .complex]

def constructor? (name : Bytes) : Option Ty := constructors.find? fun t => t.name = name

def resolveType (t : Option Syntax.TypeName) : Resolve Ty := do
  match t with
  | none => return .invalid
  | some t =>
    match Ty.ofName? t.name with
    | some ty => return ty
    | none =>
      report (.unknownType t.name) t.span
      return .invalid

/-! ## Expressions -/

def literal (t : Token) : Except ResolveCause Value :=
  let digits := t.text.filter (· ≠ 0x5f)
  match t.kind with
  | .kwTrue => .ok (.bool true)
  | .kwFalse => .ok (.bool false)
  | .intLit =>
    match Bytes.toNat? digits with
    | some n => if n < 0x8000000000000000 then .ok (.int (Int64.ofNat n)) else .error .intOutOfRange
    | none => .error .intOutOfRange
  | .realLit =>
    match Decimal.parse? digits with
    | some x => .ok (.real x)
    | none => .error .realOutOfRange
  | .imagLit =>
    match Decimal.parse? (digits.filter (· ≠ 0x69)) with
    | some x => .ok (.complex .zero x)
    | none => .error .realOutOfRange
  | _ => .error .notLiteral

def laneOf (c : UInt8) : Nat :=
  match c with
  | 0x78 => 0
  | 0x79 => 1
  | 0x7a => 2
  | _ => 3

structure Place where
  scope : Scope
  /-- Whether it is part of the initial value of a constant. -/
  inConst : Bool := false
  /-- The function it is part of. -/
  owner : Option FunId := none
  /-- Whether a loop of that function is around it. -/
  inLoop : Bool := false

def resolveCallee (p : Place) (span : Span) (name : Bytes) (nameSpan : Span) (got : Nat) :
    Resolve (Option FunId) := do
  if (p.scope.lookup? name).isSome then refuse (.notCallable name) nameSpan
  else
    let table := (← get).table
    match table.lookupFun? name with
    | none => refuse (.unknownFunction name) nameSpan
    | some id =>
      if p.inConst then refuse (.callInConstant name) span
      else
        let want := ((table.fun? id).map (·.params.length)).getD 0
        if want ≠ got then refuse (.arguments name want got) nameSpan else return some id

mutual

def resolveExpr (p : Place) : Syntax.Expr → Resolve (Option Expr)
  | .group _ x => resolveExpr p x
  | .lit t =>
    match literal t with
    | .ok v => return some (.lit t.span v)
    | .error cause => refuse cause t.span
  | .ident span name => do
    match p.scope.lookup? name with
    | some id => return some (.var span id)
    | none =>
      if ((← get).table.lookupFun? name).isSome then refuse (.functionAsValue name) span
      else refuse (.unknownName name) span
  | .unary span op x => do
    let x ← resolveExpr p x
    return x.map (.unary span op)
  | .binary span op x y => do
    let x ← resolveExpr p x
    let y ← resolveExpr p y
    return do return .binary span op (← x) (← y)
  | .swizzle span comps _ x => do
    let x ← resolveExpr p x
    return x.map (.swizzle span (comps.map laneOf))
  | .call span name nameSpan args => do
    let args ← resolveExprs p args
    match constructor? name with
    | some t =>
      if args.length ≠ t.lanes then refuse (.components name t.lanes args.length) nameSpan
      else return (args.mapM id).map (.pack span t)
    | none =>
      match ← resolveCallee p span name nameSpan args.length with
      | none => return none
      | some f => return (args.mapM id).map (.call span f)

def resolveExprs (p : Place) : List Syntax.Expr → Resolve (List (Option Expr))
  | [] => return []
  | e :: es => do
    let x ← resolveExpr p e
    let xs ← resolveExprs p es
    return x :: xs

end

/-! ## Statements -/

/-- Resolve a new variable. Its value does not see it; the statements after it do. -/
def resolveLet (p : Place) (span : Span) (name : Bytes) (nameSpan : Span)
    (type : Option Syntax.TypeName) (value : Syntax.Expr) : Resolve (Option Stmt × Scope) := do
  let value ← resolveExpr p value
  let declared ← resolveType type
  let id ← newVar { name, kind := .local, declared, span := nameSpan, owner := p.owner }
  match p.scope.here? name with
  | some prev =>
    let prevSpan := (((← get).table.var? prev).map (·.span)).getD .none
    report (.localDeclared name) nameSpan [previousAt prevSpan]
    return (none, p.scope)
  | none => return (value.map (.letVar span id), p.scope.declare name id)

def resolveAssign (p : Place) (span : Span) (name : Bytes) (nameSpan : Span)
    (value : Syntax.Expr) : Resolve (Option Stmt) := do
  let value ← resolveExpr p value
  match p.scope.lookup? name with
  | none => refuse (.unknownVariable name) nameSpan
  | some id =>
    if ((← get).table.var? id).map (·.kind) = some .const then
      refuse (.assignToConstant name) nameSpan
    else return value.map (.assign span id)

def resolveJump (p : Place) (span : Span) (jump : Stmt) : Resolve (Option Stmt) :=
  if p.inLoop then return some jump else refuse .loopControlOutside span

mutual

def resolveStmt (p : Place) : Syntax.Stmt → Resolve (Option Stmt × Scope)
  | .letVar span name nameSpan type value => resolveLet p span name nameSpan type value
  | .assign span name nameSpan value =>
    return (← resolveAssign p span name nameSpan value, p.scope)
  | .expr span value => do
    let x ← resolveExpr p value
    return (x.map (.expr span), p.scope)
  | .ret span none => return (some (.ret span none), p.scope)
  | .ret span (some value) => do
    let x ← resolveExpr p value
    return (x.map fun x => .ret span (some x), p.scope)
  | .breakLoop span => return (← resolveJump p span (.breakLoop span), p.scope)
  | .continueLoop span => return (← resolveJump p span (.continueLoop span), p.scope)
  | .ifElse span cond thenBody elseBody => do
    let cond ← resolveExpr p cond
    let t ← resolveStmts { p with scope := [] :: p.scope } thenBody
    let e ← resolveStmts { p with scope := [] :: p.scope } elseBody
    let e := if elseBody.isEmpty then none else some e
    return (cond.map fun c => .ifElse span c t e, p.scope)
  | .whileDo span cond body => do
    let cond ← resolveExpr p cond
    let body ← resolveStmts { p with scope := [] :: p.scope, inLoop := true } body
    return (cond.map fun c => .whileDo span c body, p.scope)

/-- Resolve statements in order, without those that have a fault. -/
def resolveStmts (p : Place) : List Syntax.Stmt → Resolve (List Stmt)
  | [] => return []
  | t :: ts => do
    let (t, scope) ← resolveStmt p t
    let ts ← resolveStmts { p with scope } ts
    return t.toList ++ ts

end

/-! ## Declarations -/

def declareParams (owner : FunId) : (seen : List Bytes) → List Syntax.Param →
    Resolve (List VarId)
  | _, [] => return []
  | seen, p :: ps => do
    if seen.contains p.name then report (.parameterDeclared p.name) p.span
    let declared ← resolveType p.type
    let id ← newVar { name := p.name, kind := .param, declared, span := p.span, owner := owner }
    let ids ← declareParams owner (p.name :: seen) ps
    return id :: ids

def declareFn (d : Syntax.FnDecl) : Resolve (Option FunId) := do
  if (constructor? d.name).isSome then refuse (.constructorName d.name) d.nameSpan
  else
    let table := (← get).table
    match table.lookupFun? d.name with
    | some prev =>
      let notes := match table.fun? prev with
        | some f => if f.builtin.isNone then [previousAt f.span] else []
        | none => []
      report (.functionDeclared d.name) d.nameSpan notes
      return none
    | none =>
      let result ← resolveType d.result
      let id ← newFun { name := d.name, result, span := d.nameSpan }
      let params ← declareParams id [] d.params
      modify fun s => { s with table := s.table.setParams id params }
      return some id

/-- Declare the functions among the items; those that could be declared come with their
numbers. -/
def declareFns : List Syntax.Item → Resolve (List (FunId × Syntax.FnDecl))
  | [] => return []
  | .const _ :: rest => declareFns rest
  | .fn d :: rest => do
    let id ← declareFn d
    let more ← declareFns rest
    return (id.map fun id => (id, d)).toList ++ more

def resolveConsts (globals : Frame) : List Syntax.Item → Resolve (List Const × Frame)
  | [] => return ([], globals)
  | .fn _ :: rest => resolveConsts globals rest
  | .const d :: rest => do
    let value ← resolveExpr { scope := [globals], inConst := true } d.value
    let declared ← resolveType d.type
    let id ← newVar { name := d.name, kind := .const, declared, span := d.nameSpan, owner := none }
    if (Frame.lookup? globals d.name).isSome then
      report (.constantDeclared d.name) d.nameSpan
      resolveConsts globals rest
    else
      let (more, globals) ← resolveConsts ((d.name, id) :: globals) rest
      return ((value.map fun v => ⟨id, v, d.span⟩).toList ++ more, globals)

/-- The scope of a function's parameters; the first of two with one name counts. -/
def paramScope (table : SymbolTable) (globals : Frame) (params : List VarId) : Scope :=
  params.foldl (fun s p => s.declare (table.varName p) p) [[], globals]

def resolveBody (globals : Frame) (id : FunId) (d : Syntax.FnDecl) : Resolve Func := do
  let table := (← get).table
  let params := ((table.fun? id).map (·.params)).getD []
  let scope := paramScope table globals params
  let body ← resolveStmts { scope := [] :: scope, owner := some id } d.body
  return { id, name := d.name, body, span := d.span }

def resolveBodies (globals : Frame) : List (FunId × Syntax.FnDecl) → Resolve (List Func)
  | [] => return []
  | (id, d) :: rest => do
    let f ← resolveBody globals id d
    let fs ← resolveBodies globals rest
    return f :: fs

/-- The function a program starts with. It takes no parameters. -/
def resolveMain (m : Syntax.Module) : Resolve (Option FunId) := do
  let table := (← get).table
  match (table.lookupFun? "main").bind fun id => (table.fun? id).map fun f => (id, f) with
  | none => refuse .missingMain m.span
  | some (id, f) =>
    if f.params ≠ [] then report .mainHasParams f.span
    return some id

def resolveModule (m : Syntax.Module) : Resolve Module := do
  let fns ← declareFns m.items
  let (consts, globals) ← resolveConsts [] m.items
  let funcs ← resolveBodies globals fns
  let main ← resolveMain m
  return { consts, funcs, main }

structure Resolution where
  module : Module
  table : SymbolTable
  /-- Everything reported, in order. -/
  diagnostics : List Diagnostic
deriving Inhabited

def resolve (m : Syntax.Module) : Resolution :=
  let (module, s) := resolveModule m { table := .builtin }
  { module, table := s.table, diagnostics := s.reports.reverse }

end VecLang.Resolved
