import VecLang.Typing.ConstraintSets
import VecLang.Typed.Tree
import VecLang.Resolved.Tree
import VecLang.Diagnostic.Bag

/-!
# Type inference

A resolved program is walked once to gather what its expressions demand of the types of its
variables. Whether a product or quotient scales a vector is often not known on the way; these
operations get a variable of their own for their result and are settled at the end. Then every
variable must have one type, and the typed program is read off.
-/

namespace VecLang.Typing

inductive TypeFault where
  /-- Two demands on a type exclude each other. -/
  | mismatch (span : Span) (required got : TypeVar)
  /-- The demands leave more than one type for a variable, or none. -/
  | couldNotInfer (span : Span) (name : Bytes) (got : TypeVar)
  /-- The value of a constant would stop the machine. -/
  | constEval (span : Span) (name : Bytes)
deriving DecidableEq

namespace TypeFault

def code : TypeFault → Code
  | mismatch _ _ _ => .mismatchedTypes
  | couldNotInfer _ _ _ => .couldNotInfer
  | constEval _ _ => .constEvalFailed

def span : TypeFault → Span
  | mismatch s _ _ => s
  | couldNotInfer s _ _ => s
  | constEval s _ => s

def message : TypeFault → Bytes
  | mismatch _ required got =>
    "mismatched types: expected " ++ required.name ++ ", found " ++ got.name
  | couldNotInfer _ name got =>
    "could not infer the type of '" ++ name ++ "' (only know it is " ++ got.name ++ ")"
  | constEval _ name => "constant '" ++ name ++ "' cannot be evaluated"

def toDiagnostic (f : TypeFault) : Diagnostic := .error f.code f.span f.message

end TypeFault

inductive Stop where
  | fault (f : TypeFault)
  | broken (b : Breakdown)

/-! ## Gathering demands -/

inductive Operand where
  | known (tv : TypeVar)
  | anchored (v : VarId)
deriving DecidableEq, Inhabited

inductive Sketch where
  | lit (span : Span) (value : Value)
  | var (span : Span) (id : VarId)
  | unary (span : Span) (op : UnaryOp) (x : Sketch) (type : Operand)
  | binary (span : Span) (op : BinaryOp) (x y : Sketch) (type : Operand)
  | call (span : Span) (callee : FunId) (args : List Sketch) (type : Operand)
  | pack (span : Span) (ty : Ty) (elems : List Sketch)
  | swizzle (span : Span) (lanes : List Nat) (x : Sketch) (type : Operand)
deriving Inhabited

def Sketch.operand : Sketch → Operand
  | lit _ v => .known (.exact v.ty)
  | var _ id => .anchored id
  | unary _ _ _ o => o
  | binary _ _ _ _ o => o
  | call _ _ _ o => o
  | pack _ t _ => .known (.exact t)
  | swizzle _ _ _ o => o

/-- A product or quotient that is not settled yet. -/
structure Pending where
  span : Span
  op : BinaryOp
  leftSpan : Span
  rightSpan : Span
  left : Operand
  right : Operand
  /-- The variable of its result. -/
  result : VarId

structure InferState where
  sets : ConstraintSets := {}
  /-- Products and quotients not settled, the latest first. -/
  pending : List Pending := []
  /-- The number of the next variable for a result; they follow those of the program. -/
  nextTemp : VarId
  /-- The results of operations that scale a vector. -/
  scaled : List VarId := []

abbrev Infer := StateT InferState (Except Stop)

def mismatch (span : Span) (required got : TypeVar) : Infer α :=
  throw (.fault (.mismatch span required got))

/-- Stop because data make no sense. -/
def breakDown (b : Breakdown) : Infer α := throw (.broken b)

def setOf (v : VarId) : Infer SetId := do
  match (← get).sets.of? v with
  | some id => return id
  | none => breakDown (.noConstraintSet v)

def typeOf : Operand → Infer TypeVar
  | .known tv => return tv
  | .anchored v => do
    let id ← setOf v
    return (← get).sets.typeOf id

def addVar (v : VarId) (seed : TypeVar) : Infer Unit :=
  modify fun s => { s with sets := (s.sets.add v seed).1 }

def narrow (id : SetId) (tv : TypeVar) : Infer Bool := do
  match (← get).sets.constrain? id tv with
  | some (sets, _) =>
    modify fun s => { s with sets }
    return true
  | none => return false

def constrain (span : Span) (o : Operand) (c : TypeVar) : Infer Operand := do
  match o with
  | .anchored v =>
    if ← narrow (← setOf v) c then return o else mismatch span c (← typeOf o)
  | .known tv =>
    match tv.join c with
    | some j => return .known j
    | none => mismatch span c tv

def unify (span : Span) (l r : Operand) : Infer Operand := do
  match l, r with
  | .anchored v, .anchored w =>
    let a ← setOf v
    let b ← setOf w
    match (← get).sets.unite? a b with
    | some (sets, _, _) =>
      modify fun s => { s with sets }
      return l
    | none => mismatch span (← typeOf l) (← typeOf r)
  | .anchored v, .known tv =>
    if ← narrow (← setOf v) tv then return l else mismatch span (← typeOf l) tv
  | .known tv, .anchored w =>
    if ← narrow (← setOf w) tv then return r else mismatch span tv (← typeOf r)
  | .known tv, .known tw =>
    match tv.join tw with
    | some j => return .known j
    | none => mismatch span tv tw

/-- Demand that an argument and its parameter, which keeps its own set, have types in common. -/
def passArgument (span : Span) (arg : Operand) (param : VarId) : Infer Unit := do
  let set ← setOf param
  let want := (← get).sets.typeOf set
  let got ← typeOf arg
  match got.join want with
  | none => mismatch span want got
  | some j =>
    let _ ← narrow set j
    let _ ← constrain span arg j

/-- Leave a product or quotient to be settled at the end. -/
def postpone (span : Span) (op : BinaryOp) (x y : Sketch) (xSpan ySpan : Span) : Infer Operand := do
  let tmp := (← get).nextTemp
  addVar tmp .unknown
  modify fun s =>
    { s with
      nextTemp := tmp + 1
      pending := ⟨span, op, xSpan, ySpan, x.operand, y.operand, tmp⟩ :: s.pending }
  return .anchored tmp

def sketchBinary (span : Span) (op : BinaryOp) (x y : Sketch) (xSpan ySpan : Span) :
    Infer Operand := do
  if op.isLogic then
    let _ ← constrain xSpan x.operand (.exact .bool)
    let _ ← constrain ySpan y.operand (.exact .bool)
    return .known (.exact .bool)
  else if op.isRel then
    let joined ← unify span x.operand y.operand
    let _ ← constrain span joined (if op.isOrdering then .scalar else .linear)
    return .known (.exact .bool)
  else if op = .mul || op = .div then postpone span op x y xSpan ySpan
  else
    let joined ← unify span x.operand y.operand
    constrain span joined .linear

mutual

def sketch (table : SymbolTable) : Resolved.Expr → Infer Sketch
  | .lit span v => return .lit span v
  | .var span id => return .var span id
  | .unary span op x => do
    let x ← sketch table x
    let o ← constrain span x.operand (if op = .not then .exact .bool else .linear)
    return .unary span op x o
  | .binary span op x y => do
    let l ← sketch table x
    let r ← sketch table y
    let o ← sketchBinary span op l r x.span y.span
    return .binary span op l r o
  | .call span callee args => do
    match table.fun? callee with
    | none => breakDown (.unknownFun callee)
    | some f =>
      let args ← sketchArgs table args f.params
      return .call span callee args (.known f.resultVar)
  | .pack span t elems => return .pack span t (← sketchElems table elems)
  | .swizzle span lanes x => do
    let v ← sketch table x
    let _ ← constrain x.span v.operand (Swizzle.operandClass (Resolved.maxLane lanes))
    match Swizzle.result? lanes.length with
    | some t => return .swizzle span lanes v (.known (.exact t))
    | none => breakDown (.noVector lanes.length)

/-- The demands of arguments, each passed to its parameter before the next is looked at. -/
def sketchArgs (table : SymbolTable) : List Resolved.Expr → List VarId → Infer (List Sketch)
  | [], _ => return []
  | a :: as, params => do
    let x ← sketch table a
    match params with
    | [] => breakDown .outOfRange
    | p :: ps =>
      passArgument a.span x.operand p
      let xs ← sketchArgs table as ps
      return x :: xs

def sketchElems (table : SymbolTable) : List Resolved.Expr → Infer (List Sketch)
  | [] => return []
  | e :: es => do
    let x ← sketch table e
    let _ ← constrain e.span x.operand (.exact .real)
    let xs ← sketchElems table es
    return x :: xs

end

def seedOf (table : SymbolTable) (v : VarId) : Infer TypeVar := do
  match table.var? v with
  | some var => return var.seed
  | none => breakDown (.unknownVar v)

def sketchBind (table : SymbolTable) (v : VarId) (value : Resolved.Expr) : Infer Sketch := do
  let x ← sketch table value
  let _ ← unify value.span (.anchored v) x.operand
  return x

def sketchCond (table : SymbolTable) (cond : Resolved.Expr) : Infer Sketch := do
  let c ← sketch table cond
  let _ ← constrain cond.span c.operand (.exact .bool)
  return c

mutual

def sketchStmt (table : SymbolTable) (result : TypeVar) : Resolved.Stmt → Infer (Stmt Sketch)
  | .letVar span v value => do
    addVar v (← seedOf table v)
    return .letVar span v (← sketchBind table v value)
  | .assign span v value => return .assign span v (← sketchBind table v value)
  | .expr span value => return .expr span (← sketch table value)
  | .ret span none =>
    if result = .none then return .ret span none else mismatch span result .none
  | .ret span (some value) => do
    let x ← sketch table value
    let _ ← constrain value.span x.operand result
    return .ret span (some x)
  | .breakLoop span => return .breakLoop span
  | .continueLoop span => return .continueLoop span
  | .ifElse span cond t none => do
    let c ← sketchCond table cond
    return .ifElse span c (← sketchStmts table result t) none
  | .ifElse span cond t (some e) => do
    let c ← sketchCond table cond
    let t ← sketchStmts table result t
    return .ifElse span c t (some (← sketchStmts table result e))
  | .whileDo span cond body => do
    let c ← sketchCond table cond
    return .whileDo span c (← sketchStmts table result body)

/-- The demands of statements in order. -/
def sketchStmts (table : SymbolTable) (result : TypeVar) :
    List Resolved.Stmt → Infer (List (Stmt Sketch))
  | [] => return []
  | t :: ts => return (← sketchStmt table result t) :: (← sketchStmts table result ts)

end

/-! ## Settling products and quotients -/

def isVector (tv : TypeVar) : Bool := tv.within .vec

def noVector (tv : TypeVar) : Bool := (tv.join .vec).isNone

def settleScaling (p : Pending) (vec scalar : Operand) (scalarSpan : Span) : Infer Unit := do
  let _ ← unify p.span (.anchored p.result) vec
  let _ ← constrain scalarSpan scalar (.exact .real)
  modify fun s => { s with scaled := p.result :: s.scaled }

def settlePlain (p : Pending) : Infer Unit := do
  let joined ← unify p.span p.left p.right
  let joined ← unify p.span (.anchored p.result) joined
  let _ ← constrain p.span joined .number

/-- Settle an operation if what is known leaves one way, or if it has to be settled; and tell
whether it is. -/
def settle (p : Pending) (force : Bool) : Infer Bool := do
  let lt ← typeOf p.left
  let rt ← typeOf p.right
  let xt ← typeOf (.anchored p.result)
  let mul : Bool := p.op = .mul
  if isVector lt || (isVector xt && (!mul || noVector rt)) then
    settleScaling p p.left p.right p.rightSpan
    return true
  else if mul && (isVector rt || (isVector xt && noVector lt)) then
    settleScaling p p.right p.left p.leftSpan
    return true
  else if force || noVector xt || (noVector lt && (!mul || noVector rt)) then
    settlePlain p
    return true
  else return false

/-- Try to settle each operation once; those that are left come out. -/
def settleRound : List Pending → Infer (List Pending)
  | [] => return []
  | p :: ps => do
    let done ← settle p false
    let rest ← settleRound ps
    return if done then rest else p :: rest

/-- Settle all operations, in rounds. When a round settles none, the first one becomes an
operation on numbers. Each round settles at least one. -/
def settleAll : (rounds : Nat) → List Pending → Infer Unit
  | 0, _ => return ()
  | n + 1, ps => do
    let rest ← settleRound ps
    if rest.length < ps.length then settleAll n rest
    else match rest with
      | [] => return ()
      | p :: rest =>
        let _ ← settle p true
        settleAll n rest

/-! ## The typed program -/

def concreteType (span : Span) (o : Operand) : Infer Ty := do
  let tv ← typeOf o
  if tv = .none then return .invalid
  else match tv.concrete? with
    | some t => return t
    | none => breakDown (.unresolvedExpr span.render tv.name)

def buildBinary (span : Span) (op : BinaryOp) (t : Ty) (scaling : Bool) (l r : Typed.Expr) :
    Infer Typed.Expr := do
  if op.result? l.ty r.ty = some t then
    return .binary t span op (if scaling then t else l.ty) scaling l r
  else breakDown (.contradiction l.ty.name op.name r.ty.name t.name)

def scales : Operand → Infer Bool
  | .anchored v => return (← get).scaled.contains v
  | .known _ => return false

mutual

def build : Sketch → Infer Typed.Expr
  | .lit span v => return .lit v.ty span v
  | .var span id => return .var (← concreteType span (.anchored id)) span id
  | .unary span op x o => do
    let t ← concreteType span o
    return .unary t span op (← build x)
  | .binary span op x y o => do
    let t ← concreteType span o
    let l ← build x
    let r ← build y
    buildBinary span op t ((op = .mul || op = .div) && (← scales o)) l r
  | .call span callee args o => do
    let t ← concreteType span o
    return .call t span callee (← buildList args)
  | .pack span t elems => return .pack t span (← buildList elems)
  | .swizzle span lanes x o => do
    let t ← concreteType span o
    return .swizzle t span lanes (← build x)

def buildList : List Sketch → Infer (List Typed.Expr)
  | [] => return []
  | e :: es => return (← build e) :: (← buildList es)

end

structure ConstSketch where
  var : VarId
  value : Sketch
  span : Span

structure FuncSketch where
  func : Resolved.Func
  body : List (Stmt Sketch)

def sketchConst (table : SymbolTable) (c : Resolved.Const) : Infer ConstSketch := do
  addVar c.var (← seedOf table c.var)
  return ⟨c.var, ← sketchBind table c.var c.value, c.span⟩

def sketchFunc (table : SymbolTable) (f : Resolved.Func) : Infer FuncSketch := do
  match table.fun? f.id with
  | none => breakDown (.unknownFun f.id)
  | some sym => return ⟨f, ← sketchStmts table sym.resultVar f.body⟩

/-- Enter the parameters of every function. All calls of a function share them. -/
def addParams (table : SymbolTable) : Infer Unit :=
  table.funs.toList.forM fun f => f.params.forM fun p => do addVar p (← seedOf table p)

/-- The variables of the program whose type is still open, in order. -/
def unresolved (table : SymbolTable) : Infer (List TypeFault) := do
  let sets := (← get).sets
  return table.vars.toList.zipIdx.filterMap fun (v, i) =>
    match sets.typeOfVar? (i + 1) with
    | none => none
    | some tv => if tv.concrete?.isSome then none else some (.couldNotInfer v.span v.name tv)

def buildConsts (table : SymbolTable) : (known : List (VarId × Value)) → List ConstSketch →
    Infer (List Typed.Const)
  | _, [] => return []
  | known, c :: cs => do
    let x ← build c.value
    match x.eval? known with
    | none => throw (.fault (.constEval c.span (table.varName c.var)))
    | some v =>
      let rest ← buildConsts table ((c.var, v) :: known) cs
      return ⟨c.var, v⟩ :: rest

def buildFunc (table : SymbolTable) (f : FuncSketch) : Infer Typed.Func := do
  match table.fun? f.func.id with
  | none => breakDown (.unknownFun f.func.id)
  | some sym =>
    let body ← Stmt.mapListM build f.body
    return ⟨f.func.id, f.func.name, sym.params, sym.result, body, f.func.span⟩

def varTypes (table : SymbolTable) : Infer (Array Ty) := do
  let sets := (← get).sets
  return ((List.range table.vars.size).map fun i =>
    ((sets.typeOfVar? (i + 1)).bind TypeVar.concrete?).getD .invalid).toArray

/-- Infer a whole program: the typed program, or the variables whose type is open. -/
def inferModule (m : Resolved.Module) (table : SymbolTable) :
    Infer (Except (List TypeFault) Typed.Module) := do
  addParams table
  let consts ← m.consts.mapM (sketchConst table)
  let funcs ← m.funcs.mapM (sketchFunc table)
  let pending := (← get).pending.reverse
  settleAll pending.length pending
  let faults ← unresolved table
  if faults ≠ [] then return .error faults
  let types ← varTypes table
  let consts ← buildConsts table [] consts
  let funcs ← funcs.mapM (buildFunc table)
  return .ok { consts, funcs, main := m.main, varTypes := types }

def infer (m : Resolved.Module) (table : SymbolTable) :
    Except Breakdown (Except (List TypeFault) Typed.Module) :=
  match (inferModule m table).run { nextTemp := table.numVars } with
  | .ok (r, _) => .ok r
  | .error (.fault f) => .ok (.error [f])
  | .error (.broken b) => .error b

end VecLang.Typing
