import VecLang.Ssa.Module
import VecLang.Typed.Tree

/-!
# From typed programs to single assignment form

Code is only ever appended: to the current block, or as a new block behind it. Each variable
has a current value; where control flow joins, a phi takes the place of the values that meet.
Operations on constants are carried out here and leave no instruction behind.
-/

namespace VecLang.Ssa

/-- The current values of variables, in the order they were first given one. -/
abbrev Bindings := Assoc VarId ValueId

structure LoopFrame where
  start : LabelId
  stop : LabelId
  /-- The variables that the loop changes. -/
  carried : List VarId
  /-- Their values at each way back to the start, the latest first. -/
  continues : List (List ValueId) := []
  /-- Their values at each way out, the latest first. -/
  breaks : List (List ValueId) := []

structure LowerState where
  /-- The types of the values so far. -/
  types : Array Ty := #[.invalid]
  /-- The names of the labels so far; the first has number one. -/
  labels : Array Bytes := #[]
  /-- The blocks behind which nothing more will come. -/
  blocks : Array Block := #[]
  /-- The block that code is appended to. -/
  current : Block := {}
  phis : Array Phi := #[]
  /-- Current values, the innermost arm or loop first. -/
  scope : List Bindings := []
  /-- The loops around the code, the innermost first. -/
  loops : List LoopFrame := []

/-- What lowering needs to know of the program. -/
structure LowerContext where
  module : Typed.Module
  table : SymbolTable
  /-- The values of constants. -/
  pool : Assoc ValueId Value
  /-- The numbers of those values. -/
  consts : Assoc VarId ValueId

abbrev Lower := StateT LowerState (Except Breakdown)

def newValue (t : Ty) : Lower ValueId := modifyGet fun s =>
  (s.types.size, { s with types := s.types.push t })

def newLabel (hint : Bytes) : Lower LabelId := modifyGet fun s =>
  let n := s.labels.size + 1
  (n, { s with labels := s.labels.push ("L" ++ Bytes.ofNat n ++ "_" ++ hint) })

def emit (i : Instr) : Lower Unit := modify fun s =>
  { s with current := { s.current with instrs := s.current.instrs.push i } }

def terminate (t : Term) : Lower Unit := modify fun s =>
  { s with current := { s.current with term := t } }

def jump (l : LabelId) : Lower Unit := terminate (.goto l)

/-- Begin a new block; the one before goes on in it unless it has ended. -/
def startBlock (l : LabelId) : Lower Unit := modify fun s =>
  { s with blocks := s.blocks.push s.current, current := { label := l } }

def terminated : Lower Bool := do return (← get).current.term ≠ .none

def addPhi (dst : ValueId) (label : LabelId) (branches : List ValueId) : Lower Unit :=
  modify fun s => { s with phis := s.phis.push ⟨dst, label, branches⟩ }

def lookupIn (scope : List Bindings) (v : VarId) : Option ValueId :=
  scope.findSome? fun b => b.get? v

def setIn (scope : List Bindings) (v : VarId) (id : ValueId) : List Bindings :=
  match scope with
  | [] => [Assoc.set [] v id]
  | b :: rest => b.set v id :: rest

def setVar (v : VarId) (id : ValueId) : Lower Unit := modify fun s =>
  { s with scope := setIn s.scope v id }

def varValue (c : LowerContext) (v : VarId) : Lower ValueId := do
  match lookupIn (← get).scope v with
  | some id => return id
  | none =>
    match c.consts.get? v with
    | some id => return id
    | none =>
      match c.table.var? v with
      | some var => throw (.readBeforeDefinition var.name)
      | none => throw (.unknownVar v)

/-! ## Expressions -/

def LowerContext.constant? (c : LowerContext) : Atom → Option Value
  | .lit v => some v
  | .ref id _ => c.pool.get? id
  | .none => none

def result (known : Option Value) (t : Ty) (instr : ValueId → Instr) : Lower Atom := do
  match known with
  | some v => return .lit v
  | none =>
    let dst ← newValue t
    emit (instr dst)
    return .ref dst t

mutual

def lowerExpr (c : LowerContext) : Typed.Expr → Lower Atom
  | .lit _ _ v => return .lit v
  | .var t _ id => return .ref (← varValue c id) t
  | .unary t _ op x => do
    let x ← lowerExpr c x
    result ((c.constant? x).bind (Value.unary? op)) t fun dst => .unary dst op x
  | .binary t _ op operand scaling x y => do
    let l ← lowerExpr c x
    let r ← lowerExpr c y
    let known := do Value.binary? op (← c.constant? l) (← c.constant? r)
    result known t fun dst => .binary dst op operand scaling l r
  | .call t _ callee args => do
    let args ← lowerExprs c args
    match c.table.fun? callee with
    | none => throw (.unknownFun callee)
    | some f =>
      if t = .invalid then
        emit (.call 0 callee f.name args)
        return .none
      else
        let dst ← newValue t
        emit (.call dst callee f.name args)
        return .ref dst t
  | .pack t _ elems => do
    let elems ← lowerExprs c elems
    match elems.mapM c.constant? with
    | some vs =>
      let v ← Value.pack t vs
      return .lit v
    | none => result none t fun dst => .pack dst elems
  | .swizzle t _ lanes x => do
    let x ← lowerExpr c x
    match c.constant? x with
    | some v =>
      let v ← v.swizzle lanes
      return .lit v
    | none => result none t fun dst => .swizzle dst x lanes

/-- Append the code of expressions, from left to right. -/
def lowerExprs (c : LowerContext) : List Typed.Expr → Lower (List Atom)
  | [] => return []
  | e :: es => do
    let a ← lowerExpr c e
    let as ← lowerExprs c es
    return a :: as

end

/-! ## Conditions -/

def lowerBranch (c : LowerContext) (l : Atom) (op : BinaryOp) (r : Atom) (operand : Ty)
    (t f : LabelId) : Lower Unit := do
  let known := do Value.binary? op (← c.constant? l) (← c.constant? r)
  match known with
  | some v => jump (if v.isTrue then t else f)
  | none =>
    terminate (.branch l op r operand t)
    startBlock 0
    jump f

def lowerTest (c : LowerContext) (e : Typed.Expr) (t f : LabelId) : Lower Unit := do
  let v ← lowerExpr c e
  match c.constant? v with
  | some k => jump (if k.isTrue then t else f)
  | none => lowerBranch c v .eq (.lit (.bool true)) .bool t f

/-- Append the code of a condition: control goes to `t` when it holds and else to `f`. The
second operand of `and` and `or` is only evaluated when the first does not decide. -/
def lowerCond (c : LowerContext) : Typed.Expr → (t f : LabelId) → Lower Unit
  | .unary ty s op x, t, f =>
    if op = .not then lowerCond c x f t else lowerTest c (.unary ty s op x) t f
  | .binary ty s op operand scaling x y, t, f =>
    if op = .and then do
      let rhs ← newLabel "and"
      lowerCond c x rhs f
      startBlock rhs
      lowerCond c y t f
    else if op = .or then do
      let rhs ← newLabel "or"
      lowerCond c x t rhs
      startBlock rhs
      lowerCond c y t f
    else if op.isRel then do
      let l ← lowerExpr c x
      let r ← lowerExpr c y
      lowerBranch c l op r operand t f
    else lowerTest c (.binary ty s op operand scaling x y) t f
  | e, t, f => lowerTest c e t f

/-! ## Statements -/

/-- Give a variable a new value, so that no two variables share one. -/
def bindVar (c : LowerContext) (v : VarId) (a : Atom) : Lower Unit := do
  let dst ← newValue (c.module.varType v)
  emit (.assign dst a)
  setVar v dst

/-- Leave the current round of the innermost loop, or the loop, with the current values. -/
def lowerLoopExit (c : LowerContext) (again : Bool) : Lower Unit := do
  match (← get).loops with
  | [] => throw .outOfRange
  | loop :: outer =>
    let vals ← loop.carried.mapM (varValue c)
    if again then
      modify fun s => { s with loops := { loop with continues := vals :: loop.continues } :: outer }
      jump loop.start
    else
      modify fun s => { s with loops := { loop with breaks := vals :: loop.breaks } :: outer }
      jump loop.stop

/-- Take over what one of the two arms of a choice did to a variable. A phi is needed when
both arms reach the end. -/
def mergeVar (c : LowerContext) (label : LabelId) (outer a b : Option ValueId)
    (aLive bLive : Bool) (v : VarId) : Lower Unit := do
  if aLive && bLive then
    match a.or outer, b.or outer with
    | some av, some bv =>
      let dst ← newValue (c.module.varType v)
      addPhi dst label [av, bv]
      setVar v dst
    | some av, none => setVar v av
    | none, some bv => setVar v bv
    | none, none => return ()
  else if aLive then
    match a with
    | some av => setVar v av
    | none => return ()
  else if bLive then
    match b with
    | some bv => setVar v bv
    | none => return ()

/-- Take over what the two arms of a choice did. -/
def mergeArms (c : LowerContext) (label : LabelId) (a b : Bindings) (aLive bLive : Bool) :
    Lower Unit := do
  let touched := a.keys ++ b.keys.filter fun v => (a.get? v).isNone
  touched.forM fun v => do
    mergeVar c label (lookupIn (← get).scope v) (a.get? v) (b.get? v) aLive bLive v

/-- Run an arm of a choice or the body of a loop in a scope of its own, and give the values it
set and whether control reaches its end. -/
def inArm (first : Bindings) (arm : Lower Unit) : Lower (Bindings × Bool) := do
  let outer := (← get).scope
  modify fun s => { s with scope := first :: outer }
  arm
  let inner := (← get).scope.headD []
  let live := !(← terminated)
  modify fun s => { s with scope := outer }
  return (inner, live)

mutual

def assigned : Typed.Stmt → List VarId
  | .assign _ v _ => [v]
  | .ifElse _ _ t none => assignedAll t
  | .ifElse _ _ t (some e) => assignedAll t ++ assignedAll e
  | .whileDo _ _ body => assignedAll body
  | _ => []

def assignedAll : List Typed.Stmt → List VarId
  | [] => []
  | t :: ts => assigned t ++ assignedAll ts

end

/-- The variables that a loop changes, in order and each once, with their values before it.
Those declared inside have none. -/
def carriedVars (scope : List Bindings) (body : List Typed.Stmt) : List (VarId × ValueId) :=
  let vars := (assignedAll body).mergeSort (· ≤ ·)
  vars.eraseDups.filterMap fun v => (lookupIn scope v).map fun id => (v, id)

/-- Go back to the start of a loop, if the end of its body is reached, with the current values
of its variables. -/
def lowerBack (c : LowerContext) (start : LabelId) (carried : List VarId) :
    Lower (Option (List ValueId)) := do
  if ← terminated then return none
  jump start
  return some (← carried.mapM (varValue c))

def addHeadPhis (start : LabelId) (loop : LoopFrame) (back : Option (List ValueId)) :
    (index : Nat) → List (ValueId × ValueId) → Lower Unit
  | _, [] => return ()
  | i, (head, entry) :: rest => do
    let ways := loop.continues.reverse ++ back.toList
    addPhi head start (entry :: ways.map fun vals => vals.getD i 0)
    addHeadPhis start loop back (i + 1) rest

/-- The values of the variables of a loop behind it. A way out other than the condition needs a
phi. -/
def leaveLoop (c : LowerContext) (stop : LabelId) (breaks : List (List ValueId)) :
    (index : Nat) → List (VarId × ValueId) → Lower Unit
  | _, [] => return ()
  | i, (v, head) :: rest => do
    if breaks.isEmpty then setVar v head
    else
      let dst ← newValue (c.module.varType v)
      addPhi dst stop ((breaks.map fun vals => vals.getD i 0) ++ [head])
      setVar v dst
    leaveLoop c stop breaks (i + 1) rest

def lowerChoice (c : LowerContext) (cond : Typed.Expr) (thenArm elseArm : Lower Unit) :
    Lower Unit := do
  let thenL ← newLabel "then"
  let elseL ← newLabel "else"
  let endL ← newLabel "endif"
  lowerCond c cond thenL elseL
  startBlock thenL
  let (a, aLive) ← inArm [] thenArm
  if aLive then jump endL
  startBlock elseL
  let (b, bLive) ← inArm [] elseArm
  startBlock endL
  mergeArms c endL a b aLive bLive

def lowerLoop (c : LowerContext) (cond : Typed.Expr) (body : List Typed.Stmt)
    (run : Lower Unit) : Lower Unit := do
  let startL ← newLabel "while"
  let bodyL ← newLabel "body"
  let exitL ← newLabel "exit"
  let endL ← newLabel "endwhile"
  let outer := (← get).scope
  let entries := carriedVars outer body
  let carried := entries.map (·.1)
  let heads ← carried.mapM fun v => newValue (c.module.varType v)
  startBlock startL
  modify fun s => { s with scope := carried.zip heads :: outer }
  lowerCond c cond bodyL exitL
  startBlock bodyL
  modify fun s => { s with loops := ⟨startL, endL, carried, [], []⟩ :: s.loops }
  run
  let back ← lowerBack c startL carried
  let loop := (← get).loops.headD ⟨startL, endL, carried, [], []⟩
  modify fun s => { s with loops := s.loops.tail, scope := outer }
  addHeadPhis startL loop back 0 (heads.zip (entries.map (·.2)))
  startBlock exitL
  startBlock endL
  leaveLoop c endL loop.breaks.reverse 0 (carried.zip heads)

mutual

def lowerStmt (c : LowerContext) : Typed.Stmt → Lower Unit
  | .letVar _ v value => do bindVar c v (← lowerExpr c value)
  | .assign _ v value => do bindVar c v (← lowerExpr c value)
  | .expr _ value => do let _ ← lowerExpr c value
  | .ret _ none => terminate (.ret none)
  | .ret _ (some value) => do
    let a ← lowerExpr c value
    -- a call without a result is kept, and nothing is returned
    terminate (.ret (if a = .none then none else some a))
  | .breakLoop _ => lowerLoopExit c false
  | .continueLoop _ => lowerLoopExit c true
  | .ifElse _ cond thenBody none => lowerChoice c cond (lowerStmts c thenBody) (pure ())
  | .ifElse _ cond thenBody (some elseBody) =>
    lowerChoice c cond (lowerStmts c thenBody) (lowerStmts c elseBody)
  | .whileDo _ cond body => lowerLoop c cond body (lowerStmts c body)

/-- Append the code of statements up to the first that leaves the block. What follows it is
never reached. -/
def lowerStmts (c : LowerContext) : List Typed.Stmt → Lower Unit
  | [] => return ()
  | t :: ts => do
    if ← terminated then return ()
    lowerStmt c t
    lowerStmts c ts

end

/-! ## Programs -/

def lowerFunc (c : LowerContext) (f : Typed.Func) : Lower Func := do
  let args ← f.params.mapM fun p => newValue (c.module.varType p)
  let scope := (f.params.zip args).foldl (fun (b : Bindings) (p, id) => b.set p id) []
  modify fun s =>
    { s with blocks := #[], current := {}, phis := #[], scope := [scope], loops := [] }
  lowerStmts c f.body
  if !(← terminated) then
    -- the end of a function that should have returned a value stops the program
    terminate (if f.result = .invalid then .ret none else .halt)
  let s ← get
  return { id := f.id, name := f.name, span := f.span, result := f.result, args,
           blocks := s.blocks.push s.current, phis := s.phis.toList }

def lowerConsts : List Typed.Const → Lower (List (VarId × ValueId × Value))
  | [] => return []
  | k :: ks => do
    let id ← newValue k.value.ty
    let rest ← lowerConsts ks
    return (k.var, id, k.value) :: rest

def lowerModule (m : Typed.Module) (table : SymbolTable) : Except Breakdown Module := do
  let (consts, s) ← (lowerConsts m.consts).run {}
  let c : LowerContext :=
    { module := m
      table
      pool := consts.map fun (_, id, v) => (id, v)
      consts := consts.map fun (x, id, _) => (x, id) }
  let (funcs, s) ← (m.funcs.mapM (lowerFunc c)).run s
  return {
    funcs
    main := m.main
    pool := c.pool
    labels := s.labels.toList.zipIdx.map fun (name, i) => (i + 1, name)
    types := s.types }

end VecLang.Ssa
