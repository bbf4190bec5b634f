import VecLang.Assembly.LiteralPool
import VecLang.Layout

/-!
# Storage of values

Every value lives in memory. Slots are handed out in the order in which addresses are asked
for, and are never given up. Values linked by phis share one more slot, in which the value of
the phi lives.
-/

namespace VecLang.Assembly

open Ssa

/-- Why no code can be made for a function. -/
inductive Obstacle where
  | emptyOperand
  /-- A literal has no entry in the pool. -/
  | noEntry (bits : Value.Bits)
  | noWordOp (op : BinaryOp)
  | noLaneOp (op : BinaryOp) (ty : Ty)
  | notComparison (op : BinaryOp)
  | unknownInstr (kind : Nat)
  | unknownTerm (kind : Nat)
  | broken (cause : Breakdown)
deriving DecidableEq

def hexText (w : UInt64) : Bytes := Bytes.ofString (String.ofList (Nat.toDigits 16 w.toNat))

def Obstacle.message : Obstacle → Bytes
  | emptyOperand => "amd64: empty operand"
  | noEntry b =>
    "amd64: literal [0x" ++ hexText b.low ++ " 0x" ++ hexText b.high ++ "] was not collected"
  | noWordOp op => "amd64: no integer " ++ op.name
  | noLaneOp op t => "amd64: no " ++ op.name ++ " for " ++ t.name
  | notComparison op => "amd64: " ++ op.name ++ " is not a comparison"
  | unknownInstr k => "amd64: unexpected instruction kind " ++ Bytes.ofNat k
  | unknownTerm k => "amd64: unexpected terminator kind " ++ Bytes.ofNat k
  | broken b => b.message

structure Context where
  module : Module
  pool : LiteralPool
  target : Target
  func : Func

/-- The slots handed out so far. -/
structure Storage where
  /-- The bytes in use below the frame pointer. -/
  size : Int := 0
  /-- The slots of values. -/
  slots : Assoc ValueId Address := []
  /-- The shared slots of values linked by phis. -/
  shared : Assoc ValueId Address := []
deriving Inhabited

def neighbours (phis : List Phi) (id : ValueId) : List ValueId :=
  phis.flatMap fun p =>
    (if p.dst = id then p.branches else []) ++ (if p.branches.contains id then [p.dst] else [])

def reachable (phis : List Phi) : (rounds : Nat) → List ValueId → List ValueId
  | 0, found => found
  | rounds + 1, found =>
    let more := (found.flatMap (neighbours phis)).foldl
      (fun acc id => if acc.contains id then acc else acc ++ [id]) found
    if more.length = found.length then found else reachable phis rounds more

/-- The values linked with a value by phis, directly or through others. -/
def component (phis : List Phi) (id : ValueId) : List ValueId :=
  reachable phis ((phis.map fun p => p.branches.length + 1).foldr (· + ·) 0) [id]

def isPhi (f : Func) (id : ValueId) : Bool := f.phis.any fun p => p.dst = id

def isBranch (f : Func) (id : ValueId) : Bool := f.phis.any fun p => p.branches.contains id

abbrev Select := StateT Storage (Except Obstacle)

def typeOf (c : Context) (id : ValueId) : Select Ty :=
  match c.module.typeOf id with
  | .ok t => pure t
  | .error b => throw (.broken b)

def Storage.allocate (target : Target) (t : Ty) (s : Storage) : Address × Storage :=
  let room := target.roomOf t
  let size := alignUp (s.size + room.size) room.align
  ({ base := .reg .rbp, offset := -size }, { s with size })

def allocate (c : Context) (id : ValueId) : Select Address := do
  let t ← typeOf c id
  modifyGet fun s => s.allocate c.target t

def sharedAddress (c : Context) (id : ValueId) : Select Address := do
  match (← get).shared.get? id with
  | some a => return a
  | none =>
    let a ← allocate c id
    let linked := component c.func.phis id
    modify fun s => { s with
      shared := linked.foldl (fun m v => if (m.get? v).isSome then m else m.set v a) s.shared }
    return a

def literalAddress (c : Context) (v : Value) : Select Address :=
  match c.pool.address? v with
  | some a => pure a
  | none => throw (.noEntry v.bits)

def addressOf (c : Context) (id : ValueId) : Select Address := do
  match c.module.pool.get? id with
  | some v => literalAddress c v
  | none =>
    if isPhi c.func id then sharedAddress c id
    else match (← get).slots.get? id with
      | some a => return a
      | none =>
        let a ← allocate c id
        modify fun s => { s with slots := s.slots.set id a }
        return a

def operand (c : Context) : Atom → Select Address
  | .lit v => literalAddress c v
  | .ref id _ => addressOf c id
  | .none => throw .emptyOperand

/-- The slots of the arguments, which lie above the frame pointer in order. -/
def argumentSlots (c : Context) : Except Obstacle Storage := do
  let types ← (c.func.args.mapM c.module.typeOf).mapError .broken
  let offsets := (c.target.args types).offsets
  let slots := (c.func.args.zip offsets).foldl (fun (m : Assoc ValueId Address) (a, off) =>
    m.set a { base := .reg .rbp, offset := c.target.argBase + off }) []
  return { slots }

end VecLang.Assembly
