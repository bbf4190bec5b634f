import VecLang.Symbols
import VecLang.Types.Operator
import VecLang.Value.Basic
import VecLang.Breakdown
import VecLang.Assoc

/-!
# Code in single assignment form

A function is a list of blocks of instructions. Every instruction gives a value to a number of
its own, and a phi tells which number stands for a value that arrives along several edges.
-/

namespace VecLang.Ssa

abbrev ValueId := Nat

abbrev LabelId := Nat

def valueName (id : ValueId) : Bytes := "%" ++ Bytes.ofNat id

inductive Atom where
  /-- No operand at all. -/
  | none
  | lit (value : Value)
  | ref (id : ValueId) (ty : Ty)
deriving DecidableEq, Inhabited

def Atom.text : Atom → Bytes
  | none => "_"
  | lit v => v.text
  | ref id _ => valueName id

inductive Instr where
  | assign (dst : ValueId) (src : Atom)
  /-- An operation on operands of type `operand`; when it scales, one of them is real. -/
  | binary (dst : ValueId) (op : BinaryOp) (operand : Ty) (scaling : Bool) (l r : Atom)
  | unary (dst : ValueId) (op : UnaryOp) (x : Atom)
  /-- A call; `dst` is zero when it gives no value. -/
  | call (dst : ValueId) (callee : FunId) (name : Bytes) (args : List Atom)
  | pack (dst : ValueId) (elems : List Atom)
  | swizzle (dst : ValueId) (x : Atom) (lanes : List Nat)
  /-- An instruction that no machine knows. -/
  | unknown (kind : Nat)
deriving DecidableEq, Inhabited

namespace Instr

def dst : Instr → ValueId
  | assign d _ => d
  | binary d _ _ _ _ _ => d
  | unary d _ _ => d
  | call d _ _ _ => d
  | pack d _ => d
  | swizzle d _ _ => d
  | unknown _ => 0

def uses : Instr → List Atom
  | assign _ s => [s]
  | binary _ _ _ _ l r => [l, r]
  | unary _ _ x => [x]
  | call _ _ _ args => args
  | pack _ elems => elems
  | swizzle _ x _ => [x]
  | unknown _ => []

end Instr

inductive Term where
  /-- Control goes on in the next block. -/
  | none
  /-- Control goes to the target when the comparison holds, and else to the next block. -/
  | branch (l : Atom) (op : BinaryOp) (r : Atom) (operand : Ty) (target : LabelId)
  | goto (target : LabelId)
  | ret (value : Option Atom)
  /-- The program stops. -/
  | halt
  /-- An end that no machine knows. -/
  | unknown (kind : Nat)
deriving DecidableEq, Inhabited

namespace Term

def targets : Term → List LabelId
  | branch _ _ _ _ t => [t]
  | goto t => [t]
  | _ => []

def fallsThrough : Term → Bool
  | none | branch _ _ _ _ _ => true
  | _ => false

/-- The operands that the end of a block reads. -/
def uses : Term → List Atom
  | branch l _ r _ _ => [l, r]
  | ret (some v) => [v]
  | _ => []

end Term

structure Block where
  label : LabelId := 0
  instrs : Array Instr := #[]
  term : Term := .none
deriving DecidableEq, Inhabited

/-- On entry to the block with label `label`, `dst` is the branch of the edge taken. -/
structure Phi where
  dst : ValueId
  label : LabelId
  branches : List ValueId
deriving DecidableEq, Inhabited

structure Func where
  id : FunId
  name : Bytes
  span : Span := .none
  /-- The type of its result, `invalid` when it has none. -/
  result : Ty
  args : List ValueId
  blocks : Array Block
  phis : List Phi
deriving DecidableEq, Inhabited

structure Module where
  /-- The functions in order of declaration. -/
  funcs : List Func
  main : Option FunId
  /-- The values of constants. -/
  pool : Assoc ValueId Value
  /-- The names of labels. -/
  labels : Assoc LabelId Bytes
  /-- The types of values, by number. -/
  types : Array Ty
deriving Inhabited

namespace Module

def typeOf (m : Module) (id : ValueId) : Except Breakdown Ty :=
  match m.types[id]? with
  | some t => .ok t
  | none => .error (.unknownValue id)

def labelName (m : Module) (l : LabelId) : Bytes :=
  (m.labels.get? l).getD ("L" ++ Bytes.ofNat l)

def mainFunc? (m : Module) : Option Func :=
  m.main.bind fun main => m.funcs.find? fun f => f.id = main

end Module

def blockOf? (blocks : Array Block) (l : LabelId) : Option Nat :=
  if l = 0 then none
  else (List.range blocks.size).reverse.find? fun i => (blocks[i]?.map (·.label)) = some l

/-- The number of edges that enter each block: jumps to its label, and the way from the block
before it. -/
def predecessors (f : Func) : List Nat :=
  let targets := f.blocks.toList.flatMap fun b => b.term.targets.filterMap (blockOf? f.blocks)
  (List.range f.blocks.size).map fun i =>
    let fromAbove := i ≠ 0 && (f.blocks[i - 1]?.map (·.term.fallsThrough)).getD false
    targets.count i + if fromAbove then 1 else 0

end VecLang.Ssa
