import VecLang.Ssa.Module

/-!
# Validity of programs in single assignment form

A program is valid when control always has somewhere to go, every value has one definition,
every value that is used has some definition, and every phi has one branch for each edge into
its block. `defects` lists where a program falls short; a program without defects is valid.
-/

namespace VecLang.Ssa

inductive Place where
  | argument
  | phi
  /-- A branch of the phi of a value. -/
  | phiBranch (dst : ValueId)
  | instr (block index : Nat)
  | branch (block : Nat)
  | ret (block : Nat)
deriving DecidableEq, Inhabited

def Place.text : Place → Bytes
  | argument => "argument"
  | phi => "phi"
  | phiBranch d => "phi " ++ valueName d
  | instr i j => "block " ++ Bytes.ofNat i ++ " instr " ++ Bytes.ofNat j
  | branch i => "block " ++ Bytes.ofNat i ++ " branch"
  | ret i => "block " ++ Bytes.ofNat i ++ " return"

inductive Defect where
  /-- A label stands on a block already, in the function named. -/
  | labelReused (label : LabelId) (owner : Bytes)
  | noBlocks
  | openEnd
  | branchAtEnd (block : Nat)
  | unknownTarget (block : Nat) (label : LabelId)
  | redefined (at_ : Place) (id : ValueId)
  | constantRedefined (at_ : Place) (id : ValueId)
  | emptyOperand (at_ : Place)
  | undefined (at_ : Place) (id : ValueId)
  | unknownPhiLabel (dst : ValueId) (label : LabelId)
  | phiArity (dst : ValueId) (label : LabelId) (branches edges : Nat)
deriving DecidableEq, Inhabited

def Defect.message (m : Module) : Defect → Bytes
  | labelReused l owner => "label " ++ m.labelName l ++ " already used in " ++ owner
  | noBlocks => "no blocks"
  | openEnd => "last block has no terminator"
  | branchAtEnd i =>
    "block " ++ Bytes.ofNat i ++ ": conditional branch without a following block"
  | unknownTarget i l => "block " ++ Bytes.ofNat i ++ ": jump to unknown label " ++ m.labelName l
  | redefined p id => p.text ++ " redefines " ++ valueName id
  | constantRedefined p id => p.text ++ " redefines constant " ++ valueName id
  | emptyOperand p => p.text ++ " uses an empty operand"
  | undefined p id => p.text ++ " uses undefined " ++ valueName id
  | unknownPhiLabel d l =>
    "phi " ++ valueName d ++ " placed at unknown label " ++ m.labelName l
  | phiArity d l n edges =>
    "phi " ++ valueName d ++ " at " ++ m.labelName l ++ " has " ++ Bytes.ofNat n
      ++ " branches, block has " ++ Bytes.ofNat edges ++ " incoming edges"

def Func.numbered (f : Func) : List (Nat × Block) :=
  f.blocks.toList.zipIdx.map fun (b, i) => (i, b)

def Block.placed (i : Nat) (b : Block) : List (Place × Instr) :=
  b.instrs.toList.zipIdx.map fun (instr, j) => (.instr i j, instr)

def Func.definitions (f : Func) : List (Place × ValueId) :=
  let args := f.args.map fun a => (Place.argument, a)
  let phis := f.phis.map fun p => (Place.phi, p.dst)
  let instrs := f.numbered.flatMap fun (i, b) =>
    (b.placed i).map fun (p, instr) => (p, instr.dst)
  (args ++ phis ++ instrs).filter fun (_, id) => id ≠ 0

/-- The operands that the end of a block reads, with their place. -/
def Term.placedUses (i : Nat) (t : Term) : List (Place × Atom) :=
  match t with
  | .branch l _ r _ _ => [(.branch i, l), (.branch i, r)]
  | .ret (some v) => [(.ret i, v)]
  | _ => []

def Func.uses (f : Func) : List (Place × Atom) :=
  let blocks := f.numbered.flatMap fun (i, b) =>
    ((b.placed i).flatMap fun (p, instr) => instr.uses.map fun a => (p, a))
      ++ b.term.placedUses i
  let phis := f.phis.flatMap fun p => p.branches.map fun b => (.phiBranch p.dst, .ref b .invalid)
  blocks ++ phis

/-- The labels of blocks that stand on an earlier block too; `seen` tells the function that a
label was last seen in. -/
def labelDefects (owner : Bytes) : (seen : Assoc LabelId Bytes) → List Block → List Defect
  | _, [] => []
  | seen, b :: rest =>
    if b.label = 0 then labelDefects owner seen rest
    else
      let more := labelDefects owner (seen.set b.label owner) rest
      match seen.get? b.label with
      | some first => .labelReused b.label first :: more
      | none => more

/-- Jumps that have nowhere to go. -/
def controlDefects (f : Func) : List Defect :=
  let last := f.blocks.size - 1
  let fallsOff : Bool := match f.blocks[last]? with
    | some b => b.term = .none
    | none => false
  (if fallsOff then [.openEnd] else []) ++ f.numbered.flatMap fun (i, b) =>
    let branchAtEnd : Bool := match b.term with
      | .branch .. => i = last
      | _ => false
    (if branchAtEnd then [.branchAtEnd i] else [])
      ++ (b.term.targets.filter fun l => (blockOf? f.blocks l).isNone).map (.unknownTarget i ·)

/-- Values that are defined more than once; `seen` holds those defined already. -/
def definitionDefects (pool : Assoc ValueId Value) :
    (seen : List ValueId) → List (Place × ValueId) → List Defect
  | _, [] => []
  | seen, (p, id) :: rest =>
    (if seen.contains id then [.redefined p id] else [])
      ++ (if (pool.get? id).isSome then [.constantRedefined p id] else [])
      ++ definitionDefects pool (id :: seen) rest

def useDefects (pool : Assoc ValueId Value) (defined : List ValueId) :
    List (Place × Atom) → List Defect :=
  List.filterMap fun (p, a) =>
    match a with
    | .none => some (.emptyOperand p)
    | .lit _ => none
    | .ref id _ =>
      if defined.contains id || (pool.get? id).isSome then none else some (.undefined p id)

def phiDefects (f : Func) : List Defect :=
  let edges := predecessors f
  f.phis.filterMap fun p =>
    match blockOf? f.blocks p.label with
    | none => some (.unknownPhiLabel p.dst p.label)
    | some i =>
      let n := edges.getD i 0
      if n = p.branches.length then none
      else some (.phiArity p.dst p.label p.branches.length n)

def Func.defects (m : Module) (seen : Assoc LabelId Bytes) (f : Func) : List Defect :=
  if f.blocks.isEmpty then [.noBlocks]
  else
    let defs := f.definitions
    labelDefects f.name seen f.blocks.toList ++ controlDefects f
      ++ definitionDefects m.pool [] defs ++ useDefects m.pool (defs.map (·.2)) f.uses
      ++ phiDefects f

def Func.labelsSeen (seen : Assoc LabelId Bytes) (f : Func) : Assoc LabelId Bytes :=
  f.blocks.toList.foldl (fun s b => if b.label = 0 then s else s.set b.label f.name) seen

def defectsFrom (m : Module) : (seen : Assoc LabelId Bytes) → List Func →
    List (Func × List Defect)
  | _, [] => []
  | seen, f :: fs => (f, f.defects m seen) :: defectsFrom m (f.labelsSeen seen) fs

def Module.defects (m : Module) : List (Func × List Defect) :=
  (defectsFrom m [] m.funcs).filter fun (_, ds) => !ds.isEmpty

def Module.phiBranches (m : Module) : List ValueId :=
  (m.funcs.filter fun f => !f.blocks.isEmpty).flatMap fun f => f.phis.flatMap (·.branches)

/-- Check a program: the report on its defects, if it has any. Every branch of a phi must be a
value of the program, or nothing can be said. -/
def Module.validate (m : Module) : Except Breakdown (Option Bytes) :=
  match m.phiBranches.find? fun id => id ≥ m.types.size with
  | some id => .error (.unknownValue id)
  | none =>
    match m.defects with
    | [] => .ok none
    | faulty => .ok (some (Bytes.join "\n" (faulty.map fun (f, ds) =>
        "function " ++ f.name ++ ": " ++ Bytes.join "\n" (ds.map (·.message m)))))

end VecLang.Ssa
