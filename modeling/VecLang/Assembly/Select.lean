import VecLang.Assembly.Storage

/-!
# Selection of instructions

The code of each instruction and of each end of a block. Operands are read from memory and
results written back, so no register is live between two of them.
-/

namespace VecLang.Assembly

open Ssa

/-! ## Code for given addresses -/

def copyCode (target : Target) (dst src : Address) (t : Ty) : List Inst :=
  if target.isWide t then [.loadLanes .four 0 src, .storeLanes .four dst 0]
  else [.load .rax src, .store dst .rax]

def laneWidth (t : Ty) : LaneWidth :=
  match t.lanes with
  | 1 => .one
  | 2 => .two
  | _ => .four

def laneOp : BinaryOp → LaneOp
  | .add => .add
  | .sub => .sub
  | .mul => .mul
  | .div => .div
  | _ => .none

def wordCond : BinaryOp → Cond
  | .lt => .l
  | .le => .le
  | .gt => .g
  | .ge => .ge
  | .eq => .e
  | .ne => .ne
  | _ => .none

def wordCode (op : BinaryOp) (dst l r : Address) : Except Obstacle (List Inst) := do
  let middle ← match op with
    | .add => pure [.word .add r]
    | .sub => pure [.word .sub r]
    | .mul => pure [.word .imul r]
    | .div => pure [.extendSign, .divide r]
    | .and => pure [.word .and r]
    | .or => pure [.word .or r]
    | _ => throw (.noWordOp op)
  return [.load .rax l] ++ middle ++ [.store dst .rax]

def scaleCode (op : BinaryOp) (t : Ty) (dst vector scalar : Address) : List Inst :=
  [.loadLanes (laneWidth t) 0 vector, .loadLanes .one 1 scalar, .spread 1,
   .lanes (laneOp op) true 0 1, .storeLanes (laneWidth t) dst 0]

def productCode (x : Xmm) (a b : Address) : List Inst := [.loadLanes .one x a, .scaleFirst x b]

def complexCode (op : BinaryOp) (dst l r : Address) : List Inst :=
  let (a, b) := (l, l.plus 4)
  let (c, d) := (r, r.plus 4)
  let parts :=
    if op = .mul then
      productCode 0 a c ++ productCode 1 b d ++ [.lanes .sub false 0 1]
        ++ productCode 1 a d ++ productCode 2 b c ++ [.lanes .add false 1 2]
    else
      productCode 3 c c ++ productCode 4 d d ++ [.lanes .add false 3 4]
        ++ productCode 0 a c ++ productCode 1 b d ++ [.lanes .add false 0 1, .lanes .div false 0 3]
        ++ productCode 1 b c ++ productCode 2 a d ++ [.lanes .sub false 1 2, .lanes .div false 1 3]
  parts ++ [.storeLanes .one dst 0, .storeLanes .one (dst.plus 4) 1]

def laneCode (op : BinaryOp) (t : Ty) (dst l r : Address) : Except Obstacle (List Inst) :=
  if laneOp op = .none then .error (.noLaneOp op t)
  else .ok [.loadLanes (laneWidth t) 0 l, .loadLanes (laneWidth t) 1 r,
    .lanes (laneOp op) (t ≠ .real) 0 1, .storeLanes (laneWidth t) dst 0]

def laneTestCode (test : LaneTest) (t : Ty) (l r : Address) : List Inst :=
  let mask := Nat.pow 2 t.lanes - 1
  [.loadLanes (laneWidth t) 0 l, .loadLanes (laneWidth t) 1 r, .testLanes test 0 1,
   .gatherSigns 0, .maskHalf mask, .compareHalf mask]

/-- Compare two values, and the condition under which the comparison holds. -/
def compareCode (op : BinaryOp) (t : Ty) (l r : Address) : Except Obstacle (List Inst × Cond) :=
  if !t.isFloat then .ok ([.load .rax l, .word .cmp r], wordCond op)
  else match op with
    | .lt => .ok (laneTestCode .lt t l r, .e)
    | .le => .ok (laneTestCode .le t l r, .e)
    | .gt => .ok (laneTestCode .lt t r l, .e)
    | .ge => .ok (laneTestCode .le t r l, .e)
    | .eq => .ok (laneTestCode .eq t l r, .e)
    | .ne => .ok (laneTestCode .eq t l r, .ne)
    | _ => .error (.notComparison op)

/-- The operation of an instruction on two operands; `leftType` is the type of the first. -/
def binaryCode (op : BinaryOp) (t : Ty) (scaling : Bool) (leftType : Ty) (dst l r : Address) :
    Except Obstacle (List Inst) := do
  if op.isRel then
    let (code, cond) ← compareCode op t l r
    return code ++ [.setByte cond, .widenByte, .store dst .rax]
  else if t = .int || t = .bool then wordCode op dst l r
  else if scaling then
    return if leftType.isVector then scaleCode op t dst l r else scaleCode op t dst r l
  else if t = .complex && (op = .mul || op = .div) then return complexCode op dst l r
  else laneCode op t dst l r

/-- The operation of an instruction on one operand, with a result of type `t`. -/
def unaryCode (op : UnaryOp) (t : Ty) (dst x : Address) : List Inst :=
  if op = .not then [.load .rax x, .flipBit, .store dst .rax]
  else if t = .int then [.load .rax x, .negate, .store dst .rax]
  else [.loadLanes (laneWidth t) 0 x, .flipSigns 0 LiteralPool.signMaskAddress,
    .storeLanes (laneWidth t) dst 0]

def moveLane (dst src : Address) : List Inst := [.loadHalf src, .storeHalf dst]

/-- A vector of three lanes has a fourth, which is zero. -/
def padCode (t : Ty) (dst : Address) : List Inst :=
  if t = .vec3 then [.clearHalf (dst.plus 12)] else []

def leaveCode : List Inst := [.move .rsp .rbp, .pop .rbp, .ret]

/-- Stop the program with status one, after what was printed has been written. -/
def haltCode : List Inst :=
  [.clear .edi, .callLibrary "fflush", .set .eax 60, .set .edi 1, .systemCall]

/-! ## Code of a function -/

def atomType : Atom → Ty
  | .none => .invalid
  | .lit v => v.ty
  | .ref _ t => t

def isPrintHelper (name : Bytes) : Bool :=
  ([("printi" : Bytes), "printr", "printb"]).contains name

def funcLabel (name : Bytes) : Bytes := "fn_" ++ name

def calleeLabel (name : Bytes) : Bytes := if isPrintHelper name then name else funcLabel name

def definedCode (c : Context) (id : ValueId) : Select (List Inst) := do
  if !isBranch c.func id || isPhi c.func id then return []
  let dst ← sharedAddress c id
  let src ← addressOf c id
  return copyCode c.target dst src (← typeOf c id)

def pushArgs (c : Context) : List (Atom × Int) → Select (List Inst)
  | [] => return []
  | (a, offset) :: rest => do
    let src ← operand c a
    let code := copyCode c.target { base := .reg .rsp, offset } src (atomType a)
    return code ++ (← pushArgs c rest)

def gatherCode (c : Context) (dst : Address) : (lane : Nat) → List Atom → Select (List Inst)
  | _, [] => return []
  | lane, a :: rest => do
    let src ← operand c a
    return moveLane (dst.plus (4 * lane)) src ++ (← gatherCode c dst (lane + 1) rest)

def instrCode (c : Context) : Instr → Select (List Inst)
  | .assign d s => do
    let dst ← addressOf c d
    let src ← operand c s
    return copyCode c.target dst src (← typeOf c d)
  | .binary d op t scaling l r => do
    let dst ← addressOf c d
    let la ← operand c l
    let ra ← operand c r
    binaryCode op t scaling (atomType l) dst la ra
  | .unary d op x => do
    let dst ← addressOf c d
    let src ← operand c x
    return unaryCode op (← typeOf c d) dst src
  | .call d _ name args => do
    let block := c.target.args (args.map atomType)
    let pushed ← pushArgs c (args.zip block.offsets)
    let call :=
      (if block.size > 0 then [.reserve block.size] else []) ++ pushed ++ [.call (calleeLabel name)]
        ++ (if block.size > 0 then [.release block.size] else [])
    if d = 0 then return call
    let dst ← addressOf c d
    let t ← typeOf c d
    return call ++ (if c.target.isWide t then [.storeLanes .four dst 0] else [.store dst .rax])
  | .pack d elems => do
    let dst ← addressOf c d
    let code ← gatherCode c dst 0 elems
    return code ++ padCode (← typeOf c d) dst
  | .swizzle d x lanes => do
    let dst ← addressOf c d
    let src ← operand c x
    let moves := lanes.zipIdx.flatMap fun (lane, i) =>
      moveLane (dst.plus (4 * i)) (src.plus (4 * lane))
    return moves ++ padCode (← typeOf c d) dst
  | .unknown k => throw (.unknownInstr k)

def stepCode (c : Context) (i : Instr) : Select (List Inst) := do
  let code ← instrCode c i
  if i.dst = 0 then return code
  return code ++ (← definedCode c i.dst)

def termCode (c : Context) : Term → Select (List Inst)
  | .none => return []
  | .branch l op r t target => do
    let la ← operand c l
    let ra ← operand c r
    let (code, cond) ← compareCode op t la ra
    return code ++ [.jumpIf cond (c.module.labelName target)]
  | .goto target => return [.jump (c.module.labelName target)]
  | .ret none => return leaveCode
  | .ret (some a) => do
    let src ← operand c a
    let load : Inst :=
      if c.target.isWide (atomType a) then .loadLanes .four 0 src else .load .rax src
    return load :: leaveCode
  | .halt => return haltCode
  | .unknown k => throw (.unknownTerm k)

def concatCode (f : α → Select (List Inst)) : List α → Select (List Inst)
  | [] => return []
  | a :: rest => do
    let code ← f a
    return code ++ (← concatCode f rest)

def blockCode (c : Context) (b : Block) : Select (List Line) := do
  let body ← concatCode (stepCode c) b.instrs.toList
  let last ← termCode c b.term
  let label := if b.label = 0 then [] else [.label (c.module.labelName b.label)]
  return label ++ (body ++ last).map .inst

def blocksCode (c : Context) : List Block → Select (List Line)
  | [] => return []
  | b :: rest => do
    let code ← blockCode c b
    return code ++ (← blocksCode c rest)

def bodyCode (c : Context) : Select (List Line) := do
  let args ← concatCode (definedCode c) c.func.args
  return args.map .inst ++ (← blocksCode c c.func.blocks.toList)

def funcCode (c : Context) : Except Obstacle (List Line) := do
  let (body, storage) ← (bodyCode c).run (← argumentSlots c)
  let size := alignUp storage.size c.target.stackAlign
  let room : List Line := if size > 0 then [.inst (.reserve size)] else []
  return [.label (funcLabel c.func.name), .inst (.push .rbp), .inst (.move .rbp .rsp)]
    ++ room ++ body

end VecLang.Assembly
