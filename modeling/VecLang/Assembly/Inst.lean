import VecLang.Text.Bytes

/-!
# Machine instructions

The instructions that programs are made of, one constructor for each form in use, and their
text. Memory operands are a base and an offset.
-/

namespace VecLang.Assembly

inductive Reg where
  | rax
  | rbp
  | rsp
  | rdi
  | rsi
deriving DecidableEq, Inhabited

def Reg.name : Reg → Bytes
  | rax => "rax"
  | rbp => "rbp"
  | rsp => "rsp"
  | rdi => "rdi"
  | rsi => "rsi"

inductive Half where
  | eax
  | edi
deriving DecidableEq, Inhabited

def Half.name : Half → Bytes
  | eax => "eax"
  | edi => "edi"

abbrev Xmm := Nat

def xmmName (x : Xmm) : Bytes := "xmm" ++ Bytes.ofNat x

/-- What an address is counted from. -/
inductive Base where
  | reg (r : Reg)
  /-- An entry of the pool of literals. -/
  | literal (index : Nat)
  /-- A datum with a name. -/
  | datum (name : Bytes)
deriving DecidableEq, Inhabited

def Base.text : Base → Bytes
  | reg r => r.name
  | literal i => "rel lit_" ++ Bytes.ofNat i
  | datum name => "rel " ++ name

structure Address where
  base : Base
  offset : Int := 0
deriving DecidableEq, Inhabited

namespace Address

def plus (a : Address) (n : Int) : Address := { a with offset := a.offset + n }

def text (a : Address) : Bytes :=
  let offset :=
    if a.offset = 0 then []
    else if a.offset < 0 then Bytes.ofInt a.offset
    else "+" ++ Bytes.ofInt a.offset
  "[" ++ a.base.text ++ offset ++ "]"

end Address

inductive Cond where
  | l
  | le
  | g
  | ge
  | e
  | ne
  /-- No condition at all. -/
  | none
deriving DecidableEq, Inhabited

def Cond.name : Cond → Bytes
  | l => "l"
  | le => "le"
  | g => "g"
  | ge => "ge"
  | e => "e"
  | ne => "ne"
  | none => ""

/-- Operations of `rax` with a word in memory. -/
inductive WordOp where
  | add
  | sub
  | imul
  | and
  | or
  | cmp
deriving DecidableEq, Inhabited

def WordOp.name : WordOp → Bytes
  | add => "add"
  | sub => "sub"
  | imul => "imul"
  | and => "and"
  | or => "or"
  | cmp => "cmp"

inductive LaneOp where
  | add
  | sub
  | mul
  | div
  /-- No operation at all. -/
  | none
deriving DecidableEq, Inhabited

def LaneOp.name : LaneOp → Bytes
  | add => "add"
  | sub => "sub"
  | mul => "mul"
  | div => "div"
  | none => ""

inductive LaneTest where
  | lt
  | le
  | eq
deriving DecidableEq, Inhabited

def LaneTest.name : LaneTest → Bytes
  | lt => "lt"
  | le => "le"
  | eq => "eq"

/-- How many lanes move at a time. -/
inductive LaneWidth where
  | one
  | two
  | four
deriving DecidableEq, Inhabited

def LaneWidth.mnemonic : LaneWidth → Bytes
  | one => "movss"
  | two => "movq"
  | four => "movups"

def LaneWidth.operand : LaneWidth → Address → Bytes
  | one, a => "dword " ++ a.text
  | two, a => "qword " ++ a.text
  | four, a => a.text

inductive Inst where
  | load (dst : Reg) (src : Address)
  | store (dst : Address) (src : Reg)
  | move (dst src : Reg)
  /-- An operation of `rax` with a word in memory. -/
  | word (op : WordOp) (src : Address)
  | negate
  /-- Flip the lowest bit of `rax`. -/
  | flipBit
  /-- Extend the sign of `rax` into the word above it. -/
  | extendSign
  | divide (src : Address)
  /-- Put a condition into the lowest byte of `rax`. -/
  | setByte (c : Cond)
  /-- Clear all but the lowest byte of `rax`. -/
  | widenByte
  | jump (target : Bytes)
  | jumpIf (c : Cond) (target : Bytes)
  | call (target : Bytes)
  /-- Call a function of the system's library. -/
  | callLibrary (name : Bytes)
  | ret
  | push (r : Reg)
  | pop (r : Reg)
  /-- Take room on the stack. -/
  | reserve (size : Int)
  /-- Give room on the stack back. -/
  | release (size : Int)
  | loadHalf (src : Address)
  | storeHalf (dst : Address)
  | clearHalf (dst : Address)
  | set (r : Half) (n : Nat)
  | clear (r : Half)
  | maskHalf (n : Nat)
  | compareHalf (n : Nat)
  | loadLanes (w : LaneWidth) (dst : Xmm) (src : Address)
  | storeLanes (w : LaneWidth) (dst : Address) (src : Xmm)
  /-- Arithmetic on all lanes, or on the first only. -/
  | lanes (op : LaneOp) (all : Bool) (dst src : Xmm)
  | scaleFirst (dst : Xmm) (src : Address)
  /-- Copy the first lane into all others. -/
  | spread (x : Xmm)
  | testLanes (t : LaneTest) (dst src : Xmm)
  /-- Gather the signs of the lanes in `eax`. -/
  | gatherSigns (src : Xmm)
  | flipSigns (dst : Xmm) (mask : Address)
  | address (dst : Reg) (datum : Bytes)
  /-- Widen the first lane to double precision. -/
  | widenLane (x : Xmm)
  | compareZero (src : Address)
  | moveIf (c : Cond) (dst src : Reg)
  | systemCall
deriving DecidableEq, Inhabited

def Inst.text : Inst → Bytes
  | load r a => "mov " ++ r.name ++ ", qword " ++ a.text
  | store a r => "mov qword " ++ a.text ++ ", " ++ r.name
  | move d s => "mov " ++ d.name ++ ", " ++ s.name
  | word op a => op.name ++ " rax, qword " ++ a.text
  | negate => "neg rax"
  | flipBit => "xor rax, 1"
  | extendSign => "cqo"
  | divide a => "idiv qword " ++ a.text
  | setByte c => "set" ++ c.name ++ " al"
  | widenByte => "movzx eax, al"
  | jump t => "jmp " ++ t
  | jumpIf c t => "j" ++ c.name ++ " " ++ t
  | call t => "call " ++ t
  | callLibrary name => "call " ++ name ++ " wrt ..plt"
  | ret => "ret"
  | push r => "push " ++ r.name
  | pop r => "pop " ++ r.name
  | reserve n => "sub rsp, " ++ Bytes.ofInt n
  | release n => "add rsp, " ++ Bytes.ofInt n
  | loadHalf a => "mov eax, dword " ++ a.text
  | storeHalf a => "mov dword " ++ a.text ++ ", eax"
  | clearHalf a => "mov dword " ++ a.text ++ ", 0"
  | set r n => "mov " ++ r.name ++ ", " ++ Bytes.ofNat n
  | clear r => "xor " ++ r.name ++ ", " ++ r.name
  | maskHalf n => "and eax, " ++ Bytes.ofNat n
  | compareHalf n => "cmp eax, " ++ Bytes.ofNat n
  | loadLanes w x a => w.mnemonic ++ " " ++ xmmName x ++ ", " ++ w.operand a
  | storeLanes w a x => w.mnemonic ++ " " ++ w.operand a ++ ", " ++ xmmName x
  | lanes op all d s =>
    op.name ++ (if all then "ps " else "ss ") ++ xmmName d ++ ", " ++ xmmName s
  | scaleFirst x a => "mulss " ++ xmmName x ++ ", dword " ++ a.text
  | spread x => "shufps " ++ xmmName x ++ ", " ++ xmmName x ++ ", 0"
  | testLanes t d s => "cmp" ++ t.name ++ "ps " ++ xmmName d ++ ", " ++ xmmName s
  | gatherSigns x => "movmskps eax, " ++ xmmName x
  | flipSigns x a => "xorps " ++ xmmName x ++ ", " ++ a.text
  | address r name => "lea " ++ r.name ++ ", [rel " ++ name ++ "]"
  | widenLane x => "cvtss2sd " ++ xmmName x ++ ", " ++ xmmName x
  | compareZero a => "cmp qword " ++ a.text ++ ", 0"
  | moveIf c d s => "cmov" ++ c.name ++ " " ++ d.name ++ ", " ++ s.name
  | systemCall => "syscall"

inductive Line where
  | label (name : Bytes)
  | inst (i : Inst)
deriving DecidableEq, Inhabited

def Line.text : Line → Bytes
  | label name => name ++ ":\n"
  | inst i => "    " ++ i.text ++ "\n"

end VecLang.Assembly
