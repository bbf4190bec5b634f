import VecLang.Assembly.Inst
import VecLang.Ssa.Module

/-!
# The pool of literals

Literals and constants lie in read-only memory, one entry of sixteen bytes for each pattern of
bits. The first entry is the mask that flips the signs of four lanes.
-/

namespace VecLang.Assembly

open Ssa

abbrev LiteralPool := List Value.Bits

namespace LiteralPool

def signMask : Value.Bits := ⟨0x8000000080000000, 0x8000000080000000⟩

def add (p : LiteralPool) (b : Value.Bits) : LiteralPool := if p.contains b then p else p ++ [b]

def address? (p : LiteralPool) (v : Value) : Option Address :=
  (p.idxOf? v.bits).map fun i => { base := .literal i }

def signMaskAddress : Address := { base := .literal 0 }

def literal? : Atom → Option Value
  | .lit v => some v
  | _ => none

def literals (f : Func) : List Value :=
  f.blocks.toList.flatMap fun b =>
    (b.instrs.toList.flatMap Instr.uses ++ b.term.uses).filterMap literal?

/-- The pool of a program: the mask, the constants in order of their numbers, and the literals
in order of the code. -/
def ofModule (m : Module) : LiteralPool :=
  let consts := (m.pool.mergeSort fun a b => a.1 ≤ b.1).map (·.2)
  (consts ++ m.funcs.flatMap literals).foldl (fun p v => add p v.bits) [signMask]

def entryText (i : Nat) (b : Value.Bits) : Bytes :=
  "align 16\nlit_" ++ Bytes.ofNat i ++ ": dq 0x" ++ Bytes.hexFixed 16 b.low.toNat ++ ", 0x"
    ++ Bytes.hexFixed 16 b.high.toNat ++ "\n"

def text (p : LiteralPool) : Bytes :=
  "section .rodata\n" ++ (p.zipIdx.map fun (b, i) => entryText i b).flatten

end LiteralPool

end VecLang.Assembly
