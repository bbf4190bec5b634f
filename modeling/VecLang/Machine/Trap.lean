import VecLang.Ssa.Module
import VecLang.Source.File
import VecLang.Text.Quoted

/-!
# Traps

The reasons for which the machine stops a program.
-/

namespace VecLang.Machine

open Ssa

inductive Trap where
  | readBeforeDefinition (id : ValueId) (func : Bytes)
  | divisionByZero
  | divisionOverflow
  | noMain
  | unknownFunction (name : Bytes)
  | unknownLabel (label func : Bytes)
  | fellOff (func : Bytes)
  | callDepth (limit : Nat) (func : Bytes)
  | stepLimit (limit : Nat)
  | operands (op : BinaryOp) (left right : Ty)
  | unknownInstr (kind : Nat)
  | unknownTerm (kind : Nat)
deriving DecidableEq, Inhabited

namespace Trap

def code : Trap → Bytes
  | readBeforeDefinition _ _ => "VM1001"
  | divisionByZero | divisionOverflow => "VM1002"
  | noMain | unknownFunction _ => "VM1003"
  | unknownLabel _ _ | fellOff _ => "VM1004"
  | callDepth _ _ => "VM1005"
  | stepLimit _ => "VM1006"
  | operands _ _ _ | unknownInstr _ | unknownTerm _ => "VM1999"

def message : Trap → Bytes
  | readBeforeDefinition id f => valueName id ++ " read before definition in " ++ f
  | divisionByZero => "integer division by zero"
  | divisionOverflow => "integer division overflow"
  | noMain => "module has no main function"
  | unknownFunction name => "call to unknown function " ++ Quoted.quote name
  | unknownLabel l f => "unknown label " ++ l ++ " in " ++ f
  | fellOff f => "control fell off the end of " ++ f
  | callDepth n f => "call depth " ++ Bytes.ofNat n ++ " exceeded in " ++ f
  | stepLimit n => "step limit " ++ Bytes.ofNat n ++ " exceeded"
  | operands op l r => op.name ++ " on " ++ l.name ++ " and " ++ r.name
  | unknownInstr k => "instruction kind " ++ Bytes.ofNat k
  | unknownTerm k => "terminator kind " ++ Bytes.ofNat k

def summary (t : Trap) : Bytes := "panic " ++ t.code ++ ": " ++ t.message

def placeText (files : FileSet) (s : Span) : Bytes :=
  if s.start = 0 && s.stop = 0 then "<no-span>"
  else match files[s.file]?, FileSet.resolve? files s with
    | some f, some (start, _) =>
      f.path ++ ":" ++ Bytes.ofNat start.line ++ ":" ++ Bytes.ofNat start.col
    | _, _ => "<no-span>"

def callLine (files : FileSet) (f : Func) (i : Nat) : Bytes :=
  "  " ++ Bytes.ofNat i ++ ": " ++ f.name ++ " at " ++ placeText files f.span ++ "\n"

def report (t : Trap) (files : FileSet) (calls : List Func) : Bytes :=
  let lines := (calls.zipIdx.map fun (f, i) => callLine files f i).flatten
  t.summary ++ "\n" ++ (if calls.isEmpty then ("" : Bytes) else "backtrace:\n" ++ lines)

end Trap

end VecLang.Machine
