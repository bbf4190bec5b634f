import VecLang.Ssa.Module

/-!
# Text of programs in single assignment form
-/

namespace VecLang.Ssa

def dumpDef (m : Module) (types : Bool) (id : ValueId) : Except Breakdown Bytes := do
  if types then return valueName id ++ ": " ++ (← m.typeOf id).name
  else return valueName id

/-- Operands divided by commas. -/
def dumpAtoms (as : List Atom) : Bytes := Bytes.join ", " (as.map Atom.text)

def laneLetter (lane : Nat) : Except Breakdown UInt8 :=
  match ("xyzw" : Bytes)[lane]? with
  | some c => .ok c
  | none => .error .outOfRange

def Instr.dump (m : Module) (types : Bool) : Instr → Except Breakdown Bytes
  | assign d s => do return (← dumpDef m types d) ++ " = " ++ s.text
  | binary d op operand scaling l r => do
    let scale : Bytes := if scaling then " scale" else ""
    return (← dumpDef m types d) ++ " = " ++ l.text ++ " " ++ op.name ++ scale ++ "."
      ++ operand.name ++ " " ++ r.text
  | unary d op x => do return (← dumpDef m types d) ++ " = " ++ op.name ++ " " ++ x.text
  | call d _ name args => do
    let text := "call " ++ name ++ "(" ++ dumpAtoms args ++ ")"
    if d = 0 then return text else return (← dumpDef m types d) ++ " = " ++ text
  | pack d elems => do return (← dumpDef m types d) ++ " = pack(" ++ dumpAtoms elems ++ ")"
  | swizzle d x lanes => do
    let letters ← lanes.mapM laneLetter
    return (← dumpDef m types d) ++ " = " ++ x.text ++ "." ++ letters
  | unknown _ => return "?"

/-- The text of the end of a block, none where control just goes on. -/
def Term.dump (m : Module) : Term → Option Bytes
  | branch l op r operand t =>
    some ("if " ++ l.text ++ " " ++ op.name ++ "." ++ operand.name ++ " " ++ r.text ++ " goto "
      ++ m.labelName t)
  | goto t => some ("goto " ++ m.labelName t)
  | ret .none => some "return"
  | ret (some v) => some ("return " ++ v.text)
  | halt => some "halt"
  | .none => .none
  | unknown _ => .none

def dumpLine (text : Bytes) : Bytes := "    " ++ text ++ "\n"

def Block.dump (m : Module) (types : Bool) (phis : List Phi) (i : Nat) (b : Block) :
    Except Breakdown Bytes := do
  let head ←
    if b.label ≠ 0 then
      let lines ← (phis.filter fun p => p.label = b.label).mapM fun p => do
        return dumpLine ((← dumpDef m types p.dst) ++ " = phi ["
          ++ Bytes.join ", " (p.branches.map valueName) ++ "]")
      pure (m.labelName b.label ++ ":\n" ++ lines.flatten)
    else pure (if i = 0 then ("" : Bytes) else "  ;\n")
  let body ← b.instrs.toList.mapM fun instr => do return dumpLine (← instr.dump m types)
  return head ++ body.flatten ++ ((b.term.dump m).map dumpLine).getD []

def Func.dump (m : Module) (types : Bool) (f : Func) : Except Breakdown Bytes := do
  let args ← f.args.mapM (dumpDef m true)
  let result : Bytes := if f.result = .invalid then "" else " -> " ++ f.result.name
  let blocks ← f.blocks.toList.zipIdx.mapM fun (b, i) => b.dump m types f.phis i
  return "\nfn " ++ f.name ++ "(" ++ Bytes.join ", " args ++ ")" ++ result ++ " \x7b\n"
    ++ blocks.flatten ++ ("\x7d\n" : Bytes)

def dumpConst (m : Module) (id : ValueId) (v : Value) : Except Breakdown Bytes := do
  return "const " ++ (← dumpDef m true id) ++ " = " ++ v.text ++ "\n"

/-- The text of a program; with `types`, every defined value shows its type. -/
def Module.dump (m : Module) (types : Bool) : Except Breakdown Bytes := do
  let consts ← (m.pool.mergeSort fun a b => a.1 ≤ b.1).mapM fun (id, v) => dumpConst m id v
  let funcs ← m.funcs.mapM (Func.dump m types)
  return consts.flatten ++ funcs.flatten

end VecLang.Ssa
