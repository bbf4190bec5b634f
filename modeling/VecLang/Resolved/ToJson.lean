import VecLang.Resolved.Tree
import VecLang.Value.ToJson
import VecLang.Diagnostic.ToJson

/-!
# Resolved programs and symbols as JSON
-/

namespace VecLang

def Var.toJson (id : VarId) (v : Var) : Json :=
  .arr [.nat id, .str v.name, .str v.kind.name, .str v.declared.name, v.span.toJson,
    .opt .nat v.owner]

def Builtin.number : Option Builtin → Nat
  | none => 0
  | some .printInt => 1
  | some .printReal => 2
  | some .printBool => 3

def Fun.toJson (id : FunId) (f : Fun) : Json :=
  .arr [.nat id, .str f.name, .list .nat f.params, .str f.result.name, f.span.toJson,
    .nat (Builtin.number f.builtin)]

def SymbolTable.varsToJson (t : SymbolTable) : Json :=
  .arr (t.vars.toList.zipIdx.map fun (v, i) => v.toJson (i + 1))

def SymbolTable.funsToJson (t : SymbolTable) : Json :=
  .arr (t.funs.toList.zipIdx.map fun (f, i) => f.toJson i)

namespace Resolved

mutual

def Expr.toJson : Expr → Json
  | .lit s v => .arr [.lit "Literal", s.toJson, .str v.ty.name, .str v.text]
  | .var s id => .arr [.lit "VarRef", s.toJson, .nat id]
  | .unary s op x => .arr [.lit "UnaryOp", s.toJson, .str op.name, x.toJson]
  | .binary s op x y => .arr [.lit "BinaryOp", s.toJson, .str op.name, x.toJson, y.toJson]
  | .call s f args => .arr [.lit "Call", s.toJson, .nat f, .arr (exprsToJson args)]
  | .pack s t elems => .arr [.lit "Pack", s.toJson, .str t.name, .arr (exprsToJson elems)]
  | .swizzle s lanes x =>
    .arr [.lit "Swizzle", s.toJson, .str (laneLetters lanes), .nat (maxLane lanes), x.toJson]

def exprsToJson : List Expr → List Json
  | [] => []
  | e :: es => e.toJson :: exprsToJson es

end

mutual

def stmtToJson : Stmt → Json
  | .letVar s v value => .arr [.lit "Let", s.toJson, .nat v, value.toJson]
  | .assign s v value => .arr [.lit "Assign", s.toJson, .nat v, value.toJson]
  | .expr s value => .arr [.lit "Expr", s.toJson, value.toJson]
  | .ret s value => .arr [.lit "Return", s.toJson, .opt Expr.toJson value]
  | .breakLoop s => .arr [.lit "Break", s.toJson]
  | .continueLoop s => .arr [.lit "Continue", s.toJson]
  | .ifElse s cond t none => .arr [.lit "If", s.toJson, cond.toJson, .arr (stmtsToJson t), .null]
  | .ifElse s cond t (some e) =>
    .arr [.lit "If", s.toJson, cond.toJson, .arr (stmtsToJson t), .arr (stmtsToJson e)]
  | .whileDo s cond body => .arr [.lit "While", s.toJson, cond.toJson, .arr (stmtsToJson body)]

def stmtsToJson : List Stmt → List Json
  | [] => []
  | t :: ts => stmtToJson t :: stmtsToJson ts

end

def Module.toJson (m : Module) : Json :=
  .obj [
    ("consts", .list (fun c => .arr [.nat c.var, c.span.toJson, c.value.toJson]) m.consts),
    ("funcs", .list (fun f => .arr [.nat f.id, .str f.name, f.span.toJson,
      .arr (stmtsToJson f.body)]) m.funcs),
    ("main", .opt .nat m.main)]

end Resolved

end VecLang
