import VecLang.Typed.Tree
import VecLang.Resolved.Tree
import VecLang.Value.ToJson

/-!
# Typed programs as JSON
-/

namespace VecLang.Typed

mutual

def Expr.toJson : Expr → Json
  | .lit t _ v => .arr [.lit "lit", .str t.name, .str v.text]
  | .var t _ id => .arr [.lit "var", .str t.name, .nat id]
  | .unary t _ op x => .arr [.lit "unary", .str t.name, .str op.name, x.toJson]
  | .binary t _ op operand scaling x y =>
    .arr [.lit "binary", .str t.name, .str op.name, .str operand.name, .bool scaling, x.toJson,
      y.toJson]
  | .call t _ f args => .arr [.lit "call", .str t.name, .nat f, .arr (exprsToJson args)]
  | .pack t _ elems => .arr [.lit "pack", .str t.name, .arr (exprsToJson elems)]
  | .swizzle t _ lanes x =>
    .arr [.lit "swizzle", .str t.name, .str (Resolved.laneLetters lanes), x.toJson]

def exprsToJson : List Expr → List Json
  | [] => []
  | e :: es => e.toJson :: exprsToJson es

end

mutual

def stmtToJson : Stmt → Json
  | .letVar _ v value => .arr [.lit "let", .nat v, value.toJson]
  | .assign _ v value => .arr [.lit "assign", .nat v, value.toJson]
  | .expr _ value => .arr [.lit "expr", value.toJson]
  | .ret _ value => .arr [.lit "return", .opt Expr.toJson value]
  | .breakLoop _ => .arr [.lit "break"]
  | .continueLoop _ => .arr [.lit "continue"]
  | .ifElse _ cond t none => .arr [.lit "if", cond.toJson, .arr (stmtsToJson t), .null]
  | .ifElse _ cond t (some e) =>
    .arr [.lit "if", cond.toJson, .arr (stmtsToJson t), .arr (stmtsToJson e)]
  | .whileDo _ cond body => .arr [.lit "while", cond.toJson, .arr (stmtsToJson body)]

def stmtsToJson : List Stmt → List Json
  | [] => []
  | t :: ts => stmtToJson t :: stmtsToJson ts

end

def Module.toJson (m : Module) (table : SymbolTable) : Json :=
  .obj [
    ("vars", .arr (table.vars.toList.zipIdx.map fun (v, i) =>
      .arr [.nat (i + 1), .str v.name, .str (m.varType (i + 1)).name])),
    ("consts", .list (fun c => .arr [.nat c.var, c.value.toJson]) m.consts),
    ("funcs", .list (fun f => .arr [.nat f.id, .str f.name, .str f.result.name,
      .arr (stmtsToJson f.body)]) m.funcs),
    ("main", .opt .nat m.main)]

end VecLang.Typed
