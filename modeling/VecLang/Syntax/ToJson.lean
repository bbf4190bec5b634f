import VecLang.Syntax.Tree
import VecLang.Diagnostic.ToJson

/-!
# Syntax trees as JSON

Every node is an array that starts with its kind and span.
-/

namespace VecLang.Syntax

def TypeName.toJson (t : TypeName) : Json := .arr [.str t.name, t.span.toJson]

mutual

def Expr.toJson : Expr → Json
  | .ident s name => .arr [.lit "ident", s.toJson, .str name]
  | .lit t => .arr [.lit "lit", t.span.toJson, .str t.kind.name, .str t.text]
  | .call s callee cs args =>
    .arr [.lit "call", s.toJson, .str callee, cs.toJson, .arr (exprsToJson args)]
  | .binary s op x y => .arr [.lit "binary", s.toJson, .str op.name, x.toJson, y.toJson]
  | .unary s op x => .arr [.lit "unary", s.toJson, .str op.name, x.toJson]
  | .group s x => .arr [.lit "group", s.toJson, x.toJson]
  | .swizzle s comps cs x => .arr [.lit "swizzle", s.toJson, .str comps, cs.toJson, x.toJson]

def exprsToJson : List Expr → List Json
  | [] => []
  | e :: es => e.toJson :: exprsToJson es

end

mutual

def Stmt.toJson : Stmt → Json
  | .letVar s name ns type value =>
    .arr [.lit "let", s.toJson, .str name, ns.toJson, .opt TypeName.toJson type, value.toJson]
  | .assign s name ns value => .arr [.lit "assign", s.toJson, .str name, ns.toJson, value.toJson]
  | .ifElse s cond t e =>
    .arr [.lit "if", s.toJson, cond.toJson, .arr (stmtsToJson t), .arr (stmtsToJson e)]
  | .whileDo s cond body => .arr [.lit "while", s.toJson, cond.toJson, .arr (stmtsToJson body)]
  | .ret s value => .arr [.lit "return", s.toJson, .opt Expr.toJson value]
  | .breakLoop s => .arr [.lit "break", s.toJson]
  | .continueLoop s => .arr [.lit "continue", s.toJson]
  | .expr s value => .arr [.lit "expr", s.toJson, value.toJson]

def stmtsToJson : List Stmt → List Json
  | [] => []
  | t :: ts => t.toJson :: stmtsToJson ts

end

def Param.toJson (p : Param) : Json :=
  .arr [.str p.name, p.span.toJson, .opt TypeName.toJson p.type]

def Item.toJson : Item → Json
  | .fn d =>
    .arr [.lit "fn", d.span.toJson, .str d.name, d.nameSpan.toJson, .list Param.toJson d.params,
      .opt TypeName.toJson d.result, .arr (stmtsToJson d.body)]
  | .const d =>
    .arr [.lit "const", d.span.toJson, .str d.name, d.nameSpan.toJson,
      .opt TypeName.toJson d.type, d.value.toJson]

end VecLang.Syntax
