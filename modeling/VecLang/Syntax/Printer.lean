import VecLang.Syntax.Tree

/-!
# Text of syntax trees

Every tree has one text: operators stand between blanks, a block is indented by one level and
each of its statements has a line of its own.
-/

namespace VecLang.Syntax

inductive Indent where
  | tabs
  | spaces (width : Nat)
deriving DecidableEq, Inhabited

/-- The blanks in front of a line at some level. -/
def Indent.text (ind : Indent) (level : Nat) : Bytes :=
  match ind with
  | tabs => Bytes.replicate level 0x09
  | spaces width => Bytes.spaces (level * width)

mutual

def Expr.text : Expr → Bytes
  | .ident _ name => name
  | .lit t => t.text
  | .call _ callee _ args => callee ++ "(" ++ argsText args ++ ")"
  | .binary _ op x y => x.text ++ " " ++ op.name ++ " " ++ y.text
  | .unary _ op x => op.name ++ (if op = .not then (" " : Bytes) else "") ++ x.text
  | .group _ x => "(" ++ x.text ++ ")"
  | .swizzle _ comps _ x => x.text ++ "." ++ comps

def argsText : List Expr → Bytes
  | [] => []
  | [x] => x.text
  | x :: y :: rest => x.text ++ ", " ++ argsText (y :: rest)

end

def typeText : Option TypeName → Bytes
  | none => []
  | some t => ": " ++ t.name

def Stmt.isChoice : Stmt → Bool
  | .ifElse _ _ _ _ => true
  | _ => false

mutual

/-- The text of a statement at some level, without the blanks in front. -/
def Stmt.text (ind : Indent) (level : Nat) : Stmt → Bytes
  | .letVar _ name _ type value => "let " ++ name ++ typeText type ++ " = " ++ value.text ++ ";"
  | .assign _ name _ value => name ++ " = " ++ value.text ++ ";"
  | .ifElse _ cond t e =>
    "if " ++ cond.text ++ " " ++ blockText ind level t ++ elseText ind level e
  | .whileDo _ cond body => "while " ++ cond.text ++ " " ++ blockText ind level body
  | .ret _ none => "return;"
  | .ret _ (some value) => "return " ++ value.text ++ ";"
  | .breakLoop _ => "break;"
  | .continueLoop _ => "continue;"
  | .expr _ value => value.text ++ ";"

def blockText (ind : Indent) (level : Nat) : List Stmt → Bytes
  | [] => "\x7b\x7d"
  | s :: rest =>
    "\x7b\n" ++ ind.text (level + 1) ++ s.text ind (level + 1) ++ "\n"
      ++ linesText ind (level + 1) rest ++ ind.text level ++ "\x7d"

/-- The text of the second arm of a choice. One that is a choice itself needs no block. -/
def elseText (ind : Indent) (level : Nat) : List Stmt → Bytes
  | [] => []
  | s :: rest =>
    if rest.isEmpty && s.isChoice then " else " ++ s.text ind level
    else
      " else \x7b\n" ++ ind.text (level + 1) ++ s.text ind (level + 1) ++ "\n"
        ++ linesText ind (level + 1) rest ++ ind.text level ++ "\x7d"

def linesText (ind : Indent) (level : Nat) : List Stmt → Bytes
  | [] => []
  | s :: rest =>
    ind.text level ++ s.text ind level ++ "\n" ++ linesText ind level rest

end

def Param.text (p : Param) : Bytes := p.name ++ typeText p.type

def Item.text (ind : Indent) : Item → Bytes
  | .fn d =>
    let result : Bytes := match d.result with
      | none => ""
      | some t => " -> " ++ t.name
    "fn " ++ d.name ++ "(" ++ Bytes.join ", " (d.params.map Param.text) ++ ")" ++ result ++ " "
      ++ blockText ind 0 d.body
  | .const d => "const " ++ d.name ++ typeText d.type ++ " = " ++ d.value.text ++ ";"

def Item.isIndented : Item → Bool
  | .fn d => !d.body.isEmpty
  | .const _ => false

end VecLang.Syntax
