import VecLang.Source.File
import VecLang.Syntax.Parser
import VecLang.Resolved.Resolve
import VecLang.Typing.Infer

/-!
# Analysis

Parsing, resolving and typing of one source text. Each phase runs only when those before it
found no error. The limit on diagnostics cuts what is kept and nothing else.
-/

namespace VecLang

inductive Stage where
  | parsing
  | resolving
  | typing
deriving DecidableEq, Inhabited

/-- A phase that was run, with a remark on what came out of it. -/
structure Phase where
  name : Bytes
  note : Bytes
deriving DecidableEq, Inhabited

structure Analysis where
  parsed : Syntax.Parsed
  resolution : Option Resolved.Resolution
  typed : Option Typed.Module
  /-- Everything reported, in order. -/
  reported : List Diagnostic
  /-- The phases that were run, in order. -/
  phases : List Phase
deriving Inhabited

namespace Analysis

def defaultLimit : Nat := 100

/-- The limit that is meant by a number: a positive one is meant as it is. -/
def limitOf (n : Int) : Nat := if n ≤ 0 then defaultLimit else n.toNat

def diagnostics (a : Analysis) (limit : Nat) : List Diagnostic :=
  ((Bag.empty limit).addAll a.reported).sort.items

def ok (a : Analysis) : Bool := a.typed.isSome && !a.reported.any Diagnostic.isError

def table (a : Analysis) : SymbolTable := (a.resolution.map (·.table)).getD .builtin

def parsing (file : Nat) (content : Bytes) : Analysis :=
  let parsed := Syntax.parse (Lexer.lexemes { file } content) 0
  { parsed
    resolution := none
    typed := none
    reported := parsed.diagnostics
    phases := [⟨"parse", "items=" ++ Bytes.ofNat parsed.module.items.length⟩] }

def resolving (a : Analysis) : Analysis :=
  let r := Resolved.resolve a.parsed.module
  { a with
    resolution := some r
    reported := a.reported ++ r.diagnostics
    phases := a.phases ++ [⟨"resolve", "funcs=" ++ Bytes.ofNat r.module.funcs.length⟩] }

def typing (a : Analysis) (r : Resolved.Resolution) : Except Breakdown Analysis := do
  let phase (errors : Nat) : Phase := ⟨"infer", "errors=" ++ Bytes.ofNat errors⟩
  match ← Typing.infer r.module r.table with
  | .ok m => return { a with typed := some m, phases := a.phases ++ [phase 0] }
  | .error fs =>
    return { a with
      reported := a.reported ++ fs.map Typing.TypeFault.toDiagnostic
      phases := a.phases ++ [phase fs.length] }

end Analysis

def analyze (stage : Stage) (content : Bytes) (file : Nat := 0) : Except Breakdown Analysis :=
  let a := Analysis.parsing file content
  if stage = .parsing || a.reported.any Diagnostic.isError then .ok a
  else
    let a := a.resolving
    if stage = .resolving || a.reported.any Diagnostic.isError then .ok a
    else match a.resolution with
      | some r => a.typing r
      | none => .ok a

end VecLang
