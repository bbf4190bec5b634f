import VecLang.Text.Bytes

/-!
# Severities and codes of diagnostics
-/

namespace VecLang

inductive Severity where
  | info
  | warning
  | error
  /-- A rank above those with a name. -/
  | beyond (excess : Nat)
deriving DecidableEq, Inhabited

namespace Severity

def rank : Severity → Nat
  | info => 0
  | warning => 1
  | error => 2
  | beyond n => 3 + n

def ofRank : Nat → Severity
  | 0 => info
  | 1 => warning
  | 2 => error
  | n + 3 => beyond n

def name : Severity → Bytes
  | info => "INFO"
  | warning => "WARNING"
  | error => "ERROR"
  | beyond _ => "UNKNOWN"

end Severity

/-- The number of a kind of diagnostic. The thousands tell which part of the compiler it
belongs to. -/
structure Code where
  number : Nat
deriving DecidableEq, Inhabited

namespace Code

def unknownChar : Code := ⟨1001⟩
def unterminatedComment : Code := ⟨1002⟩
def badNumber : Code := ⟨1003⟩
def tokenTooLong : Code := ⟨1004⟩
def unexpectedToken : Code := ⟨2001⟩
def expectSemicolon : Code := ⟨2002⟩
def expectIdentifier : Code := ⟨2003⟩
def expectType : Code := ⟨2004⟩
def expectExpression : Code := ⟨2005⟩
def unclosedParen : Code := ⟨2006⟩
def unclosedBrace : Code := ⟨2007⟩
def unexpectedTopLevel : Code := ⟨2008⟩
def badSwizzle : Code := ⟨2009⟩
def expressionStmt : Code := ⟨2010⟩
def duplicateSymbol : Code := ⟨3001⟩
def unresolvedSymbol : Code := ⟨3002⟩
def arityMismatch : Code := ⟨3003⟩
def notCallable : Code := ⟨3004⟩
def notAssignable : Code := ⟨3005⟩
def loopControlOutside : Code := ⟨3006⟩
def constNotConstant : Code := ⟨3007⟩
def mismatchedTypes : Code := ⟨3008⟩
def couldNotInfer : Code := ⟨3009⟩
def missingMain : Code := ⟨3010⟩
def functionAsValue : Code := ⟨3011⟩
def constEvalFailed : Code := ⟨3012⟩
def loadFileError : Code := ⟨4001⟩

/-- The letters that go with the thousands of a code. -/
def family? (n : Nat) : Option Bytes :=
  match n / 1000 with
  | 1 => some "LEX"
  | 2 => some "SYN"
  | 3 => some "SEM"
  | 4 => some "IO"
  | 5 => some "PRJ"
  | 6 => some "OBS"
  | _ => none

/-- The short name of a code, such as `LEX1001`. -/
def id (c : Code) : Bytes :=
  match family? c.number with
  | some letters => letters ++ Bytes.ofNat c.number
  | none => "E0000"

def titles : List (Nat × String) :=
  [(1000, "Lexical information"),
   (1001, "Unknown character"),
   (1002, "Unterminated block comment"),
   (1003, "Malformed number literal"),
   (1004, "Token too long"),
   (2000, "Syntax information"),
   (2001, "Unexpected token"),
   (2002, "Expected ';'"),
   (2003, "Expected identifier"),
   (2004, "Expected type"),
   (2005, "Expected expression"),
   (2006, "Unclosed parenthesis"),
   (2007, "Unclosed brace"),
   (2008, "Unexpected top-level item"),
   (2009, "Invalid swizzle"),
   (2010, "Expression statement must be a call"),
   (3000, "Semantic information"),
   (3001, "Duplicate symbol"),
   (3002, "Unresolved symbol"),
   (3003, "Wrong number of arguments"),
   (3004, "Not a function"),
   (3005, "Cannot assign"),
   (3006, "break/continue outside of a loop"),
   (3007, "Constant initializer is not constant"),
   (3008, "Mismatched types"),
   (3009, "Could not infer type"),
   (3010, "Missing main function"),
   (3011, "Function used as a value"),
   (3012, "Constant evaluation failed"),
   (4001, "I/O load file error"),
   (5000, "Project information"),
   (5001, "Invalid project manifest"),
   (5002, "Main file not found"),
   (6000, "Observability information"),
   (6001, "Pipeline timings")]

def title (c : Code) : Bytes :=
  ((titles.find? (·.1 = c.number)).map (·.2)).getD "Unknown error"

def render (c : Code) : Bytes := "[" ++ c.id ++ "]: " ++ c.title

end Code

end VecLang
