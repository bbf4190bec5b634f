import VecLang.Source.Span
import VecLang.Types.TypeVar

/-!
# Symbols

The variables and functions of a program, each known by a number, and the scopes that say which
variable a name stands for.
-/

namespace VecLang

/-- The number of a variable, parameter or constant; the first has number one. -/
abbrev VarId := Nat

/-- The number of a function; the built-in functions come first. -/
abbrev FunId := Nat

inductive VarKind where
  | invalid
  | local
  | param
  | const
deriving DecidableEq, Inhabited

def VarKind.name : VarKind → Bytes
  | invalid => "invalid"
  | .local => "local"
  | param => "param"
  | const => "const"

structure Var where
  name : Bytes
  kind : VarKind
  /-- The type it is declared with, `invalid` when none is written. -/
  declared : Ty := .invalid
  span : Span := .none
  /-- The function it belongs to; a constant belongs to none. -/
  owner : Option FunId
deriving DecidableEq, Inhabited

def Var.seed (v : Var) : TypeVar :=
  if v.declared = .invalid then .unknown else .exact v.declared

inductive Builtin where
  | printInt
  | printReal
  | printBool
deriving DecidableEq, Inhabited

structure Fun where
  name : Bytes
  params : List VarId := []
  /-- The type of its result, `invalid` when it has none. -/
  result : Ty := .invalid
  span : Span := .none
  builtin : Option Builtin := none
deriving DecidableEq, Inhabited

def Fun.resultVar (f : Fun) : TypeVar :=
  if f.result = .invalid then .none else .exact f.result

structure SymbolTable where
  vars : Array Var
  funs : Array Fun
deriving Inhabited

namespace SymbolTable

def var? (t : SymbolTable) (id : VarId) : Option Var := if id = 0 then none else t.vars[id - 1]?

def fun? (t : SymbolTable) (id : FunId) : Option Fun := t.funs[id]?

/-- One more than the largest number of a variable. -/
def numVars (t : SymbolTable) : Nat := t.vars.size + 1

/-- One more than the largest number of a function. -/
def numFuns (t : SymbolTable) : Nat := t.funs.size

def addVar (t : SymbolTable) (v : Var) : SymbolTable × VarId :=
  ({ t with vars := t.vars.push v }, t.numVars)

def addFun (t : SymbolTable) (f : Fun) : SymbolTable × FunId :=
  ({ t with funs := t.funs.push f }, t.numFuns)

def setParams (t : SymbolTable) (id : FunId) (params : List VarId) : SymbolTable :=
  { t with funs := t.funs.modify id fun f => { f with params } }

def lookupFun? (t : SymbolTable) (name : Bytes) : Option FunId :=
  t.funs.findIdx? fun f => f.name = name

def varName (t : SymbolTable) (id : VarId) : Bytes := ((t.var? id).map (·.name)).getD []

def builtin : SymbolTable where
  vars :=
    #[{ name := "value", kind := .param, declared := .int, owner := some 0 },
      { name := "value", kind := .param, declared := .real, owner := some 1 },
      { name := "value", kind := .param, declared := .bool, owner := some 2 }]
  funs :=
    #[{ name := "printi", params := [1], builtin := some .printInt },
      { name := "printr", params := [2], builtin := some .printReal },
      { name := "printb", params := [3], builtin := some .printBool }]

end SymbolTable

/-- The names declared in one block. -/
abbrev Frame := List (Bytes × VarId)

/-- The frames around a place, the innermost first. -/
abbrev Scope := List Frame

namespace Frame

def lookup? (f : Frame) (name : Bytes) : Option VarId := List.lookup name f

end Frame

namespace Scope

/-- The variable a name stands for: that of the innermost block that declares it. -/
def lookup? (s : Scope) (name : Bytes) : Option VarId := s.findSome? fun f => Frame.lookup? f name

/-- The variable that the innermost block itself declares under a name. -/
def here? (s : Scope) (name : Bytes) : Option VarId := s.head?.bind fun f => Frame.lookup? f name

/-- Declare a name in the innermost block. A name already declared there keeps its meaning. -/
def declare (s : Scope) (name : Bytes) (id : VarId) : Scope :=
  match s with
  | [] => [[(name, id)]]
  | f :: fs => if (Frame.lookup? f name).isSome then s else ((name, id) :: f) :: fs

end Scope

end VecLang
