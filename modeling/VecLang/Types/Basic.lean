import VecLang.Text.Bytes

/-!
# Types of values
-/

namespace VecLang

/-- The type of a value. Numbers other than integers are made of lanes of single precision. -/
inductive Ty where
  /-- No type at all. -/
  | invalid
  | int
  | real
  | bool
  | complex
  | vec2
  | vec3
  | vec4
deriving DecidableEq, Inhabited

namespace Ty

def concrete : List Ty := [int, real, bool, complex, vec2, vec3, vec4]

/-- Every type, in order of declaration. -/
def all : List Ty := invalid :: concrete

def name : Ty → Bytes
  | invalid => "invalid"
  | int => "int"
  | real => "real"
  | bool => "bool"
  | complex => "complex"
  | vec2 => "vec2"
  | vec3 => "vec3"
  | vec4 => "vec4"

def ofName? (name : Bytes) : Option Ty := concrete.find? fun t => t.name = name

/-- The number of lanes of a type; integers and truth values have none. -/
def lanes : Ty → Nat
  | real => 1
  | complex | vec2 => 2
  | vec3 => 3
  | vec4 => 4
  | invalid | int | bool => 0

def isVector (t : Ty) : Bool := t = vec2 || t = vec3 || t = vec4

def isFloat (t : Ty) : Bool := 0 < t.lanes

def vector? : Nat → Option Ty
  | 2 => some vec2
  | 3 => some vec3
  | 4 => some vec4
  | _ => none

end Ty

end VecLang
