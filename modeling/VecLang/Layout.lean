import VecLang.Types.Basic

/-!
# Storage

How many bytes a value takes and where the arguments of a call lie.
-/

namespace VecLang

/-- The machine that code is made for. -/
structure Target where
  /-- The bytes of a word. -/
  wordSize : Int := 8
  /-- What the stack pointer is a multiple of at every call. -/
  stackAlign : Int := 16
  /-- How far the first argument lies above the frame pointer: behind the saved frame pointer
  and the return address. -/
  argBase : Int := 16
deriving Inhabited

structure Room where
  size : Int
  align : Int
deriving DecidableEq, Inhabited

/-- The first multiple of `a` that is not below `n`, for `n` that are not negative. -/
def alignUp (n a : Int) : Int :=
  if a ≤ 1 then n else (n + a - 1).tdiv a * a

namespace Target

/-- The room of a value: a word, and sixteen bytes for vectors of more than two lanes. -/
def roomOf (t : Target) : Ty → Room
  | .invalid => ⟨0, 1⟩
  | .vec3 | .vec4 => ⟨16, 16⟩
  | _ => ⟨t.wordSize, t.wordSize⟩

def isWide (t : Target) (ty : Ty) : Bool := t.wordSize < (t.roomOf ty).size

def offsets (t : Target) (off : Int) : List Ty → List Int
  | [] => []
  | ty :: tys => off :: offsets t (off + (t.roomOf ty).size) tys

/-- The arguments of a call: their offsets, and the room they take together. -/
structure ArgBlock where
  offsets : List Int
  size : Int
deriving DecidableEq, Inhabited

/-- Arguments of the given types lie one behind the other. -/
def args (t : Target) (tys : List Ty) : ArgBlock :=
  { offsets := t.offsets 0 tys
    size := alignUp ((tys.map fun ty => (t.roomOf ty).size).foldr (· + ·) 0) t.stackAlign }

end Target

end VecLang
