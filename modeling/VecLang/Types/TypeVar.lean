import VecLang.Types.Basic

/-!
# Sets of types

What is known about a type while types are being worked out: a set of types, one of a few
that have a name. Any two named sets are nested or disjoint, so what they have in common is a
named set again or empty.
-/

namespace VecLang

inductive TypeVar where
  /-- A single type. -/
  | exact (t : Ty)
  /-- `int` or `real`. -/
  | scalar
  /-- `int`, `real` or `complex`. -/
  | number
  /-- `vec3` or `vec4`. -/
  | vec34
  /-- Any vector. -/
  | vec
  /-- Any number or vector. -/
  | linear
  /-- Anything, also no value. -/
  | unknown
  /-- No value. -/
  | none
deriving DecidableEq, Inhabited

namespace TypeVar

/-- What a set may hold: a type, or `none` for the absence of a value. -/
abbrev Member := Option Ty

def members : TypeVar → List Member
  | exact .invalid => []
  | exact t => [some t]
  | scalar => [some .int, some .real]
  | number => [some .int, some .real, some .complex]
  | vec34 => [some .vec3, some .vec4]
  | vec => [some .vec2, some .vec3, some .vec4]
  | linear => [some .int, some .real, some .complex, some .vec2, some .vec3, some .vec4]
  | unknown =>
    [some .int, some .real, some .bool, some .complex, some .vec2, some .vec3, some .vec4,
     Option.none]
  | none => [Option.none]

def concrete? : TypeVar → Option Ty
  | exact .invalid => Option.none
  | exact t => some t
  | _ => Option.none

/-- The sets that can be what two different sets have in common. -/
def candidates : List TypeVar :=
  Ty.concrete.map exact ++ [scalar, number, vec34, vec, linear, unknown]

def ofMembers? (ms : List Member) : Option TypeVar :=
  candidates.find? fun v => v.members = ms

/-- What two sets have in common, when that is anything. -/
def join (a b : TypeVar) : Option TypeVar :=
  if a = b then some a
  else if a = unknown then some b
  else if b = unknown then some a
  else if a = none || b = none then Option.none
  else ofMembers? (a.members.filter (b.members.contains ·))

def within (v w : TypeVar) : Bool := v.members.all (w.members.contains ·)

def name : TypeVar → Bytes
  | exact .invalid => "TypeVar(0)"
  | exact t => t.name
  | scalar => "\x7bscalar\x7d"
  | number => "\x7bnumber\x7d"
  | vec34 => "\x7bvec3|vec4\x7d"
  | vec => "\x7bvector\x7d"
  | linear => "\x7blinear\x7d"
  | unknown => "\x7bunknown\x7d"
  | none => "nothing"

/-- Every set, in order of declaration. -/
def all : List TypeVar :=
  Ty.all.map exact ++ [scalar, number, vec34, vec, linear, unknown, none]

end TypeVar

end VecLang
