import VecLang.Assoc
import VecLang.Symbols
import VecLang.Breakdown

/-!
# Constraint sets

Variables that must have one type are kept in one set, with what is known of that type. Sets
only grow together and what is known only becomes narrower.
-/

namespace VecLang

/-- The number of a constraint set; the first has number one. -/
abbrev SetId := Nat

structure ConstraintSet where
  /-- What is known of their type. -/
  ty : TypeVar
  /-- The variables, in the order they came in. -/
  members : List VarId
  /-- Whether its variables have moved to another set. -/
  merged : Bool := false
deriving DecidableEq, Inhabited

/-- All sets in order of their numbers. Number zero is an empty set that no variable enters. -/
structure ConstraintSets where
  sets : Array ConstraintSet := #[⟨.exact .invalid, [], false⟩]
  /-- The set that each variable is in. -/
  byVar : Assoc VarId SetId := []
deriving Inhabited

namespace ConstraintSets

def of? (cs : ConstraintSets) (v : VarId) : Option SetId := cs.byVar.get? v

def typeOf (cs : ConstraintSets) (id : SetId) : TypeVar :=
  ((cs.sets[id]?).map (·.ty)).getD (.exact .invalid)

/-- Put a variable in a set of its own, unless it is in one, and tell which set it is in. -/
def add (cs : ConstraintSets) (v : VarId) (ty : TypeVar) : ConstraintSets × SetId :=
  match cs.of? v with
  | some id => (cs, id)
  | none => (⟨cs.sets.push ⟨ty, [v], false⟩, cs.byVar.set v cs.sets.size⟩, cs.sets.size)

/-- Narrow the type of a set, unless nothing would be left. -/
def constrain? (cs : ConstraintSets) (id : SetId) (tv : TypeVar) :
    Option (ConstraintSets × TypeVar) :=
  match (cs.typeOf id).join tv with
  | none => none
  | some j => some ({ cs with sets := cs.sets.modify id fun s => { s with ty := j } }, j)

def absorb (cs : ConstraintSets) (into source : SetId) (ty : TypeVar) : ConstraintSets :=
  let moved := ((cs.sets[source]?).map (·.members)).getD []
  { sets := (cs.sets.modify into fun s => { s with members := s.members ++ moved, ty }).modify source
      fun s => { s with members := [], merged := true }
    byVar := moved.foldl (fun m v => m.set v into) cs.byVar }

/-- Make two sets one, unless no type would be left. The variables of the smaller set move; of
two equally large, those of the second. -/
def unite? (cs : ConstraintSets) (a b : SetId) : Option (ConstraintSets × SetId × TypeVar) :=
  if a = b then some (cs, a, cs.typeOf a)
  else
    match (cs.typeOf a).join (cs.typeOf b) with
    | none => none
    | some j =>
      let size (id : SetId) := ((cs.sets[id]?).map (·.members.length)).getD 0
      if size a < size b then some (cs.absorb b a j, b, j) else some (cs.absorb a b j, a, j)

def live (cs : ConstraintSets) : List SetId :=
  (List.range cs.sets.size).filter fun i => i ≠ 0 && !((cs.sets[i]?).map (·.merged)).getD true

def typeOfVar? (cs : ConstraintSets) (v : VarId) : Option TypeVar := (cs.of? v).map cs.typeOf

end ConstraintSets

end VecLang
