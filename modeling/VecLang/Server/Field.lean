import VecLang.Server.Shape

/-!
# Fields of messages

A field is found by its name, in which case does not matter. A missing field and `null` stand for
nothing in particular; of a field that is given more than once each later value overrides what the
earlier ones said. The values are taken to have the shape they should have; others are passed over.
-/

namespace VecLang.Server

abbrev Members := List (Bytes × Json)

namespace Field

/-- All values given for a field, in order. -/
def all (ms : Members) (name : Bytes) : List Json :=
  (ms.filter fun m => Unicode.foldName m.1 = Unicode.foldName name).map (·.2)

def raw? (ms : Members) (name : Bytes) : Option Json := (all ms name).getLast?

def text (ms : Members) (name : Bytes) : Bytes :=
  (all ms name).foldl (fun old j => match j with | .str s => s | _ => old) []

/-- A number, zero when nothing is given. -/
def int (ms : Members) (name : Bytes) : Int :=
  (all ms name).foldl (fun old j => match j with
    | .num n => (Integer.ofDecimal? n).getD old
    | _ => old) 0

def flag (ms : Members) (name : Bytes) : Bool :=
  (all ms name).foldl (fun old j => match j with | .bool b => b | _ => old) false

/-- The members of objects that are given for one thing, those of later ones last. -/
def members (js : List Json) : Members :=
  js.flatMap fun | .obj ms => ms | _ => []

def object (ms : Members) (name : Bytes) : Members := members (all ms name)

def optText (ms : Members) (name : Bytes) : Option Bytes :=
  (all ms name).foldl (fun old j => match j with
    | .str s => some s
    | .null => none
    | _ => old) none

def optObject (ms : Members) (name : Bytes) : Option Members :=
  (all ms name).foldl (fun old j => match j with
    | .obj more => some (old.getD [] ++ more)
    | .null => none
    | _ => old) none

def addItems : List (List Json) → List Json → List (List Json)
  | given, [] => given
  | [], x :: xs => [x] :: addItems [] xs
  | g :: gs, x :: xs => (g ++ [x]) :: addItems gs xs

/-- The items of a list in a field, each with all values given for it, in order. The last list says
how many items there are; in their places stands also what earlier lists gave, unless an empty list
or `null` came between. -/
def slots (ms : Members) (name : Bytes) : List (List Json) :=
  let given := (all ms name).foldl (fun (old : List (List Json) × Nat) j => match j with
    | .arr [] | .null => ([], 0)
    | .arr items => (addItems old.1 items, items.length)
    | _ => old) ([], 0)
  given.1.take given.2

end Field

end VecLang.Server
