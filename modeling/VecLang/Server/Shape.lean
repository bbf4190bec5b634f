import VecLang.Json
import VecLang.Number.Integer
import VecLang.Text.Unicode.Case

/-!
# Shapes of messages

A shape says of what kind a value and its parts have to be. `null` has every shape, and members
that a shape does not name may be anything. `Shape.mismatch?` finds the first part of a value, in
the order in which it is written, that is of another kind.
-/

namespace VecLang.Server

/-- What a value has to look like. -/
inductive Shape where
  /-- Any value. -/
  | any
  | text
  | int
  | flag
  | list (item : Shape)
  /-- An object; its name is the one that mismatches are reported with. -/
  | record (name : Bytes) (fields : List (Bytes × Shape))

/-- Where in a value a part stands: the record that has it as a field, and the fields that lead to
it from the outermost record. -/
structure Part where
  record : Bytes
  path : List Bytes

/-- A part of a value that is of another kind than its shape says. -/
structure Mismatch where
  /-- What is there. -/
  found : Bytes
  /-- What has to be there. -/
  wanted : Bytes
  /-- The part of the value, unless it is the value itself. -/
  part : Option Part

def Mismatch.message (m : Mismatch) : Bytes :=
  let place : Bytes := match m.part with
    | some p => "struct field " ++ p.record ++ "." ++ Bytes.join "." p.path
    | none => "value"
  "json: cannot unmarshal " ++ m.found ++ " into Go " ++ place ++ " of type " ++ m.wanted

namespace Shape

def name : Shape → Bytes
  | any => "json.RawMessage"
  | text => "string"
  | int => "int"
  | flag => "bool"
  | list item => "[]" ++ item.name
  | record n _ => "lsp." ++ n

/-- The field of a record that the name of a member means; case does not matter. -/
def field? (fields : List (Bytes × Shape)) (member : Bytes) : Option (Bytes × Shape) :=
  fields.find? fun f => Unicode.foldName f.1 = Unicode.foldName member

mutual

/-- The first part of a value that is of the wrong kind. -/
def mismatch? (s : Shape) (part : Option Part) : Json → Option Mismatch
  | .null => none
  | .num n =>
    match s with
    | .any => none
    | .int =>
      if (Integer.ofDecimal? n).isSome then none else some ⟨"number " ++ n, s.name, part⟩
    | _ => some ⟨"number", s.name, part⟩
  | .str _ =>
    match s with
    | .any | .text => none
    | _ => some ⟨"string", s.name, part⟩
  | .bool _ =>
    match s with
    | .any | .flag => none
    | _ => some ⟨"bool", s.name, part⟩
  | .arr xs =>
    match s with
    | .any => none
    | .list item => mismatchItems? item part xs
    | _ => some ⟨"array", s.name, part⟩
  | .obj ms =>
    match s with
    | .any => none
    | .record n fields => mismatchMembers? n fields ((part.map (·.path)).getD []) ms
    | _ => some ⟨"object", s.name, part⟩

def mismatchItems? (item : Shape) (part : Option Part) : List Json → Option Mismatch
  | [] => none
  | j :: rest =>
    match mismatch? item part j with
    | some m => some m
    | none => mismatchItems? item part rest

/-- The first part of some members that is of the wrong kind; `path` leads to their object. -/
def mismatchMembers? (record : Bytes) (fields : List (Bytes × Shape)) (path : List Bytes) :
    List (Bytes × Json) → Option Mismatch
  | [] => none
  | (k, j) :: rest =>
    let here := match field? fields k with
      | some (n, s) => mismatch? s (some ⟨record, path ++ [n]⟩) j
      | none => none
    match here with
    | some m => some m
    | none => mismatchMembers? record fields path rest

end

end Shape

end VecLang.Server
