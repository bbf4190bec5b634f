import VecLang.Assoc
import VecLang.Toml.Syntax

/-!
# TOML: documents

The lines of a document put together to one tree. A key is given a value once. A table that was
only implied by a longer key may be opened later, and a list may take the place of a value.
-/

namespace VecLang.Toml

inductive Node where
  | leaf (value : Value)
  | table (entries : List (Bytes × Node))
  /-- A list of tables, the last of which is the open one. -/
  | tables (elements : List (List (Bytes × Node)))
deriving Inhabited

abbrev Entries := List (Bytes × Node)

/-- A document that is put together. -/
structure Document where
  root : Entries := []
  /-- The keys that are mentioned, in order. -/
  keys : List Key := []
  /-- Tables that were implied and never opened. -/
  implied : List Key := []
  /-- Keys that were last given a list. -/
  lists : List Key := []
deriving Inhabited

def get? (es : Entries) : Key → Option Node
  | [] => some (.table es)
  | [k] => Assoc.get? es k
  | k :: rest =>
    match Assoc.get? es k with
    | some (.table sub) => get? sub rest
    | _ => none

def update (f : Entries → Option Entries) (es : Entries) : Key → Option Entries
  | [] => f es
  | k :: rest =>
    match Assoc.get? es k with
    | some (.table sub) => (update f sub rest).map fun sub => Assoc.set es k (.table sub)
    | some (.tables elements) =>
      match elements.getLast? with
      | some sub =>
        (update f sub rest).map fun sub =>
          Assoc.set es k (.tables (elements.dropLast ++ [sub]))
      | none => none
    | _ => none

namespace Document

def imply (d : Document) (k : Key) : Document := { d with implied := k :: d.implied }

def unimply (d : Document) (k : Key) : Document := { d with implied := d.implied.filter (· ≠ k) }

def noteList (d : Document) (k : Key) (isList : Bool) : Document :=
  let others := d.lists.filter (· ≠ k)
  { d with lists := if isList then k :: others else others }

/-- The key under which it is noted what kind of value a name in a context has. For the empty name
in a table it is the key of the table. -/
def kindKey (context : Key) (k : Bytes) : Key :=
  if k.isEmpty && !context.isEmpty then context else context ++ [k]

def mention (d : Document) (k : Key) : Document := { d with keys := d.keys ++ [k] }

def set (d : Document) (context : Key) (k : Bytes) (node : Node) : Option Document :=
  let full := context ++ [k]
  match update some d.root context with
  | none => none
  | some _ =>
    let absent (es : Entries) : Option Entries := if (Assoc.get? es k).isSome then none else some es
    let taken := (update absent d.root context).isNone
    let put : Option Document :=
      (update (fun es => some (Assoc.set es k node)) d.root context).map fun root => { d with root }
    if !taken then put
    else if d.lists.contains full then put.map (·.unimply full)
    else if d.implied.contains full then some (d.unimply full)
    else none

/-- Make the tables that lead to a key, as far as they are missing. -/
def reach (d : Document) (before : Key) : Key → Option Document
  | [] => some d
  | k :: rest =>
    let here := before ++ [k]
    let add (es : Entries) : Option Entries :=
      if (Assoc.get? es k).isSome then none else some (Assoc.set es k (.table []))
    match update add d.root before with
    | some root => reach { d.imply here with root } here rest
    | none => if (update some d.root here).isSome then reach d here rest else none

def openTable (d : Document) (k : Key) : Option Document := do
  let last ← k.getLast?
  (← d.reach [] k.dropLast).set k.dropLast last (.table [])

def openElement (d : Document) (k : Key) : Option Document := do
  let last ← k.getLast?
  let d ← d.reach [] k.dropLast
  let root ← update (fun es =>
    match Assoc.get? es last with
    | none => some (Assoc.set es last (.tables [[]]))
    | some (.tables ts) => some (Assoc.set es last (.tables (ts ++ [[]])))
    | some _ => none) d.root k.dropLast
  return { d with root }

def enter (d : Document) (context : Key) : Key → Option (Document × Key)
  | [] => some (d, context)
  | k :: rest => do
    let here := context ++ [k]
    let d ← (d.imply here).openTable here
    enter d here rest

mutual

def take (d : Document) (context : Key) (k : Bytes) (inList : Bool) : Value → Option Document
  | .list items => takeAll (d.noteList (kindKey context k) true) context k items
  | .inline members => do
    let here := context ++ [k]
    let d := d.imply here
    let d ← if inList then d.openElement here else d.openTable here
    takeMembers d here members
  | .text _ => some d
  | .int _ => some d
  | .fraction => some d
  | .bool _ => some d
  | .time => some d

def takeAll (d : Document) (context : Key) (k : Bytes) : List Value → Option Document
  | [] => some d
  | v :: vs =>
    match take d context k true v with
    | some d => takeAll d context k vs
    | none => none

def takeMembers (d : Document) (context : Key) : List (Key × Value) → Option Document
  | [] => some d
  | (k, v) :: rest =>
    match k.getLast?, enter d context k.dropLast with
    | some last, some (d, inner) =>
      match take (d.mention (inner ++ [last])) inner last false v with
      | some d =>
        match d.set inner last (.leaf v) with
        | some d => takeMembers (d.noteList (kindKey inner last) (v matches .list _)) context rest
        | none => none
      | none => none
    | _, _ => none

end

def addLine : Document × Key → Line → Option (Document × Key)
  | (d, _), .table k => (d.openTable k).map fun d => ((d.noteList k false).mention k, k)
  | (d, _), .element k => (d.openElement k).map fun d => ((d.noteList k false).mention k, k)
  | (d, context), .assign k v => (takeMembers d context [(k, v)]).map (·, context)

def ofLines? (ls : List Line) : Option Document := (ls.foldlM addLine ({}, [])).map (·.1)

end Document

/-! ## Keys as text -/

def quoteChar (c : UInt8) : Bytes :=
  match c with
  | 0x22 => "\\\""
  | 0x5c => "\\\\"
  | 0x08 => "\\b"
  | 0x09 => "\\t"
  | 0x0a => "\\n"
  | 0x0c => "\\f"
  | 0x0d => "\\r"
  | c => if c < 0x20 || c = 0x7f then "\\u00" ++ Bytes.hexFixed 2 c.toNat else [c]

def partText (k : Bytes) : Bytes :=
  if !k.isEmpty && k.all isBare then k else "\"" ++ k.flatMap quoteChar ++ "\""

def keyText (k : Key) : Bytes := Bytes.join "." (k.map partText)

end VecLang.Toml
