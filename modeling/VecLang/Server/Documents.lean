import VecLang.Assoc
import VecLang.Server.Position

/-!
# Open documents

The documents an editor has open, each with its text, and what was found out about it. An analysis
takes time, so it is begun and finished in two steps: it begins with a ticket that says which
revision of the text it reads, and its result is kept when it finishes only if the document is
open and at that revision then.
-/

namespace VecLang.Server

structure Document (ρ : Type) where
  text : Bytes
  /-- The editor's number for this text. -/
  version : Int
  /-- How often the text was set since the document was opened. -/
  revision : Nat
  /-- A result and the revision it was found at. -/
  known : Option (Nat × ρ) := none
  /-- Whether the editor is still to be told about this text. -/
  pending : Bool := false
deriving Inhabited

abbrev Documents (ρ : Type) := Assoc Bytes (Document ρ)

/-- What an analysis reads, taken when it begins. -/
structure Ticket where
  uri : Bytes
  text : Bytes
  revision : Nat
  version : Int
deriving DecidableEq, Inhabited

inductive Start (ρ : Type) where
  /-- The document is not open. -/
  | absent
  /-- The text was analysed before. -/
  | known (result : ρ) (version : Int)
  | fresh (ticket : Ticket)

namespace Documents

variable {ρ : Type}

def opened (ds : Documents ρ) (uri : Bytes) (version : Int) (text : Bytes) : Documents ρ :=
  Assoc.set ds uri { text, version, revision := 1, pending := true }

def modify (ds : Documents ρ) (uri : Bytes) (f : Document ρ → Document ρ) : Documents ρ :=
  match Assoc.get? ds uri with
  | some d => Assoc.set ds uri (f d)
  | none => ds

def changed (ds : Documents ρ) (uri : Bytes) (version : Int) (changes : List Change) :
    Documents ρ :=
  modify ds uri fun d =>
    { d with
      text := Change.applyAll d.text changes, version, revision := d.revision + 1, pending := true }

/-- Note that an open document was saved; a text that came with it replaces another. -/
def saved (ds : Documents ρ) (uri : Bytes) (text : Option Bytes) : Documents ρ :=
  modify ds uri fun d =>
    match text with
    | some t =>
      if t = d.text then { d with pending := true }
      else { d with text := t, revision := d.revision + 1, pending := true }
    | none => { d with pending := true }

def closed (ds : Documents ρ) (uri : Bytes) : Documents ρ := ds.filter (·.1 ≠ uri)

def settled (ds : Documents ρ) : Documents ρ :=
  ds.map fun (u, d) => (u, { d with pending := false })

/-- The addresses of the documents about which the editor is still to be told, in order. -/
def pending (ds : Documents ρ) : List Bytes :=
  (Assoc.keys (ds.filter (·.2.pending))).mergeSort Bytes.le

def begin (ds : Documents ρ) (uri : Bytes) : Start ρ :=
  match Assoc.get? ds uri with
  | none => .absent
  | some d =>
    let fresh : Start ρ := .fresh ⟨uri, d.text, d.revision, d.version⟩
    match d.known with
    | some (revision, result) => if revision = d.revision then .known result d.version else fresh
    | none => fresh

/-- Keep the result of an analysis if the document is still at the revision it has read. -/
def finish (ds : Documents ρ) (t : Ticket) (result : ρ) : Documents ρ :=
  modify ds t.uri fun d =>
    if d.revision = t.revision then { d with known := some (t.revision, result) } else d

end Documents

end VecLang.Server
