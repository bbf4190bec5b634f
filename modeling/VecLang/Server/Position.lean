import VecLang.Json
import VecLang.Source.File

/-!
# Positions in a document

An editor names a place by its line and by the number of UTF-16 units before it in that line,
both counted from zero; the compiler names it by its byte offset. A place outside the text is
moved to the nearest one inside.
-/

namespace VecLang.Server

structure Position where
  /-- The line, the first being zero. -/
  line : Int
  /-- UTF-16 units before the place in its line. -/
  character : Int
deriving DecidableEq, Inhabited

/-- A stretch of text between two places. -/
structure Range where
  start : Position
  stop : Position
deriving DecidableEq, Inhabited

def units (c : Char) : Nat := if 0xffff < c.toNat then 2 else 1

def unitsOf (b : Bytes) : Nat := ((Utf8.chars b).map units).foldr (· + ·) 0

/-- The number of bytes before a line, or of the whole text when it has fewer lines. -/
def lineStart : Nat → Bytes → Nat
  | 0, _ => 0
  | _ + 1, [] => 0
  | n + 1, c :: rest => 1 + lineStart (if c = newlineByte then n else n + 1) rest

/-- The number of bytes of as many whole characters as fit into a number of units, up to the end
of the line. -/
def columnBytes (room : Nat) : List (Char × Bytes) → Nat
  | [] => 0
  | (c, source) :: rest =>
    if source.head? = some newlineByte || room < units c then 0
    else source.length + columnBytes (room - units c) rest

namespace Position

/-- The byte offset of a place. A place before the text is its beginning. -/
def offset (content : Bytes) (p : Position) : Nat :=
  if p.line < 0 || p.character < 0 then 0
  else
    let start := lineStart p.line.toNat content
    start + columnBytes p.character.toNat (Utf8.pieces (content.drop start))

def lastLine (b : Bytes) : Bytes := (b.reverse.takeWhile (· ≠ newlineByte)).reverse

def ofOffset (content : Bytes) (offset : Nat) : Position :=
  let before := content.take offset
  ⟨before.count newlineByte, unitsOf (lastLine before)⟩

def toJson (p : Position) : Json :=
  .obj [("line", .int p.line), ("character", .int p.character)]

end Position

namespace Range

def ofSpan (content : Bytes) (s : Span) : Range :=
  ⟨Position.ofOffset content s.start, Position.ofOffset content s.stop⟩

def whole (content : Bytes) : Range := ⟨⟨0, 0⟩, Position.ofOffset content content.length⟩

def toJson (r : Range) : Json := .obj [("start", r.start.toJson), ("end", r.stop.toJson)]

end Range

/-- A change to a document: new text for a range, or for the whole document. -/
structure Change where
  range : Option Range
  text : Bytes
deriving DecidableEq, Inhabited

namespace Change

def apply (content : Bytes) (c : Change) : Bytes :=
  match c.range with
  | none => c.text
  | some r =>
    let start := r.start.offset content
    let stop := max (r.stop.offset content) start
    content.take start ++ c.text ++ content.drop stop

def applyAll (content : Bytes) (cs : List Change) : Bytes := cs.foldl apply content

end Change

end VecLang.Server
