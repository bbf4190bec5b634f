import VecLang.Diagnostic.Bag
import VecLang.Source.File
import VecLang.Text.Style
import VecLang.Text.Width
import VecLang.Breakdown
import VecLang.Json

/-!
# Diagnostics for display

Diagnostics can be shown one a line, with the source lines they are about, or as a document.
-/

namespace VecLang.Diagnostic

inductive PathMode where
  | asGiven
  | absolute
  | relative
  | basename
deriving DecidableEq, Inhabited

def PathMode.ofCode : Nat → PathMode
  | 1 => absolute
  | 2 => relative
  | 3 => basename
  | _ => asGiven

def pathText (cwd : Bytes) (mode : PathMode) (f : File) : Bytes :=
  if f.origin.inMemory then f.path
  else match mode with
    | .asGiven => f.path
    | .absolute => Path.absolute cwd f.path
    | .relative => (Path.relative? cwd (Path.absolute cwd f.path)).getD f.path
    | .basename => Path.base f.path

structure Located where
  file : File
  start : LineCol
  stop : LineCol

def locate (files : FileSet) (s : Span) : Except Breakdown Located :=
  match files[s.file]? with
  | none => .error .outOfRange
  | some f =>
    .ok ⟨f, .ofOffset f.lineIndex s.start, .ofOffset f.lineIndex s.stop⟩

def Located.text (cwd : Bytes) (mode : PathMode) (l : Located) : Bytes :=
  pathText cwd mode l.file ++ ":" ++ Bytes.ofNat l.start.line ++ ":" ++ Bytes.ofNat l.start.col

def firstOf (max : Nat) (ds : List Diagnostic) : List Diagnostic :=
  if max = 0 then ds else ds.take max

/-! ## One a line -/

def shortLine (cwd : Bytes) (mode : PathMode) (files : FileSet) (d : Diagnostic) :
    Except Breakdown Bytes := do
  let l ← locate files d.primary
  return l.text cwd mode ++ ": " ++ d.severity.name ++ " " ++ d.code.id ++ ": " ++ d.message
    ++ "\n"

def short (cwd : Bytes) (mode : PathMode) (files : FileSet) (ds : List Diagnostic) :
    Except Breakdown Bytes :=
  List.flatten <$> ds.mapM (shortLine cwd mode files)

/-! ## With source lines -/

structure PrettyOptions where
  cwd : Bytes
  color : Bool := false
  /-- How many lines before the line of the diagnostic are shown. -/
  context : Nat := 0
  pathMode : PathMode := .asGiven
  /-- The columns a line is cut to, zero for all. -/
  width : Nat := 0
  notes : Bool := false
  /-- How many diagnostics are shown, zero for all. -/
  max : Nat := 0

def expandTabs (b : Bytes) : Bytes := b.flatMap fun c => if c = 0x09 then "    " else [c]

def columnsBefore (line : Bytes) (col : Nat) : Nat :=
  Width.ofText (expandTabs (line.take (col - 1)))

def clip (width : Nat) (b : Bytes) : Bytes := if width = 0 then b else Width.truncate b width "…"

def severityStyle : Severity → Style
  | .error => ⟨some .red, true⟩
  | .warning => ⟨some .yellow, true⟩
  | _ => ⟨some .cyan, true⟩

def gutter (o : PrettyOptions) (width : Nat) (text : Bytes) : Bytes :=
  Style.paint ⟨some .blue, false⟩ o.color (Bytes.padLeft width text ++ " |")

/-- The source line of a place, the lines before it, and a mark under it. The mark of a span
that goes on in another line reaches to the end of the line. -/
def snippet (o : PrettyOptions) (l : Located) : Bytes :=
  let width := (Bytes.ofNat l.start.line).length
  let first := if o.context < l.start.line then l.start.line - o.context else 1
  let shown := (List.range (l.start.line + 1 - first)).map fun i =>
    let n := first + i
    gutter o width (Bytes.ofNat n) ++ " " ++ clip o.width (expandTabs (l.file.line n)) ++ "\n"
  let line := l.file.line l.start.line
  let stop := if l.stop.line ≠ l.start.line || l.stop.col ≤ l.start.col then line.length + 1
    else l.stop.col
  let lead := columnsBefore line l.start.col
  let marks := "^" ++ Bytes.replicate (columnsBefore line stop - lead - 1) 0x7e
  shown.flatten ++ gutter o width [] ++ " " ++ Bytes.spaces lead
    ++ Style.paint ⟨some .red, true⟩ o.color marks ++ "\n"

def noteLine (o : PrettyOptions) (files : FileSet) (n : Note) : Except Breakdown Bytes := do
  let l ← locate files n.span
  return "  " ++ Style.paint ⟨some .green, false⟩ o.color "note:" ++ " " ++ l.text o.cwd o.pathMode
    ++ ": " ++ n.message ++ "\n"

def prettyOne (o : PrettyOptions) (files : FileSet) (d : Diagnostic) : Except Breakdown Bytes := do
  let l ← locate files d.primary
  let notes ← if o.notes then d.notes.mapM (noteLine o files) else pure []
  return l.text o.cwd o.pathMode ++ ": " ++ (severityStyle d.severity).paint o.color d.severity.name
    ++ " " ++ Style.paint ⟨none, true⟩ o.color d.code.id ++ ": " ++ d.message ++ "\n"
    ++ snippet o l ++ notes.flatten ++ "\n"

def pretty (o : PrettyOptions) (files : FileSet) (ds : List Diagnostic) : Except Breakdown Bytes :=
  List.flatten <$> (firstOf o.max ds).mapM (prettyOne o files)

/-! ## As a document -/

structure DocumentOptions where
  cwd : Bytes
  /-- Whether lines and columns are given. -/
  positions : Bool := false
  pathMode : PathMode := .asGiven
  notes : Bool := false
  /-- How many diagnostics there are at most, zero for all. -/
  max : Nat := 0

def numberMember (name : Bytes) (n : Nat) : List (Bytes × Json) :=
  if n = 0 then [] else [(name, .nat n)]

def locationObject (o : DocumentOptions) (files : FileSet) (s : Span) : Except Breakdown Json := do
  let l ← locate files s
  let bytes : List (Bytes × Json) :=
    [("file", .str (pathText o.cwd o.pathMode l.file)), ("start_byte", .nat s.start),
     ("end_byte", .nat s.stop)]
  let positions := numberMember "start_line" l.start.line ++ numberMember "start_col" l.start.col
    ++ numberMember "end_line" l.stop.line ++ numberMember "end_col" l.stop.col
  return .obj (bytes ++ if o.positions then positions else [])

def noteObject (o : DocumentOptions) (files : FileSet) (n : Note) : Except Breakdown Json := do
  return .obj [("message", .str n.message), ("location", ← locationObject o files n.span)]

/-- The code of diagnostics about timings, whose notes are always shown. -/
def timingsCode : Code := ⟨6001⟩

def toObject (o : DocumentOptions) (files : FileSet) (d : Diagnostic) : Except Breakdown Json := do
  let place ← locationObject o files d.primary
  let notes ← if o.notes || d.code = timingsCode then d.notes.mapM (noteObject o files) else pure []
  let base : List (Bytes × Json) :=
    [("severity", .str d.severity.name), ("code", .str d.code.id), ("message", .str d.message),
     ("location", place)]
  let more : List (Bytes × Json) := if notes.isEmpty then [] else [("notes", .arr notes)]
  return .obj (base ++ more)

def document (o : DocumentOptions) (files : FileSet) (ds : List Diagnostic) :
    Except Breakdown Bytes := do
  let objects ← (firstOf o.max ds).mapM (toObject o files)
  let doc : Json := .obj [("diagnostics", .arr objects), ("count", .nat objects.length)]
  return doc.indented 0 ++ "\n"

end VecLang.Diagnostic
