import VecLang.Source.Span
import VecLang.Text.Digest
import VecLang.Text.Path

/-!
# Source files

Files of one run with their content, and the lines and columns of byte offsets. Lines and
columns count from one; a column counts bytes, and a line break belongs to the line it ends.
-/

namespace VecLang

/-- A line and a column, both counted from one. -/
structure LineCol where
  line : Nat
  col : Nat
deriving DecidableEq, Inhabited

structure Origin where
  /-- It was never on disk. -/
  inMemory : Bool
  /-- A byte order mark was taken off its front. -/
  hadMark : Bool
  /-- It held a carriage return, and pairs of carriage return and newline were folded. -/
  foldedReturns : Bool
deriving DecidableEq, Inhabited

structure File where
  /-- Its path in shortest form. -/
  path : Bytes
  /-- Its content as it is compiled. -/
  content : Bytes
  origin : Origin
deriving Inhabited

def newlineByte : UInt8 := 0x0a

def newlineOffsets (off : Nat) : Bytes → List Nat
  | [] => []
  | c :: rest =>
    if c = newlineByte then off :: newlineOffsets (off + 1) rest else newlineOffsets (off + 1) rest

/-- How many newlines stand before an offset, by halving the range from `lo` to `hi` that the number
is in; `index` has the offsets of all newlines. -/
def newlinesBefore (index : Array Nat) (off lo hi : Nat) : Nat :=
  if lo < hi then
    let mid := (lo + hi) / 2
    if index.getD mid 0 < off then newlinesBefore index off (mid + 1) hi
    else newlinesBefore index off lo mid
  else lo
termination_by hi - lo

/-- The position of an offset: the line is one more than the number of newlines before it, and the
column its distance from the last of them. -/
def LineCol.ofOffset (index : Array Nat) (off : Nat) : LineCol :=
  let before := newlinesBefore index off 0 index.size
  if before = 0 then ⟨1, off + 1⟩ else ⟨before + 1, off - index.getD (before - 1) 0⟩

namespace File

def newlines (f : File) : List Nat := newlineOffsets 0 f.content

def lineIndex (f : File) : Array Nat := f.newlines.toArray

/-- The text of a line counted from one, empty when there is no such line. -/
def line (f : File) (n : Nat) : Bytes :=
  let index := f.lineIndex
  if n = 0 || index.size + 1 < n then []
  else
    let start := if 1 < n then index.getD (n - 2) 0 + 1 else 0
    let stop := if n ≤ index.size then index.getD (n - 1) 0 else f.content.length
    (f.content.take stop).drop start

def digest (f : File) : Bytes := Digest.sha256 f.content

def foldReturns : Bytes → Bytes
  | [] => []
  | c :: rest =>
    if c = 0x0d && rest.head? = some newlineByte then foldReturns rest else c :: foldReturns rest

def orderMark : Bytes := [0xef, 0xbb, 0xbf]

def ofDisk (path raw : Bytes) : File :=
  let hadMark := orderMark.isPrefixOf raw
  let content := if hadMark then raw.drop 3 else raw
  let hasReturn := content.contains 0x0d
  { path := Path.clean path
    content := if hasReturn then foldReturns content else content
    origin := ⟨false, hadMark, hasReturn⟩ }

def ofMemory (name content : Bytes) : File :=
  { path := Path.clean name, content, origin := ⟨true, false, false⟩ }

end File

abbrev FileSet := Array File

namespace FileSet

/-- The number of the last file added under a path. -/
def latest? (fs : FileSet) (path : Bytes) : Option Nat :=
  let wanted := Path.clean path
  (List.range fs.size).reverse.find? fun i => (fs[i]?.map (·.path)) = some wanted

/-- The positions of both ends of a span, when its file exists. -/
def resolve? (fs : FileSet) (s : Span) : Option (LineCol × LineCol) :=
  fs[s.file]?.map fun f => (.ofOffset f.lineIndex s.start, .ofOffset f.lineIndex s.stop)

end FileSet

end VecLang
