import VecLang.Assoc
import VecLang.Text.Path

/-!
# Files

A tree of directories and files as a value, with the operations the compiler needs of it. A path
is followed element by element, so one that leads through a missing directory or through a file
fails even where its text would lead back out of it.
-/

namespace VecLang.Host

inductive Entry where
  | file (content : Bytes)
  | dir
deriving DecidableEq, Inhabited

abbrev Place := List Bytes

/-- All files and directories but the root, which is always there. -/
abbrev Files := Assoc Place Entry

inductive FileFault where
  | notFound
  | notDirectory
  | isDirectory
  | alreadyExists
deriving DecidableEq, Inhabited

def FileFault.message : FileFault → Bytes
  | notFound => "no such file or directory"
  | notDirectory => "not a directory"
  | isDirectory => "is a directory"
  | alreadyExists => "file exists"

structure PathError where
  /-- The name of the operation. -/
  op : Bytes
  path : Bytes
  fault : FileFault
deriving DecidableEq, Inhabited

def PathError.message (e : PathError) : Bytes := e.op ++ " " ++ e.path ++ ": " ++ e.fault.message

namespace Files

def entry? (fs : Files) (p : Place) : Option Entry := if p = [] then some .dir else Assoc.get? fs p

/-- Follow path elements from a place. Only a directory can be left for another place; the last
place need not exist. -/
def follow (fs : Files) (p : Place) : List Bytes → Except FileFault Place
  | [] => .ok p
  | e :: rest =>
    match fs.entry? p with
    | none => .error .notFound
    | some (.file _) => .error .notDirectory
    | some .dir =>
      if e = [] || e = "." then follow fs p rest
      else if e = ".." then follow fs p.dropLast rest
      else follow fs (p ++ [e]) rest

def place (fs : Files) (cwd : Place) (path : Bytes) : Except FileFault Place :=
  if path = [] then .error .notFound
  else follow fs (if Path.isAbs path then [] else cwd) (Bytes.splitOn Path.slash path)

def lookup (fs : Files) (cwd : Place) (path : Bytes) : Except FileFault Entry :=
  match place fs cwd path with
  | .error f => .error f
  | .ok p =>
    match fs.entry? p with
    | some e => .ok e
    | none => .error .notFound

def stat (fs : Files) (cwd : Place) (path : Bytes) : Except PathError Entry :=
  (lookup fs cwd path).mapError fun f => ⟨"stat", path, f⟩

def read (fs : Files) (cwd : Place) (path : Bytes) : Except PathError Bytes :=
  match lookup fs cwd path with
  | .ok (.file content) => .ok content
  | .ok .dir => .error ⟨"read", path, .isDirectory⟩
  | .error f => .error ⟨"open", path, f⟩

def write (fs : Files) (cwd : Place) (path content : Bytes) : Except PathError Files :=
  let failed (f : FileFault) : Except PathError Files := .error ⟨"open", path, f⟩
  if path.getLast? = some Path.slash then
    match place fs cwd (Bytes.trimRight (· = Path.slash) path) with
    | .error f => failed f
    | .ok _ => failed .isDirectory
  else
    match place fs cwd path with
    | .error f => failed f
    | .ok p =>
      if fs.entry? p = some .dir then failed .isDirectory
      else .ok (Assoc.set fs p (.file content))

def parentPath (path : Bytes) : Bytes :=
  let named := Bytes.trimRight (· = Path.slash) path
  Bytes.trimRight (· = Path.slash) (named.reverse.dropWhile (· ≠ Path.slash)).reverse

def mkdir (fs : Files) (cwd : Place) (path : Bytes) : Except PathError Files :=
  let failed (f : FileFault) : Except PathError Files := .error ⟨"mkdir", path, f⟩
  match place fs cwd (Bytes.trimRight (· = Path.slash) path) with
  | .error f => failed f
  | .ok p => if (fs.entry? p).isSome then failed .alreadyExists else .ok (Assoc.set fs p .dir)

/-- Make a directory and those that lead to it, as far as they are missing. Each turn goes one
element up the path, so its length is enough. -/
def mkdirAll (cwd : Place) : (fuel : Nat) → Files → (path : Bytes) → Except PathError Files
  | 0, fs, _ => .ok fs
  | fuel + 1, fs, path =>
    match lookup fs cwd path with
    | .ok .dir => .ok fs
    | .ok (.file _) => .error ⟨"mkdir", path, .notDirectory⟩
    | .error _ => do
      let parent := parentPath path
      let fs ← if parent = [] then .ok fs else mkdirAll cwd fuel fs parent
      match mkdir fs cwd path with
      | .ok fs => return fs
      | .error e => if lookup fs cwd path matches .ok .dir then return fs else throw e

/-- Make a directory and those that lead to it. -/
def mkdirs (fs : Files) (cwd : Place) (path : Bytes) : Except PathError Files :=
  mkdirAll cwd (path.length + 1) fs path

def removeTree (fs : Files) (p : Place) : Files := fs.filter fun e => !p.isPrefixOf e.1

/-- Remove what a path leads to with everything below it; nothing there is no failure. -/
def removeAll (fs : Files) (cwd : Place) (path : Bytes) : Files :=
  match place fs cwd path with
  | .ok p => removeTree fs p
  | .error _ => fs

def names (fs : Files) (p : Place) : List Bytes :=
  (fs.filterMap fun e => if e.1.dropLast = p then e.1.getLast? else none).mergeSort Bytes.le

def add (fs : Files) (p : Place) (content : Bytes) : Files :=
  let fs := (List.range p.length).foldl (fun (fs : Files) i =>
    if (fs.entry? (p.take i)).isSome then fs else Assoc.set fs (p.take i) .dir) fs
  Assoc.set fs p (.file content)

def isHidden (name : Bytes) : Bool := name.head? = some 0x2e

/-- The paths of the files with an extension in a directory and below it, in order. Hidden
directories are left out. -/
def filesBelow (fs : Files) (cwd : Place) (root ext : Bytes) : List Bytes :=
  match place fs cwd root with
  | .error _ => []
  | .ok p =>
    (fs.filterMap fun (q, e) =>
      let below := q.drop p.length
      if p.isPrefixOf q && e matches .file _ && !below.dropLast.any isHidden
          && (below.getLast?.map Path.ext) = some ext then
        some (Path.join (root :: below))
      else none).mergeSort Bytes.le

end Files

end VecLang.Host
