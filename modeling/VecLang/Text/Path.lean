import VecLang.Text.Bytes

/-!
# File paths

Paths with `/` between their elements, handled as text alone: no file is looked at.
-/

namespace VecLang.Path

def slash : UInt8 := 0x2f

/-- Whether the path starts at the root. -/
def isAbs (p : Bytes) : Bool := p.head? = some slash

/-- Add one element to a reduced path, kept in reverse. At the root `..` leads nowhere; in a
relative path it is kept when there is nothing to leave. -/
def pushElement (rooted : Bool) (done : List Bytes) (e : Bytes) : List Bytes :=
  if e = [] || e = "." then done
  else if e = ".." then
    match done with
    | top :: rest => if top = ".." then e :: done else rest
    | [] => if rooted then [] else [e]
  else e :: done

def elements (p : Bytes) : List Bytes :=
  ((Bytes.splitOn slash p).foldl (pushElement (isAbs p)) []).reverse

/-- The shortest path that names the same place. -/
def clean (p : Bytes) : Bytes :=
  let body := Bytes.join [slash] (elements p)
  if isAbs p then slash :: body else if body = [] then "." else body

/-- The parts joined to one path; empty parts do not count. -/
def join (parts : List Bytes) : Bytes :=
  match parts.filter (· ≠ []) with
  | [] => []
  | ps => clean (Bytes.join [slash] ps)

/-- The last element of a path. -/
def base (p : Bytes) : Bytes :=
  if p = [] then "."
  else
    let t := Bytes.trimRight (· = slash) p
    if t = [] then [slash] else (t.reverse.takeWhile (· ≠ slash)).reverse

/-- Everything but the last element of a path. -/
def dir (p : Bytes) : Bytes :=
  clean (p.reverse.dropWhile (· ≠ slash)).reverse

def ext (p : Bytes) : Bytes :=
  let last := p.reverse.takeWhile (· ≠ slash)
  if last.contains 0x2e then 0x2e :: (last.takeWhile (· ≠ 0x2e)).reverse else []

/-- The path as seen from the root, given the working directory. -/
def absolute (cwd p : Bytes) : Bytes :=
  if isAbs p then clean p else join [cwd, p]

def dropCommon : List Bytes → List Bytes → List Bytes × List Bytes
  | a :: as, b :: bs => if a = b then dropCommon as bs else (a :: as, b :: bs)
  | as, bs => (as, bs)

/-- The path that leads from `root` to `target`, when one can be told from the text. -/
def relative? (root target : Bytes) : Option Bytes :=
  if isAbs root != isAbs target then none
  else
    let (up, down) := dropCommon (elements root) (elements target)
    if up.contains ".." then none
    else if up = [] && down = [] then some "."
    else some (Bytes.join [slash] (up.map (fun _ => Bytes.ofString "..") ++ down))

end VecLang.Path
