import VecLang.Build.CacheEntry
import VecLang.Build.CacheKey
import VecLang.Host.Files

/-!
# The cache on disk

Compiled files are kept in a directory, each in a file named for its key. What cannot be read,
was written in another format, or belongs to another key, is not there.
-/

namespace VecLang.Build

open Host

structure DiskCache where
  dir : Bytes
deriving DecidableEq, Inhabited

/-- Why the cache could not be read. -/
inductive CacheError where
  | file (cause : PathError)
  /-- An entry is malformed. -/
  | undecodable
deriving DecidableEq, Inhabited

namespace DiskCache

def units (c : DiskCache) : Bytes := Path.join [c.dir, "units"]

def pathFor (c : DiskCache) (key : Bytes) : Bytes :=
  Path.join [c.dir, "units", Bytes.toHex key ++ ".mp"]

def openIn (fs : Files) (cwd : Place) (dir : Bytes) : Except PathError (DiskCache × Files) :=
  (fs.mkdirs cwd dir).map fun fs => (⟨dir⟩, fs)

def put (c : DiskCache) (fs : Files) (cwd : Place) (key : Bytes) (u : CachedUnit) :
    Except PathError Files := do
  let fs ← fs.mkdirs cwd c.units
  fs.write cwd (c.pathFor key) { u with schema := CachedUnit.currentSchema, key }.encode

def get (c : DiskCache) (fs : Files) (cwd : Place) (key : Bytes) :
    Except CacheError (Option CachedUnit) :=
  match fs.read cwd (c.pathFor key) with
  | .error e =>
    if e.fault = .notFound then .ok none
    else if e.fault = .isDirectory then .error .undecodable
    else .error (.file e)
  | .ok bytes =>
    match CachedUnit.decode? bytes with
    | none => .error .undecodable
    | some u => .ok (if u.schema = CachedUnit.currentSchema && u.key = key then some u else none)

def drop (c : DiskCache) (fs : Files) (cwd : Place) : Files := fs.removeAll cwd c.units

end DiskCache

end VecLang.Build
