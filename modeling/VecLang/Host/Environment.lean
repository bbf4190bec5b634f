import VecLang.Host.Files

/-!
# The host

Everything around a run of the compiler that it can see or change: files, directories with a
purpose, and the tools that other programs provide.
-/

namespace VecLang.Host

structure ToolRun where
  /-- Zero for success. -/
  status : Nat
  /-- What it wrote as errors. -/
  errors : Bytes := []
deriving DecidableEq, Inhabited

abbrev Tool := Files → Place → List Bytes → ToolRun

structure Environment where
  files : Files := []
  /-- The path of the working directory. -/
  cwd : Bytes
  /-- The directory for temporary files. -/
  tempDir : Bytes := "/tmp"
  /-- The directory for caches, empty when there is none. -/
  cacheHome : Bytes := []
  /-- The user's own directory, empty when it is not known. -/
  home : Bytes := []
  tools : Assoc Bytes Tool := []
  /-- How many temporary names were given out. -/
  tempNames : Nat := 0
  /-- Whether output is shown on a terminal. -/
  terminal : Bool := false
  /-- The time as a text. -/
  now : Bytes := []
deriving Inhabited

namespace Environment

def here (e : Environment) : Place := Path.elements e.cwd

/-- The directory in which an application keeps its cache, unless no directory is known. -/
def cacheDir? (e : Environment) (app : Bytes) : Option Bytes :=
  if e.cacheHome ≠ [] then some (Path.join [e.cacheHome, app])
  else if e.home ≠ [] then some (Path.join [Path.join [e.home, ".cache"], app])
  else none

def makeTemp (e : Environment) (stem : Bytes) : Except PathError (Bytes × Environment) :=
  let path := Path.join [e.tempDir, stem ++ Bytes.ofNat (e.tempNames + 1)]
  match e.files.mkdir e.here path with
  | .ok files => .ok (path, { e with files, tempNames := e.tempNames + 1 })
  | .error err =>
    match e.files.stat e.here e.tempDir with
    | .error s => .error (if s.fault = .notFound then s else err)
    | .ok _ => .error err

/-- Why a tool did not do its work. -/
inductive ToolError where
  /-- No tool has that name. -/
  | unknown (name : Bytes)
  /-- The name is a path that leads to no tool. -/
  | unreachable (name cause : Bytes)
  | failed (status : Nat)
  /-- It failed and said why. -/
  | complained (name text : Bytes)
deriving DecidableEq, Inhabited

end Environment

end VecLang.Host
