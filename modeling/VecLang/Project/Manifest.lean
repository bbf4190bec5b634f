import VecLang.Host.Files
import VecLang.Text.Blank
import VecLang.Text.Quoted
import VecLang.Text.Unicode.Case
import VecLang.Toml.Document

/-!
# Manifests

A project has a manifest, a file in its directory that names the project and says how it is
built.
-/

namespace VecLang.Project

def sourceExt : Bytes := ".vl"

def manifestName : Bytes := "vecl.toml"

structure BuildConfig where
  main : Bytes := []
  output : Bytes := []
  assembler : Bytes := []
  linker : Bytes := []
  keepTmp : Bool := false
  jobs : Int := 0
deriving DecidableEq, Inhabited

structure Config where
  name : Bytes := []
  build : BuildConfig := {}
deriving DecidableEq, Inhabited

def defaultAssembler : Bytes := "nasm"

def defaultLinker : Bytes := "gcc"

structure Manifest where
  path : Bytes
  /-- The directory it is in. -/
  root : Bytes
  config : Config
deriving DecidableEq, Inhabited

inductive ConfigFault where
  /-- It is not a document, or a value is of the wrong kind. -/
  | malformed
  | noPackage
  | noName
  | unknownKey (key : Toml.Key)
  | negativeJobs
deriving DecidableEq, Inhabited

inductive ManifestError where
  /-- A place where it could be cannot be looked at. -/
  | lookup (candidate : Bytes) (cause : Host.PathError)
  | unreadable (path : Bytes) (cause : Host.PathError)
  | fault (path : Bytes) (fault : ConfigFault)
deriving DecidableEq, Inhabited

namespace ManifestError

def message : ManifestError → Bytes
  | lookup p e => "failed to stat " ++ Quoted.quote p ++ ": " ++ e.message
  | unreadable p e => p ++ ": failed to parse TOML: " ++ e.message
  | fault p .malformed => p ++ ": failed to parse TOML"
  | fault p .noPackage => p ++ ": missing [package]"
  | fault p .noName => p ++ ": missing [package].name"
  | fault p (.unknownKey k) => p ++ ": unknown key " ++ Quoted.quote (Toml.keyText k)
  | fault p .negativeJobs => p ++ ": [build].jobs must not be negative"

end ManifestError

/-! ## Reading -/

/-- The members of a table that a name means; case does not matter. -/
def membersOf (es : Toml.Entries) (name : Bytes) : Toml.Entries :=
  es.filter fun e => Unicode.foldName e.1 = Unicode.foldName name

abbrev Sections := List (Toml.Key × Toml.Entries)

/-- The tables that a name means, unless something else has the name. -/
def sectionsOf (es : Toml.Entries) (name : Bytes) : Option Sections :=
  (membersOf es name).mapM fun
    | (written, .table sub) => some ([written], sub)
    | _ => none

/-- What the members of a name stand for: the last of them counts, and all must be readable. -/
def valueOf (read? : Toml.Node → Option α) (default : α) (s : Sections) (name : Bytes) : Option α :=
  (s.flatMap fun t => membersOf t.2 name).foldlM (fun _ m => read? m.2) default

def textOf : Sections → Bytes → Option Bytes :=
  valueOf (fun | .leaf (.text s) => some s | _ => none) []

/-- A member that says yes or no, no when it is missing. -/
def flagOf : Sections → Bytes → Option Bool :=
  valueOf (fun | .leaf (.bool b) => some b | _ => none) false

def numberOf : Sections → Bytes → Option Int :=
  valueOf (fun | .leaf (.int n) => some n | _ => none) 0

def readKeys (s : Sections) (names : List Bytes) : List Toml.Key :=
  s.flatMap fun (key, es) => key :: names.flatMap fun n => (membersOf es n).map (key ++ [·.1])

/-- The configuration in a document, with the keys it was read from, unless a value is of the
wrong kind. -/
def decode? (d : Toml.Document) : Option (Config × List Toml.Key) := do
  let package ← sectionsOf d.root "package"
  let build ← sectionsOf d.root "build"
  let config : Config :=
    { name := ← textOf package "name"
      build :=
        { main := ← textOf build "main"
          output := ← textOf build "output"
          assembler := ← textOf build "assembler"
          linker := ← textOf build "linker"
          keepTmp := ← flagOf build "keep_tmp"
          jobs := ← numberOf build "jobs" } }
  return (config, readKeys package ["name"]
    ++ readKeys build ["main", "output", "assembler", "linker", "keep_tmp", "jobs"])

def Config.filled (c : Config) : Config :=
  let or (given default : Bytes) : Bytes := if given.isEmpty then default else given
  { c with build :=
      { c.build with
        main := or c.build.main ("main" ++ sourceExt)
        output := or c.build.output c.name
        assembler := or c.build.assembler defaultAssembler
        linker := or c.build.linker defaultLinker } }

def readConfig (text : Bytes) : Except ConfigFault Config :=
  match (Toml.parse? text).bind Toml.Document.ofLines? with
  | none => .error .malformed
  | some d =>
    match decode? d with
    | none => .error .malformed
    | some (config, known) =>
      if (Toml.get? d.root ["package"]).isNone then .error .noPackage
      else if (Toml.get? d.root ["package", "name"]).isNone || (Blank.trim config.name).isEmpty then
        .error .noName
      else match d.keys.find? fun k => !known.contains k with
        | some k => .error (.unknownKey k)
        | none => if config.build.jobs < 0 then .error .negativeJobs else .ok config.filled

/-! ## Finding -/

/-- The manifest in a directory or the nearest one above it. Each turn goes one directory up, so
the length of the path is enough. -/
def findFrom (fs : Host.Files) : (fuel : Nat) → (dir : Bytes) → Except ManifestError (Option Bytes)
  | 0, _ => .ok none
  | fuel + 1, dir =>
    let candidate := Path.join [dir, manifestName]
    match fs.stat [] candidate with
    | .ok _ => .ok (some candidate)
    | .error e =>
      if e.fault ≠ .notFound then .error (.lookup candidate e)
      else
        let parent := Path.dir dir
        if parent = dir then .ok none else findFrom fs fuel parent

/-- The manifest for a directory, which is taken from the working directory. -/
def find (fs : Host.Files) (cwd start : Bytes) : Except ManifestError (Option Bytes) :=
  let dir := Path.absolute cwd start
  findFrom fs (dir.length + 1) dir

def load (fs : Host.Files) (cwd start : Bytes) : Except ManifestError (Option Manifest) := do
  match ← find fs cwd start with
  | none => return none
  | some path =>
    match fs.read [] path with
    | .error e => throw (.unreadable path e)
    | .ok text =>
      match readConfig text with
      | .error f => throw (.fault path f)
      | .ok config => return some { path, root := Path.dir path, config }

namespace Manifest

/-- Why the main file of a project cannot be used, with the words for it. -/
inductive MainError where
  | missing (manifest path : Bytes)
  | unreachable (manifest : Bytes) (cause : Host.PathError)
  | notSource (manifest : Bytes)
deriving DecidableEq, Inhabited

def MainError.message : MainError → Bytes
  | missing m p => m ++ ": [build].main path does not exist: " ++ p
  | unreachable m e => m ++ ": failed to stat [build].main: " ++ e.message
  | notSource m => m ++ ": [build].main must be a " ++ sourceExt ++ " file"

def mainFile (m : Manifest) (fs : Host.Files) : Except MainError Bytes :=
  let path := Path.join [m.root, Blank.trim m.config.build.main]
  match fs.stat [] path with
  | .error e =>
    if e.fault = .notFound then .error (.missing m.path path) else .error (.unreachable m.path e)
  | .ok e =>
    if e = .dir || Path.ext path ≠ sourceExt then .error (.notSource m.path) else .ok path

def outputPath (m : Manifest) : Bytes := Path.join [m.root, m.config.build.output]

end Manifest

end VecLang.Project
