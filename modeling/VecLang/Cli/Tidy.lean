import VecLang.Cli.Report

/-!
# Formatting files

The command that brings source files into their standard form, or tells which are not in it.
-/

namespace VecLang.Cli

open Host Job

structure Tidied where
  path : Bytes
  changed : Bool := false
  error : Option Bytes := none
  /-- The formatted text. -/
  text : Bytes := []
deriving DecidableEq, Inhabited

def dropRepeated : List Bytes → List Bytes
  | a :: b :: rest => if a = b then dropRepeated (b :: rest) else a :: dropRepeated (b :: rest)
  | l => l

def sourcesAmong (e : Environment) (paths : List Bytes) : Except PathError (List Bytes) := do
  let found ← paths.mapM fun p => do
    match ← e.files.stat e.here p with
    | .dir => return e.files.filesBelow e.here p Project.sourceExt
    | .file _ => return if Path.ext p = Project.sourceExt then [p] else []
  return dropRepeated (found.flatten.mergeSort Bytes.le)

def tidyFile (o : Format.Options) (write : Bool) (path : Bytes) : Job Tidied := do
  let e ← host
  match e.files.read e.here path with
  | .error err => return { path, error := some err.message }
  | .ok data =>
    match Format.format o data with
    | .error (.broken b) => sound (.error b)
    | .error err => return { path, error := some err.message }
    | .ok text =>
      let done : Tidied := { path, changed := data ≠ text, text }
      if !write || !done.changed then return done
      match e.files.write e.here path text with
      | .ok files =>
        setFiles files
        return done
      | .error err => return { done with error := some ("write: " ++ err.message) }

/-- What came out of formatting a file, as an object. -/
def Tidied.toJson (t : Tidied) : Json :=
  let base : List (Bytes × Json) := [("path", .str t.path), ("changed", .bool t.changed)]
  let error : List (Bytes × Json) := match t.error with
    | some e => [("error", .str e)]
    | none => []
  .obj (base ++ error)

def Tidied.tell (t : Tidied) (toOutput checkOnly quiet : Bool) : Job Unit := do
  match t.error with
  | some e => complain ("fmt: " ++ t.path ++ ": " ++ e ++ "\n")
  | none =>
    if toOutput then print t.text
    else if t.changed && !quiet then
      print (if checkOnly then t.path ++ "\n" else "reformatted " ++ t.path ++ "\n")

def tidy (g : Given) (paths : List Bytes) : Job Unit := do
  let checkOnly := g.on "check"
  let toOutput := g.on "stdout"
  let form := g.text "format"
  if toOutput && checkOnly then throw .stdoutAndCheck
  if form ≠ "text" && form ≠ "json" then throw (.reportFormat form)
  if toOutput && form ≠ "text" then throw .stdoutNotText
  let files ← orFail .formatTarget (sourcesAmong (← host) paths)
  if files.isEmpty then throw .nothingToFormat
  let width := g.number "indent"
  let options : Format.Options := { width := if width = 0 then 4 else width, tabs := g.on "tabs" }
  let results ← files.mapM (tidyFile options (!checkOnly && !toOutput))
  if form = "json" then print ((Json.list Tidied.toJson results).indented 0 ++ "\n")
  else results.forM fun t => t.tell toOutput checkOnly (g.on "quiet")
  if results.any (·.error.isSome) then throw .formatting
  if checkOnly && results.any (·.changed) then throw .unformatted

end VecLang.Cli
