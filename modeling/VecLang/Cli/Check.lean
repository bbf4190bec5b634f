import VecLang.Cli.Report

/-!
# Checking

The command that analyses a file, or all source files of a directory, and shows what is wrong
with them.
-/

namespace VecLang.Cli

open Host Job

inductive DiagnosticFormat where
  | pretty
  | short
  | json
deriving DecidableEq, Inhabited

def DiagnosticFormat.ofName? (b : Bytes) : Option DiagnosticFormat :=
  if b = "pretty" then some .pretty
  else if b = "short" then some .short
  else if b = "json" then some .json
  else none

def formatted (format : DiagnosticFormat) (color : Bool) (file : File) (ds : List Diagnostic) :
    Job Bytes := do
  let cwd := (← host).cwd
  match format with
  | .pretty => prettyText color file ds
  | .short => sound (Diagnostic.short cwd .asGiven #[file] ds)
  | .json => sound (Diagnostic.document { cwd, positions := true, notes := true } #[file] ds)

def sourcesAt (path : Bytes) : Job (List Bytes) := do
  let e ← host
  match ← orFail (.checkTarget path) (e.files.stat e.here path) with
  | .file _ => return [path]
  | .dir =>
    let found := e.files.filesBelow e.here path Project.sourceExt
    if found.isEmpty then throw (.noSources path)
    return found

def showChecked (g : Given) (format : DiagnosticFormat) (color : Bool) (file : File)
    (a : Analysis) : Job Bool := do
  let ds := a.diagnostics (diagnosticLimit g)
  print (← formatted format color file ds)
  if g.on "timings" then print (file.path ++ "\n" ++ phaseTable a)
  return ds.any Diagnostic.isError

def check (g : Given) (target : Bytes) : Job Unit := do
  let value := g.text "format"
  let some format := DiagnosticFormat.ofName? value | throw (.diagnosticFormat value)
  let results ← (← sourcesAt target).mapM analyzeFile
  let color ← useColor g
  let failed ← results.mapM fun (file, a) => showChecked g format color file a
  if failed.any id then throw (.build .diagnostics)
  if !g.on "quiet" && format ≠ .json then
    complain ("checked " ++ Bytes.ofNat results.length ++ " file(s)\n")

end VecLang.Cli
