import VecLang.Cli.Console
import VecLang.Diagnostic.Render
import VecLang.Trace.Timer

/-!
# Reports

How commands tell of diagnostics and of time, and where colours are used.
-/

namespace VecLang.Cli

open Host Job

/-- A choice that may be left to the program. -/
inductive Choice where
  | auto
  | on
  | off
deriving DecidableEq, Inhabited

/-- The choice that a text stands for; case and blanks around it do not matter. -/
def Choice.ofText? (b : Bytes) : Option Choice :=
  let t := Blank.trim (Unicode.lower b)
  if t = [] || t = "auto" then some .auto
  else if t = "on" then some .on
  else if t = "off" then some .off
  else none

def useColor (g : Given) : Job Bool := do
  match Choice.ofText? (g.text "color") with
  | none => throw (.color (g.text "color"))
  | some .on => return true
  | some .off => return false
  | some .auto => return (← host).terminal

def diagnosticLimit (g : Given) : Nat := Analysis.limitOf (g.number "max-diagnostics")

/-- Diagnostics of a file with their source lines; nothing where there are none. -/
def prettyText (color : Bool) (file : File) (ds : List Diagnostic) : Job Bytes := do
  if ds.isEmpty then return []
  let cwd := (← host).cwd
  sound (Diagnostic.pretty { cwd, color, context := 1, notes := true } #[file] ds)

def report (g : Given) (file : File) (ds : List Diagnostic) : Job Unit := do
  let color ← useColor g
  complain (← prettyText color file ds)

def reportAnalysis (g : Given) (file : File) (a : Analysis) : Job Unit :=
  report g file (a.diagnostics (diagnosticLimit g))

def analyzeFile (path : Bytes) : Job (File × Analysis) := do
  let e ← host
  match e.files.read e.here path with
  | .error err => throw (.build (.load path err.message))
  | .ok raw =>
    let file := File.ofDisk path raw
    let a ← sound (analyze .typing file.content)
    record (Trace.ofAnalysis a)
    return (file, a)

def phaseTable (a : Analysis) : Bytes :=
  Trace.Timer.summary ⟨a.phases.map fun p => { name := p.name, note := p.note }⟩

def stageLines (t : Build.Timings) : Bytes :=
  (Build.stages.filter t.has).flatMap fun s =>
    Bytes.padRight 9 s ++ " " ++ Bytes.padLeft 7 (Places.text 2 (t.duration s).toNat 1000)
      ++ " ms\n"

/-- A path as it is shown: from the working directory on, if it lies below it. -/
def shownPath (cwd path : Bytes) : Bytes :=
  if cwd = [] || path = [] then path
  else match Path.relative? cwd path with
    | none => path
    | some r => if (".." : Bytes).isPrefixOf r then path else r

end VecLang.Cli
