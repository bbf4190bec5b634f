import VecLang.Cli.Inspect
import VecLang.Host.Tools

/-!
# Projects

The commands that make a project, build it, and clean up after it.
-/

namespace VecLang.Cli

open Host Job

/-! ## The cache -/

def openCache (e : Environment) : Except Bytes (Build.DiskCache × Files) :=
  match e.cacheDir? programName with
  | none => .error "$HOME is not defined"
  | some dir => (Build.DiskCache.openIn e.files e.here dir).mapError (·.message)

def clean (g : Given) : Job Unit := do
  let e ← host
  let (cache, files) ← orFail .openCache (openCache e)
  setFiles (cache.drop files e.here)
  if !g.on "quiet" then print ("removed cache in " ++ cache.dir ++ "\n")

/-- The cache for a build, unless it is not wanted. A cache that cannot be opened is done
without. -/
def cacheForBuild (g : Given) : Job (Option Build.DiskCache) := do
  if g.on "no-cache" then return none
  match openCache (← host) with
  | .ok (cache, files) =>
    setFiles files
    return some cache
  | .error cause =>
    if !g.on "quiet" then complain ("warning: cache disabled: " ++ cause ++ "\n")
    return none

/-! ## Building -/

def buildPlan (g : Given) (args : List Bytes) : Job Build.Plan := do
  let version := currentVersion.number
  let output := g.text "output"
  let keepTmp := g.on "keep-tmp"
  match args with
  | target :: _ => return { request := { target, version }, output, keepTmp }
  | [] =>
    let e ← host
    let some m ← orFail .manifest (Project.load e.files e.cwd ".") | throw .noManifest
    let target ← orFail .mainFile (m.mainFile e.files)
    let b := m.config.build
    return {
      request := { target, version }
      output := if output = [] then m.outputPath else output
      assembler := b.assembler
      linker := b.linker
      keepTmp := keepTmp || b.keepTmp }

def runHostTool : Build.Runner := fun e name args => (e.runTool name args).mapError (·.message)

def tellBuilt (b : Build.Built) : Job Unit := do
  if let some fault := b.cacheFault then
    complain ("warning: cache write failed: " ++ fault.message ++ "\n")
  if b.tmp ≠ [] then print ("tmp dir: " ++ b.tmp ++ "\n")
  print ("built " ++ shownPath (← host).cwd b.output ++ "\n")

def build (g : Given) (args : List Bytes) : Job Unit := do
  let view := g.text "ui"
  if (Choice.ofText? view).isNone then throw (.progressView view)
  let plan ← buildPlan g args
  let cache ← cacheForBuild g
  let (b, e) ← sound (Build.build (← host) cache runHostTool plan)
  setHost e
  record b.compiled.activities
  if g.on "print-commands" then b.commands.forM fun c => print (c ++ "\n")
  if let some (file, a) := b.compiled.source then
    reportAnalysis g file a
    if g.on "timings" then print (phaseTable a)
  if g.on "timings" then print (stageLines b.compiled.timings)
  if let some err := b.error then throw (.build err)
  if !g.on "quiet" then tellBuilt b

/-! ## New projects -/

def newManifest (name : Bytes) : Bytes :=
  "[package]\nname = " ++ Quoted.quote name ++ "\n\n[build]\nmain = \"main.vl\"\n"

def starterProgram : Bytes :=
  "// vecl starter program\n"
    ++ "fn length2(v: vec3) -> real \x7b\n"
    ++ "\treturn v.x * v.x + v.y * v.y + v.z * v.z;\n"
    ++ "\x7d\n\n"
    ++ "fn main() -> int \x7b\n"
    ++ "\tlet v = vec3(1.0, 2.0, 2.0) * 0.5;\n"
    ++ "\tprintr(length2(v));\n"
    ++ "\treturn 0;\n"
    ++ "\x7d\n"

def projectName (dir : Bytes) : Bytes :=
  let name := Blank.trim (Path.base dir)
  if name = [] || name = "." || name = "/" then "vecl-project" else name

def newProject (g : Given) (args : List Bytes) : Job Unit := do
  let e ← host
  let dir := Path.absolute e.cwd (args.headD ".")
  let files ← orFail (.makeDirectory dir) (e.files.mkdirs e.here dir)
  setFiles files
  let manifest := Path.join [dir, Project.manifestName]
  if files.stat e.here manifest matches .ok _ then throw (.alreadyInitialized manifest)
  let files ← orFail .writeManifest (files.write e.here manifest (newManifest (projectName dir)))
  setFiles files
  let mainName : Bytes := "main" ++ Project.sourceExt
  let main := Path.join [dir, mainName]
  let missing : Bool := match files.stat e.here main with
    | .error err => err.fault = .notFound
    | .ok _ => false
  if missing then setFiles (← orFail .writeMain (files.write e.here main starterProgram))
  if !g.on "quiet" then
    print ("Initialized vecl project in " ++ shownPath e.cwd dir ++ "\n")
    print ("  - " ++ Project.manifestName ++ "\n")
    print ("  - " ++ mainName ++ (if missing then ("" : Bytes) else " (existing)") ++ "\n")

end VecLang.Cli
