import VecLang.Build.Compile
import VecLang.Build.DiskCache
import VecLang.Host.Environment
import VecLang.Project.Manifest

/-!
# Building an executable

A file is compiled on a host, with what the host keeps of earlier compilations, and its assembly
is handed to an assembler and a linker.
-/

namespace VecLang.Build

open Host

def keptIn (e : Environment) (cache : Option DiskCache) (key : Bytes) : Option CachedUnit :=
  match cache with
  | none => none
  | some c =>
    match c.get e.files e.here key with
    | .ok u => u
    | .error _ => none

/-- Keep what is to be kept. A failure to do so is told and does no harm. -/
def keep (e : Environment) (cache : Option DiskCache) (store : Option (Bytes × CachedUnit)) :
    Environment × Option PathError :=
  match cache, store with
  | some c, some (key, u) =>
    match c.put e.files e.here key u with
    | .ok files => ({ e with files }, none)
    | .error err => (e, some err)
  | _, _ => (e, none)

/-- Compile a file of the host. With the result comes why the assembly could not be kept. -/
def compile (e : Environment) (cache : Option DiskCache) (r : Request) :
    Except Breakdown (Compiled × Option PathError × Environment) := do
  if r.target = [] then return ({ error := some .noTarget }, none, e)
  match e.files.read e.here r.target with
  | .error err =>
    let queued : Compiled := { events := [⟨"parse", .queued, 0, none⟩] }
    return (queued.fail "parse" (.load r.target err.message), none, e)
  | .ok raw =>
    let c ← compileSource (keptIn e cache) r (.ofDisk r.target raw)
    let (e, fault) := keep e cache c.store
    return (c, fault, e)

/-- What is to be built, and how. -/
structure Plan where
  request : Request
  /-- The path of the executable; empty for one named like the source. -/
  output : Bytes := []
  assembler : Bytes := []
  linker : Bytes := []
  /-- Whether temporary files are kept. -/
  keepTmp : Bool := false
deriving DecidableEq, Inhabited

def Plan.filled (p : Plan) : Plan :=
  let base := Path.base p.request.target
  let stem :=
    if Project.sourceExt.isSuffixOf base then base.take (base.length - Project.sourceExt.length)
    else base
  { p with
    output := if p.output = [] then stem else p.output
    assembler := if p.assembler = [] then Project.defaultAssembler else p.assembler
    linker := if p.linker = [] then Project.defaultLinker else p.linker }

/-- A way to run a tool with arguments: it fails with a reason. -/
abbrev Runner := Environment → Bytes → List Bytes → Except Bytes Unit

structure Built where
  compiled : Compiled
  /-- Why the assembly could not be kept for later. -/
  cacheFault : Option PathError := none
  output : Bytes := []
  /-- The directory of temporary files, if it is kept. -/
  tmp : Bytes := []
  /-- The commands that were run, the last of which may have failed. -/
  commands : List Bytes := []

namespace Built

def error (b : Built) : Option BuildError := b.compiled.error

def fail (b : Built) (e : BuildError) : Built :=
  { b with compiled := { b.compiled with error := some e } }

def stage (b : Built) (e : Environment) (run : Runner) (name tool : Bytes) (args : List Bytes)
    (failure : Bytes → BuildError) : Built :=
  let b := { b with
    compiled := b.compiled.report name .working
    commands := b.commands ++ [Bytes.join " " (tool :: args)] }
  match run e tool args with
  | .error cause => { b with compiled := b.compiled.fail name (failure cause) }
  | .ok () => { b with compiled := (b.compiled.timed name).report name .done }

end Built

def assembleAndLink (b : Built) (e : Environment) (run : Runner) (p : Plan) (tmp asm : Bytes) :
    Built × Environment :=
  let asmPath := Path.join [tmp, "out.asm"]
  let objPath := Path.join [tmp, "out.o"]
  match e.files.write e.here asmPath asm with
  | .error err => (b.fail (.writing err.message), e)
  | .ok files =>
    let e := { e with files }
    let b := b.stage e run "assemble" p.assembler ["-f", "elf64", "-o", objPath, asmPath] .assembler
    if b.error.isSome then (b, e)
    else (b.stage e run "link" p.linker ["-no-pie", objPath, "-o", p.output] .linker, e)

def finish (b : Built) (e : Environment) (run : Runner) (p : Plan) (asm : Bytes) :
    Built × Environment :=
  let b := { b with output := p.output }
  let dir := Path.dir p.output
  match if dir = "." then .ok e.files else e.files.mkdirs e.here dir with
  | .error err => (b.fail (.outputDir err.message), e)
  | .ok files =>
    match { e with files }.makeTemp "vecl-build-" with
    | .error err => (b.fail (.tempDir err.message), { e with files })
    | .ok (tmp, e) =>
      let (b, e) := assembleAndLink b e run p tmp asm
      if p.keepTmp then ({ b with tmp }, e)
      else (b, { e with files := e.files.removeAll e.here tmp })

def build (e : Environment) (cache : Option DiskCache) (run : Runner) (plan : Plan) :
    Except Breakdown (Built × Environment) := do
  let p := plan.filled
  let (c, cacheFault, e) ← compile e cache p.request
  match c.error, c.asm with
  | none, some asm => return finish { compiled := c, cacheFault } e run p asm
  | _, _ => return ({ compiled := c, cacheFault }, e)

end VecLang.Build
