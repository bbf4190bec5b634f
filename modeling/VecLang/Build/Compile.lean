import VecLang.Assembly.Program
import VecLang.Build.CacheEntry
import VecLang.Build.CacheKey
import VecLang.Build.Progress
import VecLang.Build.Timings
import VecLang.Ssa.Lower
import VecLang.Ssa.Validate
import VecLang.Trace.Activity

/-!
# Compiling a file

From source text to assembly, in stages that are reported as they go. A text that was compiled
before by the same version is not compiled again: its assembly is taken from where it was kept.
-/

namespace VecLang.Build

structure Request where
  target : Bytes
  /-- The version of the compiler. -/
  version : Bytes := []
deriving DecidableEq, Inhabited

inductive BuildError where
  | noTarget
  /-- The file cannot be read. -/
  | load (path cause : Bytes)
  /-- The source has errors. -/
  | diagnostics
  /-- The lowered program is not valid. -/
  | invalid (report : Bytes)
  | emission (cause : Bytes)
  | outputDir (cause : Bytes)
  | tempDir (cause : Bytes)
  | writing (cause : Bytes)
  | assembler (cause : Bytes)
  | linker (cause : Bytes)
deriving DecidableEq, Inhabited

def BuildError.message : BuildError → Bytes
  | noTarget => "missing target path"
  | load path cause => "load " ++ path ++ ": " ++ cause
  | diagnostics => "diagnostics reported errors"
  | invalid report => "MIR validation failed: " ++ report
  | emission cause => "assembly emission failed: " ++ cause
  | outputDir cause => "failed to create output dir: " ++ cause
  | tempDir cause => "failed to create tmp dir: " ++ cause
  | writing cause => "failed to write assembly: " ++ cause
  | assembler cause => "assembler failed: " ++ cause
  | linker cause => "linker failed: " ++ cause

structure Compiled where
  /-- The file and its analysis, when it could be read. -/
  source : Option (File × Analysis) := none
  asm : Option Bytes := none
  /-- Whether the assembly was taken from where it was kept. -/
  hit : Bool := false
  /-- What is to be kept under which key. -/
  store : Option (Bytes × CachedUnit) := none
  timings : Timings := {}
  events : List Event := []
  activities : List Trace.Activity := []
  error : Option BuildError := none

namespace Compiled

def report (c : Compiled) (stage : Bytes) (status : Status) : Compiled :=
  { c with events := c.events ++ [{ stage, status }] }

def fail (c : Compiled) (stage : Bytes) (e : BuildError) : Compiled :=
  { c with
    events := c.events ++ [{ stage, status := .error, error := some e.message }]
    error := some e }

def timed (c : Compiled) (stage : Bytes) : Compiled := { c with timings := c.timings.set stage 0 }

def did (c : Compiled) (as : List Trace.Activity) : Compiled :=
  { c with activities := c.activities ++ as }

end Compiled

/-- The lowered and checked form of a program without errors. -/
def lower (a : Analysis) : Except Breakdown (Except BuildError Ssa.Module) := do
  match a.typed with
  | none => return .error .diagnostics
  | some t =>
    let m ← Ssa.lowerModule t a.table
    match ← m.validate with
    | some r => return .error (.invalid r)
    | none => return .ok m

def analysisEvents (a : Analysis) : List Event :=
  let parsed : List Event :=
    [⟨"parse", .working, 0, none⟩, ⟨"parse", .done, 0, none⟩]
  let checked : List Event := [⟨"diagnose", .working, 0, none⟩]
  parsed ++ if a.phases.length ≤ 1 then [] else checked

def lowered (c : Compiled) (a : Analysis) :
    Except Breakdown (Except Compiled (Compiled × Ssa.Module)) := do
  let c := c.report "lower" .working
  match ← lower a with
  | .error e => return .error (c.fail "lower" e)
  | .ok m =>
    return .ok (((c.did [Trace.ofLowering m]).timed "lower").report "lower" .done, m)

def emitted (c : Compiled) (m : Ssa.Module) : Compiled :=
  let c := c.report "emit" .working
  match Assembly.Program.ofModule m with
  | .error e => c.fail "emit" (.emission e.message)
  | .ok p =>
    let asm := p.text
    let c := c.did [Trace.passOf "emit" ("bytes=" ++ Bytes.ofNat asm.length)]
    { (c.timed "emit").report "emit" .done with asm := some asm }

def compileSource (kept : Bytes → Option CachedUnit) (r : Request) (file : File) :
    Except Breakdown Compiled := do
  let a ← analyze .typing file.content
  let c : Compiled := { source := some (file, a), events := [⟨"parse", .queued, 0, none⟩] }
  let c := { c with events := c.events ++ analysisEvents a }.did (Trace.ofAnalysis a)
  let c := (c.timed "parse").timed "diagnose"
  if !a.ok then return c.fail "diagnose" .diagnostics
  let c := c.report "diagnose" .done
  let key := cacheKey file.digest r.version
  match kept key with
  | some u =>
    return { (c.report "lower" .done).report "emit" .done with asm := some u.asm, hit := true }
  | none =>
    match ← lowered c a with
    | .error c => return c
    | .ok (c, m) =>
      let c := emitted c m
      return { c with
        store := c.asm.map fun asm => (key, { version := r.version, path := file.path, asm }) }

end VecLang.Build
