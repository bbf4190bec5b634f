import VecLang.Build.Executable
import VecLang.Cli.Report
import VecLang.Machine.Step
import VecLang.Ssa.Dump
import VecLang.Token.Render
import VecLang.Version

/-!
# Looking into a program

The commands that show the tokens, the lowered form or the assembly of a file, or run it.
-/

namespace VecLang.Cli

open Host Job

def currentVersion : Version := {}

def tokenize (g : Given) (path : Bytes) : Job Unit := do
  let e ← host
  let raw ← orFail (fun err => .tokens (.load path err.message)) (e.files.read e.here path)
  let file := File.ofDisk path raw
  let lexemes := Lexer.lexemes {} file.content
  report g file ((Bag.empty (diagnosticLimit g)).addAll (Lexer.diagnostics lexemes)).items
  let format := g.text "format"
  if format = "pretty" then print (Token.listing file (Lexer.tokens lexemes))
  else if format = "json" then print (Token.document (Lexer.tokens lexemes))
  else throw (.tokenFormat format)

def loweredFile (g : Given) (path : Bytes) : Job (File × Ssa.Module) := do
  let (file, a) ← analyzeFile path
  reportAnalysis g file a
  if !a.ok then throw (.build .diagnostics)
  let m ← orFail .build (← sound (Build.lower a))
  record [Trace.ofLowering m]
  return (file, m)

def showLowered (g : Given) (path : Bytes) : Job Unit := do
  let (_, m) ← loweredFile g path
  print (← sound (m.dump (g.on "types")))

def runFile (g : Given) (path : Bytes) : Job Unit := do
  let (file, m) ← loweredFile g path
  let most := g.number "max-steps"
  let steps := if most ≤ 0 then none else some most.toNat
  let s := (Machine.Program.ofModule m { steps }).run
  record [Trace.ofRun s]
  print s.output
  match s.status with
  | .broken b => sound (.error b)
  | .trapped t =>
    complain (t.report #[file] (s.stack.map (·.routine.func)))
    throw (.trap t)
  | _ => if s.exitCode ≠ 0 then throw (.exited s.exitCode)

def emitAssembly (g : Given) (path : Bytes) : Job Unit := do
  let request : Build.Request := { target := path, version := currentVersion.number }
  let (c, _, e) ← sound (Build.compile (← host) none request)
  record c.activities
  if let some (file, a) := c.source then reportAnalysis g file a
  if g.on "timings" then complain (stageLines c.timings)
  if let some err := c.error then throw (.build err)
  let asm := c.asm.getD []
  let output := g.text "output"
  if output = [] then print asm
  else setFiles (← orFail (.writeOutput output) (e.files.write e.here output asm))

end VecLang.Cli
