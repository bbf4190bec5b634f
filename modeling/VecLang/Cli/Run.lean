import VecLang.Cli.Check
import VecLang.Cli.Help
import VecLang.Cli.Project
import VecLang.Cli.Tidy

/-!
# The command line

From the words of a command line to all that it does: what is written, the status, and the host
afterwards.
-/

namespace VecLang.Cli

open Host Job

/-! ## Profiles and traces -/

def openProfile (what path : Bytes) : Job Unit := do
  if path = [] then return
  let e ← host
  setFiles (← orFail (.profile what) (e.files.write e.here path []))

def writeProfile (what path : Bytes) : Job Unit := do
  if path = [] then return
  let e ← host
  setFiles (← orFail (.profile what) (e.files.write e.here path (what ++ "\n")))

def startProfiles (g : Given) : Job Unit := do
  openProfile "cpu profile" (g.text "cpu-profile")
  try openProfile "runtime trace" (g.text "runtime-trace")
  catch f =>
    writeProfile "cpu profile" (g.text "cpu-profile")
    throw f

/-- Write the profiles that are asked for. A failure is told and does no harm. -/
def finishProfiles (g : Given) : Job Unit := do
  try
    writeProfile "runtime trace" (g.text "runtime-trace")
    writeProfile "cpu profile" (g.text "cpu-profile")
    writeProfile "heap profile" (g.text "mem-profile")
  catch f => complain ("profile: " ++ f.message ++ "\n")

def traceCapacity : Int := 4096

def startTracing (g : Given) : Job Unit := do
  let output := g.text "trace"
  let some level := Trace.Level.parse? (g.text "trace-level")
    | throw (.traceLevel (g.text "trace-level"))
  let level := if level = .off && output ≠ [] then .phase else level
  if level = .off then return
  let some mode := Trace.Mode.parse? (g.text "trace-mode")
    | throw (.traceMode (g.text "trace-mode"))
  let e ← host
  let tracing : Tracing ← match mode with
    | .ring => pure { tracer := .keeping level traceCapacity e.now, target := .memory }
    | .stream => do
      let tracer := Trace.Tracer.streaming level (Trace.Format.auto.forPath output) e.now
      if output = [] || output = "-" then pure { tracer, target := .errors }
      else
        setFiles (← orFail .traceOutput (e.files.write e.here output []))
        pure { tracer, target := .file output }
  modify fun c => { c with tracing := some tracing }

def finishTracing : Job Unit := do
  match (← get).tracing with
  | some { tracer, target := .memory } => complain (tracer.output .text)
  | _ => return

/-! ## Commands -/

def endFailure? : Server.End → Option Failure
  | .inputEnded | .exit => none
  | .exitWithoutShutdown => some .exitWithoutShutdown
  | .protocolError f => some (.frame f)

def serve (g : Given) : Job Unit := do
  let server : Server.State := { version := currentVersion.number, limit := diagnosticLimit g }
  let (p, ending) ← sound (Server.Session.serve { server } (← get).input)
  p.sent.forM fun m => print (Server.Frame.write m.compact)
  if g.on "log" then p.remarks.forM fun r => complain r.line
  if let some f := endFailure? ending then throw f

def showHelp (words : List Bytes) : Job Unit :=
  match select words with
  | .ok (c, _) => print (helpText c)
  | .error _ =>
    let quoted (w : Bytes) : Bytes := "`" ++ w ++ "`"
    print ("Unknown help topic [" ++ Bytes.join " " (words.map quoted) ++ "]\n" ++ programUsage)

def perform (c : Command) (g : Given) (args : List Bytes) : Job Unit :=
  let first := args.headD []
  match c with
  | .build => build g args
  | .check => check g first
  | .emit => emitAssembly g first
  | .format => tidy g args
  | .ir => showLowered g first
  | .run => runFile g first
  | .tokenize => tokenize g first
  | .init => newProject g args
  | .serve => serve g
  | .clean => clean g
  | .version => do
    let color ← useColor g
    print (currentVersion.describe (color && (← host).terminal))
  | .help => showHelp args
  | .completion => print (helpText (some c))

def performTraced (c : Command) (g : Given) (args : List Bytes) : Job Unit := do
  orFail .usage (c.checkArgs args)
  startProfiles g
  startTracing g
  perform c g args
  finishTracing
  finishProfiles g

def execute (words : List Bytes) : Job Unit := do
  let (command, rest) ← orFail .usage (select words)
  let p ← orFail (fun e => .usage (.flag e)) (parse (Command.flags command) rest)
  if p.given.on "help" then print (helpText command)
  else match command with
    | none =>
      if p.given.on "version" then
        print (programName ++ " version " ++ currentVersion.number ++ "\n")
      else print (helpText none)
    | some .completion => print (helpText command)
    | some c => performTraced c p.given p.args

/-- All that came of a command line. -/
structure Result where
  status : Nat
  output : Bytes
  errors : Bytes
  host : Environment

def run (host : Environment) (input : Bytes) (words : List Bytes) : Except Breakdown Result := do
  let (outcome, c) ← (execute words).run { host, input }
  match outcome with
  | .ok () => return { status := 0, output := c.output, errors := c.errors, host := c.host }
  | .error f =>
    let told : Bytes := if f.isSilent then [] else "error: " ++ f.message ++ "\n"
    return { status := f.status, output := c.output, errors := c.errors ++ told, host := c.host }

end VecLang.Cli
