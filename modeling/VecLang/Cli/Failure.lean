import VecLang.Build.Compile
import VecLang.Cli.Command
import VecLang.Project.Manifest
import VecLang.Server.Session

/-!
# Failures of commands

Why a command did not do its work, what is said of it, and the status that the program ends with:
one for a source that is not as it should be, that of a program that was run, and two for all
else.
-/

namespace VecLang.Cli

open Host

inductive Failure where
  | usage (e : UsageError)
  /-- The file of a profile cannot be made. -/
  | profile (what : Bytes) (cause : PathError)
  | traceLevel (value : Bytes)
  | traceMode (value : Bytes)
  | traceOutput (cause : PathError)
  | color (value : Bytes)
  | progressView (value : Bytes)
  /-- No such format for diagnostics. -/
  | diagnosticFormat (value : Bytes)
  /-- No such format for tokens. -/
  | tokenFormat (value : Bytes)
  /-- No such format for a report on formatted files. -/
  | reportFormat (value : Bytes)
  | checkTarget (path : Bytes) (cause : PathError)
  | noSources (path : Bytes)
  | build (e : Build.BuildError)
  /-- A file cannot be read for its tokens. -/
  | tokens (e : Build.BuildError)
  | writeOutput (path : Bytes) (cause : PathError)
  | stdoutAndCheck
  | stdoutNotText
  | formatTarget (cause : PathError)
  | nothingToFormat
  /-- Some files could not be formatted. -/
  | formatting
  /-- Some files are not formatted. -/
  | unformatted
  | makeDirectory (path : Bytes) (cause : PathError)
  | alreadyInitialized (manifest : Bytes)
  | writeManifest (cause : PathError)
  | writeMain (cause : PathError)
  | noManifest
  | manifest (e : Project.ManifestError)
  | mainFile (e : Project.Manifest.MainError)
  | openCache (cause : Bytes)
  | trap (t : Machine.Trap)
  /-- A program that was run ended with a status of its own. -/
  | exited (code : Nat)
  | exitWithoutShutdown
  | frame (f : Server.Frame.Fault)

namespace Failure

def message : Failure → Bytes
  | usage e => e.message
  | profile what e => what ++ ": " ++ e.message
  | traceLevel v => "invalid trace level: " ++ Trace.Level.unknown v
  | traceMode v => "invalid trace mode: " ++ Trace.Mode.unknown v
  | traceOutput e => "failed to create tracer: failed to open trace output: " ++ e.message
  | color v => "invalid --color value " ++ Quoted.quote v ++ " (expected auto|on|off)"
  | progressView v => "invalid --ui value " ++ Quoted.quote v ++ " (expected auto|on|off)"
  | diagnosticFormat v => "unknown format: " ++ v ++ " (expected pretty|short|json)"
  | tokenFormat v => "unknown format: " ++ v
  | reportFormat v => "fmt: unsupported output format " ++ Quoted.quote v
  | checkTarget p e => "failed to stat " ++ p ++ ": " ++ e.message
  | noSources p => "no source files in " ++ p
  | build e => e.message
  | tokens e => "tokenization failed: " ++ e.message
  | writeOutput p e => "failed to write " ++ p ++ ": " ++ e.message
  | stdoutAndCheck => "fmt: --stdout cannot be used with --check"
  | stdoutNotText => "fmt: --stdout is only supported with text output"
  | formatTarget e => e.message
  | nothingToFormat => "format: no source files found"
  | formatting => "fmt: failed to format some files"
  | unformatted => "fmt: formatting changes required"
  | makeDirectory p e => "failed to create directory " ++ Quoted.quote p ++ ": " ++ e.message
  | alreadyInitialized m => "project already initialized: " ++ m ++ " exists"
  | writeManifest e => "failed to write manifest: " ++ e.message
  | writeMain e => "failed to write main" ++ Project.sourceExt ++ ": " ++ e.message
  | noManifest =>
    "no " ++ Project.manifestName ++ " found; pass a source file or run `vecl init`"
  | manifest e => e.message
  | mainFile e => e.message
  | openCache cause => "failed to open cache: " ++ cause
  | trap t => t.summary
  | exited n => "program exited with status " ++ Bytes.ofNat n
  | exitWithoutShutdown => "lsp exit without shutdown"
  | frame f => f.message

def isSilent : Failure → Bool
  | build .diagnostics | unformatted | exited _ => true
  | _ => false

def status : Failure → Nat
  | exited n => n
  | build .diagnostics | unformatted => 1
  | _ => 2

end Failure

end VecLang.Cli
