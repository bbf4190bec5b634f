import VecLang.Cli.Flag
import VecLang.Text.Unicode.Case

/-!
# Commands

The commands of the compiler, the flags and arguments each of them takes, and how the command is
found among the words of a command line.
-/

namespace VecLang.Cli

def programName : Bytes := "vecl"

inductive Command where
  | build
  | check
  | emit
  | format
  | ir
  | run
  | tokenize
  | init
  | serve
  | clean
  | version
  | help
  | completion
deriving DecidableEq, Inhabited

inductive Arity where
  | none
  | exactly (n : Nat)
  | atMost (n : Nat)
  | atLeast (n : Nat)
  | any
deriving DecidableEq, Inhabited

namespace Command

def all : List Command :=
  [build, check, emit, format, ir, run, tokenize, init, serve, clean, version, help, completion]

def name : Command → Bytes
  | build => "build"
  | check => "check"
  | emit => "emit"
  | format => "fmt"
  | ir => "ir"
  | run => "run"
  | tokenize => "tokenize"
  | init => "init"
  | serve => "lsp"
  | clean => "clean"
  | version => "version"
  | help => "help"
  | completion => "completion"

def ofName? (n : Bytes) : Option Command := all.find? (·.name = n)

def path (c : Command) : Bytes := programName ++ " " ++ c.name

def arity : Command → Arity
  | build | init => .atMost 1
  | check | emit | ir | run | tokenize => .exactly 1
  | format => .atLeast 1
  | serve | clean | version | completion => .none
  | help => .any

def textFlag (name default usage : Bytes) : Flag := { name, default := .text default, usage }

def switchFlag (name usage : Bytes) : Flag := { name, default := .switch false, usage }

def numberFlag (name : Bytes) (default : Int) (usage : Bytes) : Flag :=
  { name, default := .number default, usage }

def outputFlag (usage : Bytes) : Flag :=
  { name := "output", letter := some 0x6f, default := .text [], usage }

def ownFlags : Command → List Flag
  | build =>
    [outputFlag "output executable path",
     textFlag "ui" "auto" "progress view (auto|on|off)",
     switchFlag "keep-tmp" "keep the temporary build directory",
     switchFlag "print-commands" "print assembler and linker commands",
     numberFlag "jobs" 0 "parallel function emission (0=auto)",
     switchFlag "no-cache" "bypass the assembly cache"]
  | check =>
    [textFlag "format" "pretty" "output format (pretty|short|json)",
     numberFlag "jobs" 0 "max parallel workers for directory processing (0=auto)"]
  | emit =>
    [outputFlag "write assembly to file instead of stdout",
     numberFlag "jobs" 0 "parallel function emission (0=auto)"]
  | format =>
    [switchFlag "check" "list files that need formatting without rewriting them",
     switchFlag "stdout" "print formatted code to stdout instead of rewriting files",
     textFlag "format" "text" "report format (text|json)",
     switchFlag "tabs" "indent with tabs",
     numberFlag "indent" 4 "indent width in spaces"]
  | ir => [switchFlag "types" "annotate values with their types"]
  | run => [numberFlag "max-steps" 0 "abort after this many interpreter steps (0=unlimited)"]
  | tokenize => [textFlag "format" "pretty" "output format (pretty|json)"]
  | serve =>
    [{ name := "debounce", default := .duration 300000000,
       usage := "delay before re-analyzing an edited document" },
     switchFlag "log" "write server log to stderr"]
  | init | clean | version | help | completion => []

def commonFlags : List Flag :=
  [textFlag "color" "auto" "colorize output (auto|on|off)",
   switchFlag "quiet" "suppress non-essential output",
   switchFlag "timings" "show timing information",
   numberFlag "max-diagnostics" 100 "maximum number of diagnostics to show",
   textFlag "trace" "" "write trace events to file (- for stderr)",
   textFlag "trace-level" "off" "trace level (off|error|phase|detail|debug)",
   textFlag "trace-mode" "stream" "trace storage mode (stream|ring)",
   textFlag "cpu-profile" "" "write a CPU profile to file",
   textFlag "mem-profile" "" "write a heap profile to file on exit",
   textFlag "runtime-trace" "" "write a Go runtime trace to file"]

def helpFlag (name : Bytes) : Flag :=
  { name := "help", letter := some 0x68, default := .switch false, usage := "help for " ++ name }

def versionFlag : Flag :=
  { name := "version", letter := some 0x76, default := .switch false,
    usage := "version for " ++ programName }

def localFlags : Option Command → List Flag
  | some c => c.ownFlags ++ [helpFlag c.name]
  | none => commonFlags ++ [helpFlag programName, versionFlag]

def flags (c : Option Command) : List Flag :=
  localFlags c ++ if c.isSome then commonFlags else []

end Command

/-! ## Errors -/

/-- Why a command line makes no sense. -/
inductive UsageError where
  /-- No command has that name, but some have a similar one. -/
  | unknownCommand (name : Bytes) (similar : List Bytes)
  /-- A command that takes no arguments has one. -/
  | unwanted (command : Command) (arg : Bytes)
  | notExactly (n received : Nat)
  | tooMany (n received : Nat)
  | tooFew (n received : Nat)
  | flag (e : FlagError)
deriving DecidableEq, Inhabited

def UsageError.message : UsageError → Bytes
  | unknownCommand name similar =>
    let line (s : Bytes) : Bytes := "\t" ++ s ++ "\n"
    let hint : Bytes := if similar.isEmpty then [] else "\n\nDid you mean this?\n"
    let hint := hint ++ similar.flatMap line
    "unknown command " ++ Quoted.quote name ++ " for " ++ Quoted.quote programName ++ hint
  | unwanted c arg => "unknown command " ++ Quoted.quote arg ++ " for " ++ Quoted.quote c.path
  | notExactly n received =>
    "accepts " ++ Bytes.ofNat n ++ " arg(s), received " ++ Bytes.ofNat received
  | tooMany n received =>
    "accepts at most " ++ Bytes.ofNat n ++ " arg(s), received " ++ Bytes.ofNat received
  | tooFew n received =>
    "requires at least " ++ Bytes.ofNat n ++ " arg(s), only received " ++ Bytes.ofNat received
  | flag e => e.message

def Command.checkArgs (c : Command) (args : List Bytes) : Except UsageError Unit :=
  let n := args.length
  match c.arity, args with
  | .none, a :: _ => .error (.unwanted c a)
  | .none, [] | .any, _ => .ok ()
  | .exactly k, _ => if n = k then .ok () else .error (.notExactly k n)
  | .atMost k, _ => if n ≤ k then .ok () else .error (.tooMany k n)
  | .atLeast k, _ => if k ≤ n then .ok () else .error (.tooFew k n)

/-! ## Similar names -/

/-- The next row of the table of distances: `left` is the entry to the left, `row` the row above
from its left neighbour on. -/
def distanceRow (c : UInt8) (left : Nat) : Bytes → List Nat → List Nat
  | d :: rest, diag :: up :: row =>
    let here := if c = d then diag else min (min left up) diag + 1
    here :: distanceRow c here rest (up :: row)
  | _, _ => []

/-- How many bytes have to be put in, left out or changed to get from one text to another. -/
def distance (a b : Bytes) : Nat :=
  let first := List.range (b.length + 1)
  let last := a.foldl (fun (row : List Nat) c =>
    let left := row.headD 0 + 1
    left :: distanceRow c left b row) first
  last.getLastD 0

def similarNames (typed : Bytes) : List Bytes :=
  let t := Unicode.lower typed
  ((Command.all.filter (· ≠ .help)).map (·.name)).filter fun n =>
    distance t n ≤ 2 || t.isPrefixOf n

/-! ## Finding the command -/

/-- Whether the word behind a word is its value: it is a flag without an equals sign that is no
known switch. -/
def takesNext (flags : List Flag) (word : Bytes) : Bool :=
  match word with
  | 0x2d :: 0x2d :: name =>
    !word.contains 0x3d && !((byName? flags name).map (·.isSwitch)).getD false
  | [0x2d, c] => c ≠ 0x3d && !((byLetter? flags c).map (·.isSwitch)).getD false
  | _ => false

def plainWords (flags : List Flag) : List Bytes → List Bytes
  | [] => []
  | w :: rest =>
    if w = "--" then []
    else if takesNext flags w then
      match rest with
      | _ :: x :: more => plainWords flags (x :: more)
      | _ => []
    else if w ≠ [] && w.head? ≠ some 0x2d then w :: plainWords flags rest
    else plainWords flags rest

def withoutWord (flags : List Flag) (x : Bytes) : List Bytes → List Bytes
  | [] => []
  | w :: rest =>
    if w = "--" then w :: rest
    else if takesNext flags w then
      match rest with
      | v :: more => w :: v :: withoutWord flags x more
      | [] => [w]
    else if w = x then rest
    else w :: withoutWord flags x rest

def select (words : List Bytes) : Except UsageError (Option Command × List Bytes) :=
  match plainWords Command.commonFlags words with
  | [] => .ok (none, words)
  | w :: _ =>
    match Command.ofName? w with
    | some c => .ok (some c, withoutWord Command.commonFlags w words)
    | none => .error (.unknownCommand w (similarNames w))

end VecLang.Cli
