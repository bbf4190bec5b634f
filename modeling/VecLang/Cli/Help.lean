import VecLang.Cli.Command

/-!
# Help

What the program tells of itself and of its commands.
-/

namespace VecLang.Cli

namespace Command

def pattern : Command → Bytes
  | build => "build [flags] [file.vl]"
  | check => "check [flags] <file.vl|directory>"
  | emit => "emit [flags] file.vl"
  | format => "fmt [flags] <path> [path...]"
  | ir => "ir [flags] file.vl"
  | run => "run [flags] file.vl"
  | tokenize => "tokenize [flags] file.vl"
  | init => "init [path|name] [flags]"
  | serve => "lsp [flags]"
  | clean => "clean [flags]"
  | version => "version [flags]"
  | help => "help [command] [flags]"
  | completion => "completion [flags]"

def short : Command → Bytes
  | build => "Compile a source file to an executable"
  | check => "Type-check source files without generating code"
  | emit => "Emit NASM assembly for a source file"
  | format => "Format vecl source files"
  | ir => "Print the SSA form of a source file"
  | run => "Interpret a source file without assembling it"
  | tokenize => "Tokenize a source file"
  | init => "Initialize a new vecl project"
  | serve => "Run the vecl language server over stdio"
  | clean => "Remove cached build artifacts"
  | version => "Print version information"
  | help => "Help about any command"
  | completion => "Generate the autocompletion script for the specified shell"

def long : Command → Bytes
  | build =>
    "Build compiles a vecl source file, assembles it with nasm and links it with gcc.\n"
      ++ "Without a file argument the entry point is taken from vecl.toml."
  | check =>
    "Check parses, resolves and type-checks a vecl source file or every .vl file in a directory"
  | tokenize => "Tokenize breaks down a vecl source file into its constituent tokens"
  | init =>
    "Initialize a new vecl project by creating a manifest (vecl.toml) and an\n"
      ++ "entry point (main.vl). A missing directory is created."
  | clean => "Remove the per-user cache of emitted assembly."
  | help =>
    "Help provides help for any command in the application.\n"
      ++ "Simply type vecl help [path to command] for full details."
  | completion =>
    "Generate the autocompletion script for vecl for the specified shell.\n"
      ++ "See each sub-command's help for details on how to use the generated script."
  | c => c.short

end Command

namespace Flag

def kindName (f : Flag) : Bytes :=
  match f.default with
  | .text _ => "string"
  | .switch _ => ""
  | .number _ => "int"
  | .duration _ => "duration"

/-- The value that is taken where none is given; one that is nothing is not shown. -/
def defaultText (f : Flag) : Bytes :=
  match f.default with
  | .text s => if s = [] then [] else " (default " ++ Quoted.quote s ++ ")"
  | .switch _ => []
  | .number n => if n = 0 then [] else " (default " ++ Bytes.ofInt n ++ ")"
  | .duration n => if n = 0 then [] else " (default " ++ Bytes.ofInt (n / 1000000) ++ "ms)"

def pattern (f : Flag) : Bytes :=
  let named : Bytes := match f.letter with
    | some c => "  -" ++ [c] ++ ", --" ++ f.name
    | none => "      --" ++ f.name
  if f.kindName = [] then named else named ++ " " ++ f.kindName

def table (fs : List Flag) : Bytes :=
  let sorted := fs.mergeSort fun a b => Bytes.le a.name b.name
  let width := (sorted.map (·.pattern.length)).foldl max 0
  Bytes.join "\n" (sorted.map fun f =>
    Bytes.padRight width f.pattern ++ "   " ++ f.usage ++ f.defaultText)

end Flag

def commandTable : Bytes :=
  let sorted := Command.all.mergeSort fun a b => Bytes.le a.name b.name
  sorted.flatMap fun c => "\n  " ++ Bytes.padRight 11 c.name ++ " " ++ c.short

def programUsage : Bytes :=
  "Usage:\n  vecl [command]\n\nAvailable Commands:" ++ commandTable ++ "\n\nFlags:\n"
    ++ Flag.table (Command.localFlags none)
    ++ "\n\nUse \"vecl [command] --help\" for more information about a command.\n"

def helpText : Option Command → Bytes
  | none =>
    "vecl compiles a small typed vector expression language to x86-64 NASM assembly\n\n"
      ++ programUsage
  | some c =>
    c.long ++ "\n\nUsage:\n  vecl " ++ c.pattern ++ "\n\nFlags:\n"
      ++ Flag.table (Command.localFlags (some c)) ++ "\n\nGlobal Flags:\n"
      ++ Flag.table Command.commonFlags ++ "\n"

end VecLang.Cli
