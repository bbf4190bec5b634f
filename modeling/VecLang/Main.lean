import VecLang.Cli.Run

/-!
# The program

Reads what a command line may need from the host, runs it, and writes what came of it. All
decisions are made by `Cli.run`; here is only what has to be done in between.
-/

namespace VecLang.Main

open Host

def bytesOf (s : String) : Bytes := s.toUTF8.toList

def textOf (b : Bytes) : String := (String.fromUTF8? ⟨b.toArray⟩).getD ""

def pathOf (p : Place) : String := textOf ([Path.slash] ++ Bytes.join [Path.slash] p)

/-! ## Reading the host -/

/-- How many directories inside each other are read. -/
def depth : Nat := 16

/-- A directory with all that lead to it. -/
def withDir (fs : Files) (p : Place) : Files :=
  (List.range (p.length + 1)).foldl (fun (fs : Files) i =>
    if (fs.entry? (p.take i)).isSome then fs else Assoc.set fs (p.take i) .dir) fs

/-- Whether the content of a file that is not named on the command line can matter. -/
def matters (name : Bytes) : Bool :=
  name = Project.manifestName || Path.ext name = Project.sourceExt || Path.ext name = ".mp"

/-- Read what is at a place, and for a directory what is below it but not hidden. What cannot be
read is left out; of a file that is not `named` only what matters is read. -/
def readTree (named : Bool) : (depth : Nat) → Files → Place → IO Files
  | 0, fs, _ => return fs
  | n + 1, fs, p => do
    try
      let entries ← (← IO.FS.realPath (pathOf p)).readDir
      let names := (entries.toList.map fun e => bytesOf e.fileName).filter (!Files.isHidden ·)
      names.foldlM (fun fs name => readTree false n fs (p ++ [name])) (withDir fs p)
    catch _ =>
      try
        if named || matters (p.getLastD []) then
          return fs.add p (← IO.FS.readBinFile (pathOf p)).toList
        else return fs.add p []
      catch _ => return fs

def namedPlaces (cwd : Bytes) (words : List Bytes) : List Place :=
  let value (w : Bytes) : Bytes := match Bytes.cut 0x3d w with
    | some (_, v) => v
    | none => w
  ((words.map value).filter (· ≠ [])).map fun w => Path.elements (Path.absolute cwd w)

def manifestPlaces (here : Place) : List Place :=
  (List.range (here.length + 1)).map fun i => here.take i ++ [Project.manifestName]

/-- A variable of the host, empty when it is not set. -/
def setting (name : String) : IO Bytes := return bytesOf ((← IO.getEnv name).getD "")

/-- The host with all files that the words of a command line may need. -/
def readHost (words : List Bytes) : IO Environment := do
  let cwd := bytesOf (← IO.currentDir).toString
  let temp ← setting "TMPDIR"
  let e : Environment := {
    cwd
    tempDir := if temp = [] then "/tmp" else temp
    cacheHome := ← setting "XDG_CACHE_HOME"
    home := ← setting "HOME"
    tools := basicTools
    terminal := ← (← IO.getStdout).isTty
    now := "0001-01-01T00:00:00Z" }
  let fs := withDir (withDir [] e.here) (Path.elements e.tempDir)
  let fs ← (manifestPlaces e.here).foldlM (readTree true 1) fs
  let fs ← readTree true depth fs e.here
  let fs ← (namedPlaces cwd words).foldlM (readTree true depth) fs
  let fs ← match e.cacheDir? Cli.programName with
    | some dir => readTree true depth fs (Path.elements dir)
    | none => pure fs
  return { e with files := fs }

/-! ## Writing to the host -/

def writeChanges (before after : Files) : IO Unit := do
  for (p, e) in before do
    if (after.entry? p).isNone then
      try
        match e with
        | .file _ => IO.FS.removeFile (pathOf p)
        | .dir => IO.FS.removeDirAll (pathOf p)
      catch _ => pure ()
  for (p, e) in after do
    if before.entry? p ≠ some e then
      match e with
      | .dir => IO.FS.createDirAll (pathOf p)
      | .file content =>
        IO.FS.createDirAll (pathOf p.dropLast)
        IO.FS.writeBinFile (pathOf p) ⟨content.toArray⟩

def put (s : IO.FS.Stream) (b : Bytes) : IO Unit := do
  s.write ⟨b.toArray⟩
  s.flush

/-! ## Talking to an editor -/

/-- The header lines of the next message, with the empty line behind them. -/
partial def headerLines (input : IO.FS.Stream) (read : Bytes) : IO Bytes := do
  let line := bytesOf (← input.getLine)
  if line.all fun c => c = 0x0d || c = 0x0a then return read ++ line
  else headerLines input (read ++ line)

def nextFrame (input : IO.FS.Stream) : IO Bytes := do
  let head ← headerLines input []
  match Server.Frame.headers true (head.length + 1) [] head with
  | .done hs _ =>
    match Server.Frame.contentLength hs with
    | .ok n => return head ++ (← input.read n.toUSize).toList
    | .error _ => return head
  | _ => return head

/-- Answer messages until one ends the session or there are no more. -/
partial def talk (input output : IO.FS.Stream) (s : Server.Session) : IO Server.End := do
  let piece ← nextFrame input
  if piece.isEmpty then return s.atEnd
  match s.feed piece with
  | .error b => throw (IO.userError (textOf b.message))
  | .ok p =>
    p.sent.forM fun m => put output (Server.Frame.write m.compact)
    match p.ending with
    | some e => return e
    | none => talk input output p.session

def session? (words : List Bytes) : Option Server.Session :=
  match Cli.select words with
  | .ok (some .serve, rest) =>
    match Cli.parse (Cli.Command.flags (some .serve)) rest with
    | .ok { given, args := [] } =>
      if given.on "help" then none
      else some { server := {
        version := Cli.currentVersion.number, limit := Cli.diagnosticLimit given } }
    | _ => none
  | _ => none

end VecLang.Main

open VecLang VecLang.Main in
def main (args : List String) : IO UInt32 := do
  let words := args.map bytesOf
  let errors ← IO.getStderr
  if let some s := session? words then
    match Cli.endFailure? (← talk (← IO.getStdin) (← IO.getStdout) s) with
    | none => return 0
    | some f =>
      put errors ("error: " ++ f.message ++ "\n")
      return f.status.toUInt32
  let host ← readHost words
  match Cli.run host [] words with
  | .error b =>
    put errors ("panic: " ++ b.message ++ "\n")
    return 2
  | .ok r =>
    writeChanges host.files r.host.files
    put (← IO.getStdout) r.output
    put errors r.errors
    return r.status.toUInt32
