import VecLang.Host.Environment
import VecLang.Text.Blank
import VecLang.Text.Quoted

/-!
# Tools

How a tool is found and run, and three tools that every host has: one that succeeds, one that
fails, and a shell that runs scripts of simple commands.
-/

namespace VecLang.Host

namespace Environment

def ToolError.message : ToolError → Bytes
  | unknown name =>
    name ++ " not found in PATH: exec: " ++ Quoted.quote name
      ++ ": executable file not found in $PATH"
  | unreachable name cause =>
    name ++ " not found in PATH: exec: " ++ Quoted.quote name ++ ": " ++ cause
  | failed status => "exit status " ++ Bytes.ofNat status
  | complained name text => name ++ ": " ++ text

def findTool (e : Environment) (name : Bytes) : Except ToolError Tool :=
  if name.contains Path.slash then
    match e.files.stat e.here name with
    | .error err => .error (.unreachable name err.message)
    | .ok .dir => .error (.unreachable name "is a directory")
    | .ok (.file _) => .error (.unreachable name "permission denied")
  else match Assoc.get? e.tools name with
    | some t => .ok t
    | none => .error (.unknown name)

def runTool (e : Environment) (name : Bytes) (args : List Bytes) : Except ToolError Unit := do
  let tool ← e.findTool name
  let r := tool e.files e.here args
  let text := Blank.trim r.errors
  if r.status = 0 then return ()
  else if text.isEmpty then throw (.failed r.status)
  else throw (.complained name text)

end Environment

/-! ## Scripts -/

namespace Shell

def words (line : Bytes) : List Bytes :=
  (Bytes.splitOn 0x20 (line.map fun c => if c = 0x09 then 0x20 else c)).filter (· ≠ [])

/-- A word without quotes around it. -/
def unquote (w : Bytes) : Bytes := w.filter fun c => c ≠ 0x22 && c ≠ 0x27

def isRedirect (w : Bytes) : Bool := w = ">&2" || w = "1>&2"

def command (script : Bytes) (number : Nat) (r : ToolRun) (line : Bytes) : ToolRun × Bool :=
  match words line with
  | [] => (r, false)
  | name :: args =>
    if name.head? = some 0x23 then (r, false)
    else if name = "exit" then
      ({ r with status := ((args.head?.bind Bytes.toNat?).getD r.status) % 256 }, true)
    else if name = "echo" then
      let text := Bytes.join " " ((args.filter (!isRedirect ·)).map unquote)
      let errors := if args.any isRedirect then r.errors ++ text ++ "\n" else r.errors
      ({ status := 0, errors }, false)
    else if name = "true" || name = ":" then ({ r with status := 0 }, false)
    else if name = "false" then ({ r with status := 1 }, false)
    else
      let complaint := script ++ ": " ++ Bytes.ofNat number ++ ": " ++ name ++ ": not found\n"
      ({ status := 127, errors := r.errors ++ complaint }, false)

def lines (script : Bytes) (number : Nat) (r : ToolRun) : List Bytes → ToolRun
  | [] => r
  | l :: rest =>
    match command script number r l with
    | (r, true) => r
    | (r, false) => lines script (number + 1) r rest

/-- The shell: options come first, and the first other argument is the script. -/
def run : Tool := fun fs here args =>
  match args.dropWhile fun a => a.head? = some 0x2d with
  | [] => { status := 0 }
  | script :: _ =>
    match fs.read here script with
    | .ok text => lines script 1 { status := 0 } (Bytes.splitOn 0x0a text)
    | .error _ => { status := 2, errors := "sh: 0: cannot open " ++ script ++ ": No such file\n" }

end Shell

def basicTools : Assoc Bytes Tool :=
  [("true", fun _ _ _ => { status := 0 }), ("false", fun _ _ _ => { status := 1 }),
   ("sh", Shell.run)]

end VecLang.Host
