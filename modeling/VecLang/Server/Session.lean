import VecLang.Format
import VecLang.Server.Documents
import VecLang.Server.Frame
import VecLang.Server.Locate
import VecLang.Server.Message

/-!
# The language server

The server reads messages from an editor, answers questions about open documents, and publishes
what is wrong with them. It is a state machine: a message takes it to its next state and makes it
send messages of its own.
-/

namespace VecLang.Server

inductive End where
  /-- The input ended between two messages. -/
  | inputEnded
  | exit
  | exitWithoutShutdown
  /-- The input is not framed as messages are. -/
  | protocolError (fault : Frame.Fault)
deriving DecidableEq, Inhabited

/-- A server between two messages. -/
structure State where
  /-- The version it gives as its own. -/
  version : Bytes := []
  /-- How many diagnostics it keeps of a document. -/
  limit : Nat := Analysis.defaultLimit
  docs : Documents Analysis := []
  /-- Whether it was asked to shut down. -/
  shutdown : Bool := false

/-- What the server writes down about messages it cannot follow. -/
inductive Remark where
  | unreadable (cause : Misread)
  /-- A notice with parameters of the wrong kind. -/
  | badNotice (method : Bytes) (cause : Misread)

def Remark.line : Remark → Bytes
  | unreadable cause => "lsp: failed to parse message: " ++ cause.message ++ "\n"
  | badNotice method cause => "lsp: " ++ method ++ ": invalid params: " ++ cause.message ++ "\n"

structure Outcome where
  server : State
  /-- The messages that are sent, in order. -/
  sent : List Json := []
  /-- What is to be written down about the message. -/
  remark : Option Remark := none
  ending : Option End := none

/-! ## Messages that are sent -/

def response (id : Option Json) (result : Json) : Json :=
  .obj [("id", id.getD .null), ("jsonrpc", .lit "2.0"), ("result", result)]

/-- The answer to a request that cannot be met. -/
def refusal (id : Option Json) (code : Int) (message : Bytes) : Json :=
  .obj [("error", .obj [("code", .int code), ("message", .str message)]), ("id", id.getD .null),
    ("jsonrpc", .lit "2.0")]

def capabilities : Json :=
  .obj [("textDocumentSync", .obj [("openClose", .bool true), ("change", .int 2),
      ("save", .obj [("includeText", .bool true)])]),
    ("hoverProvider", .bool true), ("definitionProvider", .bool true),
    ("foldingRangeProvider", .bool true), ("documentFormattingProvider", .bool true)]

def serverInfo (version : Bytes) : Json :=
  let own : Members := [("version", .str version)]
  .obj (("name", .lit "vecl") :: if version.isEmpty then [] else own)

def location (uri content : Bytes) (s : Span) : Json :=
  .obj [("uri", .str uri), ("range", (Range.ofSpan content s).toJson)]

def severityNumber : Severity → Int
  | .error => 1
  | .warning => 2
  | _ => 3

def diagnosticJson (uri content : Bytes) (d : Diagnostic) : Json :=
  let related (n : Note) : Json :=
    .obj [("location", location uri content n.span), ("message", .str n.message)]
  let notes : Members := [("relatedInformation", .list related d.notes)]
  let main : Members :=
    [("range", (Range.ofSpan content d.primary).toJson),
     ("severity", .int (severityNumber d.severity)), ("code", .str d.code.id),
     ("source", .lit "vecl"), ("message", .str d.message)]
  .obj (main ++ if d.notes.isEmpty then [] else notes)

def publication (uri : Bytes) (version : Int) (diagnostics : List Json) : Json :=
  let number : Members := if version = 0 then [] else [("version", .int version)]
  let address : Members := [("uri", .str uri)]
  let found : Members := [("diagnostics", .arr diagnostics)]
  .obj [("jsonrpc", .lit "2.0"), ("method", .lit "textDocument/publishDiagnostics"),
    ("params", .obj (address ++ number ++ found))]

/-! ## Folding -/

def foldOf (content : Bytes) (s : Span) : List Json :=
  let first := (Position.ofOffset content s.start).line
  let last := (Position.ofOffset content s.stop).line - 1
  if first < last then
    [.obj [("startLine", .int first), ("endLine", .int last), ("kind", .lit "region")]]
  else []

mutual

def stmtFolds (content : Bytes) : Syntax.Stmt → List Json
  | .ifElse s _ body other =>
    foldOf content s ++ stmtsFolds content body ++ stmtsFolds content other
  | .whileDo s _ body => foldOf content s ++ stmtsFolds content body
  | _ => []

def stmtsFolds (content : Bytes) : List Syntax.Stmt → List Json
  | [] => []
  | s :: ss => stmtFolds content s ++ stmtsFolds content ss

end

/-- The folds of a file: its functions, and the choices and loops in them. -/
def folds (content : Bytes) (m : Syntax.Module) : List Json :=
  m.items.flatMap fun
    | .fn d => foldOf content d.span ++ stmtsFolds content d.body
    | .const _ => []

namespace State

/-! ## Analyses -/

/-- What is known of an open document, with its text and version. A document that was not analysed
since its text was set is analysed now. -/
def analyzed (s : State) (uri : Bytes) :
    Except Breakdown (State × Option (Bytes × Int × Analysis)) := do
  let text := ((Assoc.get? s.docs uri).map (·.text)).getD []
  match s.docs.begin uri with
  | .absent => return (s, none)
  | .known a version => return (s, some (text, version, a))
  | .fresh t =>
    let a ← analyze .typing t.text
    return ({ s with docs := s.docs.finish t a }, some (t.text, t.version, a))

def publish (s : State) (uri : Bytes) : Except Breakdown (State × List Json) := do
  match ← s.analyzed uri with
  | (s, none) => return (s, [])
  | (s, some (text, version, a)) =>
    return (s, [publication uri version ((a.diagnostics s.limit).map (diagnosticJson uri text))])

/-- Publish what is wrong with every document about which the editor is still to be told. -/
def publishPending (s : State) : Except Breakdown (State × List Json) := do
  let (s, sent) ← s.docs.pending.foldlM (fun (s, sent) uri => do
    let (s, more) ← s.publish uri
    return (s, sent ++ more)) (s, [])
  return ({ s with docs := s.docs.settled }, sent)

/-! ## Questions -/

def codeBlock (text : Bytes) : Json :=
  .obj [("kind", .lit "markdown"), ("value", .str ("```vecl\n" ++ text ++ "\n```"))]

def answerAt (uri text : Bytes) (a : Analysis) (definitionOnly : Bool) (p : Position) : Json :=
  let off := p.offset text
  if definitionOnly then
    match definition a off with
    | some span => location uri text span
    | none => .null
  else
    match locate a off with
    | none => .null
    | some t =>
      match describe a t with
      | some d => .obj [("contents", codeBlock d), ("range", (Range.ofSpan text t.span).toJson)]
      | none => .null

def formatEdits (o : Format.Options) (text : Bytes) : Except Breakdown (List Json) :=
  match Format.format o text with
  | .error (.broken b) => .error b
  | .error .badSyntax => .ok []
  | .ok formatted =>
    if formatted = text then .ok []
    else .ok [.obj [("range", (Range.whole text).toJson), ("newText", .str formatted)]]

def answer (s : State) : Question → Except Breakdown (State × Json)
  | .hover p => do
    let (s, known) ← s.analyzed p.uri
    return (s, (known.map fun (text, _, a) => answerAt p.uri text a false p.position).getD .null)
  | .definition p => do
    let (s, known) ← s.analyzed p.uri
    return (s, (known.map fun (text, _, a) => answerAt p.uri text a true p.position).getD .null)
  | .folding uri => do
    let (s, known) ← s.analyzed uri
    return (s, .arr ((known.map fun (text, _, a) => folds text a.parsed.module).getD []))
  | .formatting uri tabSize insertSpaces => do
    match Assoc.get? s.docs uri with
    | none => return (s, .arr [])
    | some d =>
      let width := if tabSize = 0 then 4 else tabSize
      return (s, .arr (← formatEdits { width, tabs := !insertSpaces } d.text))

/-! ## Messages -/

def notice (s : State) : Notice → Outcome
  | .opened uri version text => { server := { s with docs := s.docs.opened uri version text } }
  | .changed uri version changes =>
    { server := { s with docs := s.docs.changed uri version changes } }
  | .saved uri text => { server := { s with docs := s.docs.saved uri text } }
  | .closed uri =>
    if (Assoc.get? s.docs uri).isSome then
      { server := { s with docs := s.docs.closed uri }, sent := [publication uri 0 []] }
    else { server := s }

def handle (s : State) (m : Message) : Except Breakdown Outcome :=
  match Request.ofMessage m with
  | .greet =>
    let result : Json :=
      .obj [("capabilities", capabilities), ("serverInfo", serverInfo s.version)]
    .ok { server := s, sent := [response m.id result] }
  | .noted => .ok { server := s }
  | .shutdown =>
    .ok { server := { s with shutdown := true, docs := s.docs.settled }
          sent := [response m.id .null] }
  | .exit =>
    .ok { server := s, ending := some (if s.shutdown then .exit else .exitWithoutShutdown) }
  | .tell (.ok n) => .ok (s.notice n)
  | .tell (.error cause) => .ok { server := s, remark := some (.badNotice m.method cause) }
  | .ask (.ok q) =>
    (s.answer q).map fun (s, result) => { server := s, sent := [response m.id result] }
  | .ask (.error _) => .ok { server := s, sent := [refusal m.id (-32602) "invalid params"] }
  | .unknown =>
    .ok { server := s
          sent := if m.id.isSome then [refusal m.id (-32601) "method not found"] else [] }

def handleText (s : State) (payload : Bytes) : Except Breakdown Outcome :=
  match Message.read payload with
  | .ok m => if m.method.isEmpty then .ok { server := s } else s.handle m
  | .error cause => .ok { server := s, remark := some (.unreadable cause) }

end State

/-! ## Sessions -/

structure Session where
  server : State := {}
  input : Bytes := []

namespace Session

structure Progress where
  session : Session
  sent : List Json := []
  remarks : List Remark := []
  ending : Option End := none

/-- Take a message to be handled with the given outcome, `rest` being the input behind it. -/
def Progress.follow (p : Progress) (o : Outcome) (rest : Bytes) : Progress :=
  { session := ⟨o.server, rest⟩, sent := p.sent ++ o.sent, remarks := p.remarks ++ o.remark.toList
    ending := o.ending }

/-- Handle the messages of the input until it ends or the session does. Each frame takes at least
one byte, so as many turns as there are bytes are enough. -/
def drain : (fuel : Nat) → Progress → Except Breakdown Progress
  | 0, p => .ok p
  | fuel + 1, p =>
    match Frame.read false p.session.input with
    | .more => .ok p
    | .bad fault => .ok { p with ending := some (.protocolError fault) }
    | .oversized => .error .outOfRange
    | .message payload rest => do
      let p := p.follow (← p.session.server.handleText payload) rest
      if p.ending.isSome then return p else drain fuel p

/-- Take in more input, handle what can be handled, and publish what is pending. -/
def feed (c : Session) (bytes : Bytes) : Except Breakdown Progress := do
  let input := c.input ++ bytes
  let p ← drain (input.length + 1) { session := { c with input } }
  if p.ending.isSome then return p
  let (server, published) ← p.session.server.publishPending
  return { p with session := { p.session with server }, sent := p.sent ++ published }

def atEnd (c : Session) : End :=
  match Frame.read true c.input with
  | .bad fault => .protocolError fault
  | _ => .inputEnded

/-- Run a session on pieces of input. The result lists what was sent in answer to each piece, and
behind the end of the input what was sent since, if the session did not end with it. -/
def run (c : Session) : List Bytes → Except Breakdown (List (List Json) × End)
  | [] => .ok (match c.atEnd with
    | .inputEnded => ([], .inputEnded)
    | e => ([[]], e))
  | piece :: rest => do
    let p ← c.feed piece
    match p.ending with
    | some e => return ([p.sent], e)
    | none =>
      let (replies, e) ← p.session.run rest
      return (p.sent :: replies, e)

/-- Run a session on an input that is there as a whole, before anything becomes due to be
published. -/
def serve (c : Session) (input : Bytes) : Except Breakdown (Progress × End) := do
  let p ← drain (input.length + 1) { session := { c with input } }
  return (p, p.ending.getD p.session.atEnd)

end Session

end VecLang.Server
