import VecLang.Json.Read
import VecLang.Server.Field
import VecLang.Server.Position

/-!
# Messages of an editor

What an editor asks or tells, read from JSON. A value of the wrong kind spoils the whole message.
-/

namespace VecLang.Server

/-- Why a text or value does not say what it should. -/
inductive Misread where
  /-- It is no JSON, or nothing at all. -/
  | malformed (fault : Json.Fault)
  | mismatch (m : Mismatch)

def Misread.message : Misread → Bytes
  | malformed f => f.message
  | mismatch m => m.message

def membersOf (shape : Shape) (j : Json) : Except Misread Members :=
  match shape.mismatch? none j with
  | some m => .error (.mismatch m)
  | none => .ok (Field.members [j])

/-- A message: a method with its parameters. A request has an identity, a notification none. -/
structure Message where
  id : Option Json
  method : Bytes
  params : Option Json

namespace Message

def shape : Shape :=
  .record "rpcMessage"
    [("jsonrpc", .text), ("id", .any), ("method", .text), ("params", .any), ("result", .any),
     ("error", .record "rpcError" [("code", .int), ("message", .text)])]

def read (payload : Bytes) : Except Misread Message :=
  match Json.parse payload with
  | .error f => .error (.malformed f)
  | .ok j => (membersOf shape j).map fun ms =>
    { id := Field.raw? ms "id", method := Field.text ms "method", params := Field.raw? ms "params" }

end Message

/-- Where a question is asked: a place in a document. -/
structure Place where
  uri : Bytes
  position : Position

inductive Notice where
  /-- A document is open and has this text. -/
  | opened (uri : Bytes) (version : Int) (text : Bytes)
  | changed (uri : Bytes) (version : Int) (changes : List Change)
  /-- A document was saved, perhaps with its text. -/
  | saved (uri : Bytes) (text : Option Bytes)
  | closed (uri : Bytes)

inductive Question where
  | hover (place : Place)
  | definition (place : Place)
  | folding (uri : Bytes)
  | formatting (uri : Bytes) (tabSize : Int) (insertSpaces : Bool)

namespace Params

/-! ## Shapes -/

def documentShape : Bytes × Shape :=
  ("textDocument", .record "textDocumentIdentifier" [("uri", .text)])

def positionShape (name : Bytes) : Bytes × Shape :=
  (name, .record "position" [("line", .int), ("character", .int)])

def openedShape : Shape :=
  .record "didOpenTextDocumentParams"
    [("textDocument", .record "textDocumentItem"
      [("uri", .text), ("languageId", .text), ("version", .int), ("text", .text)])]

def changeShape : Shape :=
  .record "textDocumentContentChangeEvent"
    [("range", .record "lspRange" [positionShape "start", positionShape "end"]), ("text", .text)]

def changedShape : Shape :=
  .record "didChangeTextDocumentParams"
    [("textDocument", .record "versionedTextDocumentIdentifier"
      [("uri", .text), ("version", .int)]),
     ("contentChanges", .list changeShape)]

def savedShape : Shape := .record "didSaveTextDocumentParams" [documentShape, ("text", .text)]

def closedShape : Shape := .record "didCloseTextDocumentParams" [documentShape]

def placeShape : Shape :=
  .record "textDocumentPositionParams" [documentShape, positionShape "position"]

def foldingShape : Shape := .record "documentParams" [documentShape]

def formattingShape : Shape :=
  .record "documentFormattingParams"
    [documentShape,
     ("options", .record "formattingOptions" [("tabSize", .int), ("insertSpaces", .flag)])]

/-! ## Reading -/

/-- The members of parameters; without parameters there is nothing to read. -/
def members (shape : Shape) : Option Json → Except Misread Members
  | none => .error (.malformed .unexpectedEnd)
  | some j => membersOf shape j

def position (ms : Members) (name : Bytes) : Position :=
  let p := Field.object ms name
  ⟨Field.int p "line", Field.int p "character"⟩

def uri (ms : Members) : Bytes := Field.text (Field.object ms "textDocument") "uri"

def version (ms : Members) : Int := Field.int (Field.object ms "textDocument") "version"

def place (ms : Members) : Place := ⟨uri ms, position ms "position"⟩

def change (ms : Members) : Change :=
  ⟨(Field.optObject ms "range").map fun r => ⟨position r "start", position r "end"⟩,
    Field.text ms "text"⟩

def opened (ms : Members) : Notice :=
  .opened (uri ms) (version ms) (Field.text (Field.object ms "textDocument") "text")

def changed (ms : Members) : Notice :=
  .changed (uri ms) (version ms)
    ((Field.slots ms "contentChanges").map fun js => change (Field.members js))

def formatting (ms : Members) : Question :=
  let o := Field.object ms "options"
  .formatting (uri ms) (Field.int o "tabSize") (Field.flag o "insertSpaces")

end Params

inductive Request where
  | greet
  /-- Something the server takes note of without doing anything. -/
  | noted
  | shutdown
  | exit
  /-- A notice, or what is wrong with its parameters. -/
  | tell (notice : Except Misread Notice)
  /-- A question, or what is wrong with its parameters. -/
  | ask (question : Except Misread Question)
  | unknown

namespace Request

def methods (params : Option Json) : List (Bytes × Request) :=
  let tell (shape : Shape) (f : Members → Notice) : Request :=
    .tell ((Params.members shape params).map f)
  let ask (shape : Shape) (f : Members → Question) : Request :=
    .ask ((Params.members shape params).map f)
  [("initialize", .greet), ("initialized", .noted), ("$/cancelRequest", .noted),
   ("$/setTrace", .noted), ("shutdown", .shutdown), ("exit", .exit),
   ("textDocument/didOpen", tell Params.openedShape Params.opened),
   ("textDocument/didChange", tell Params.changedShape Params.changed),
   ("textDocument/didSave", tell Params.savedShape fun ms =>
      .saved (Params.uri ms) (Field.optText ms "text")),
   ("textDocument/didClose", tell Params.closedShape fun ms => .closed (Params.uri ms)),
   ("textDocument/hover", ask Params.placeShape fun ms => .hover (Params.place ms)),
   ("textDocument/definition", ask Params.placeShape fun ms => .definition (Params.place ms)),
   ("textDocument/foldingRange", ask Params.foldingShape fun ms => .folding (Params.uri ms)),
   ("textDocument/formatting", ask Params.formattingShape Params.formatting)]

def ofMessage (m : Message) : Request := ((methods m.params).lookup m.method).getD .unknown

end Request

end VecLang.Server
