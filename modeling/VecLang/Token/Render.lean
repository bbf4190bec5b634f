import VecLang.Token.Basic
import VecLang.Source.File
import VecLang.Text.Quoted
import VecLang.Json

/-!
# Lists of tokens for display
-/

namespace VecLang.Token

def upToEnd : List Token → List Token
  | [] => []
  | t :: rest => if t.kind = .eof then [t] else t :: upToEnd rest

def line (index : Array Nat) (i : Nat) (t : Token) : Bytes :=
  let place (off : Nat) : Bytes :=
    let p := LineCol.ofOffset index off
    Bytes.ofNat p.line ++ ":" ++ Bytes.ofNat p.col
  let text : Bytes := if t.text = [] then [] else " " ++ Quoted.quote t.text
  Bytes.padLeft 3 (Bytes.ofNat i) ++ ": " ++ Bytes.padRight 15 t.kind.name ++ text
    ++ " at " ++ place t.span.start ++ "-" ++ place t.span.stop ++ "\n"

def listing (f : File) (ts : List Token) : Bytes :=
  let index := f.lineIndex
  ((upToEnd ts).zipIdx.map fun (t, i) => t.line index (i + 1)).flatten

def spanObject (s : Span) : Json :=
  .obj [("File", .nat s.file), ("Start", .nat s.start), ("End", .nat s.stop)]

def toObject (t : Token) : Json :=
  let kind : List (Bytes × Json) := [("kind", .str t.kind.name)]
  let text : List (Bytes × Json) := if t.text = [] then [] else [("text", .str t.text)]
  let span : List (Bytes × Json) := [("span", spanObject t.span)]
  .obj (kind ++ text ++ span)

def document (ts : List Token) : Bytes :=
  (Json.list toObject (upToEnd ts)).indented 0 ++ "\n"

end VecLang.Token
