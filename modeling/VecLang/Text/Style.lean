import VecLang.Text.Bytes

/-!
# Colours of terminal text
-/

namespace VecLang

inductive Color where
  | red
  | green
  | yellow
  | blue
  | cyan
deriving DecidableEq, Inhabited

def Color.code : Color → Bytes
  | red => "31"
  | green => "32"
  | yellow => "33"
  | blue => "34"
  | cyan => "36"

structure Style where
  color : Option Color := none
  bold : Bool := false
deriving DecidableEq, Inhabited

namespace Style

def escape (codes : List Bytes) : Bytes := "\x1b[" ++ Bytes.join ";" codes ++ "m"

def opening (s : Style) : List Bytes :=
  (s.color.map Color.code).toList ++ if s.bold then [("1" : Bytes)] else []

/-- The codes that turn the style off again. -/
def closing (s : Style) : List Bytes :=
  (s.color.map fun _ => ("0" : Bytes)).toList ++ if s.bold then [("22" : Bytes)] else []

def paint (s : Style) (enabled : Bool) (text : Bytes) : Bytes :=
  if enabled then escape s.opening ++ text ++ escape s.closing else text

end Style

end VecLang
