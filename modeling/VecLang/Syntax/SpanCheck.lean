import VecLang.Syntax.Tree
import VecLang.Text.Quoted

/-!
# Spans of declarations

A check that the spans of a tree make sense: the span of the file lies within the content, and
those of its declarations lie within it, in order and without overlap.
-/

namespace VecLang.Syntax

inductive SpanFault where
  /-- There is no tree. -/
  | noFile
  | emptyFile (span : Span)
  | otherFile (got want : Nat)
  | beyondContent (stop length : Nat)
  | emptyItem (name : Bytes)
  | itemOfOtherFile (got want : Nat)
  | itemOutside (item file : Span)
  | overlap (name : Bytes)
deriving DecidableEq

def SpanFault.message : SpanFault → Bytes
  | noFile => "nil file"
  | emptyFile s => "file span is empty: " ++ s.render
  | otherFile got want =>
    "file span points to different file id: got=" ++ Bytes.ofNat got ++ " want="
      ++ Bytes.ofNat want
  | beyondContent stop length =>
    "file span end beyond content: " ++ Bytes.ofNat stop ++ " > " ++ Bytes.ofNat length
  | emptyItem name => "empty span for item " ++ Quoted.quote name
  | itemOfOtherFile got want =>
    "item span file mismatch: got=" ++ Bytes.ofNat got ++ " want=" ++ Bytes.ofNat want
  | itemOutside item file =>
    "item span " ++ item.render ++ " is outside file span " ++ file.render
  | overlap name => "item " ++ Quoted.quote name ++ " overlaps its predecessor"

def itemSpanFault? (file : Nat) (whole : Span) : (prev : Nat) → List (Bytes × Span) →
    Option SpanFault
  | _, [] => none
  | prev, (name, s) :: rest =>
    if s.stop ≤ s.start then some (.emptyItem name)
    else if s.file ≠ file then some (.itemOfOtherFile s.file file)
    else if s.start < whole.start || whole.stop < s.stop then some (.itemOutside s whole)
    else if s.start < prev then some (.overlap name)
    else itemSpanFault? file whole s.stop rest

def spanFault? (length file : Nat) (whole : Span) (items : List (Bytes × Span)) :
    Option SpanFault :=
  if whole.stop ≤ whole.start then some (.emptyFile whole)
  else if whole.file ≠ file then some (.otherFile whole.file file)
  else if length < whole.stop then some (.beyondContent whole.stop length)
  else itemSpanFault? file whole 0 items

def Module.spanFault? (m : Module) (length file : Nat) : Option SpanFault :=
  Syntax.spanFault? length file m.span (m.items.map fun i => (i.name, i.span))

end VecLang.Syntax
