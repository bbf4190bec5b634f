import VecLang.Source.File
import VecLang.Syntax.Parser
import VecLang.Syntax.Printer
import VecLang.Breakdown

/-!
# Formatting of source texts

A formatted text has every declaration in the printer's form and one blank line between two of
them. Comments between declarations are kept, and a declaration with a comment inside is copied
as it is.
-/

namespace VecLang.Format

open Syntax

def hasComment (b : Bytes) : Bool := Bytes.hasInfix "//" b || Bytes.hasInfix "/*" b

def isGapBlank (c : UInt8) : Bool := c = 0x20 || c = 0x09 || c = 0x0a

def lineEnds (b : Bytes) : Nat := b.count newlineByte

def breaks (blankLine : Bool) : Bytes := if blankLine then "\n\n" else "\n"

/-- The text between two declarations, or around the first and the last. Without a comment it is
one blank line. A comment stays on its line, or gets the line breaks it had, at most two. -/
def gapText (first beforeItem : Bool) (gap : Bytes) : Bytes :=
  if !hasComment gap then if !first && beforeItem then breaks true else []
  else
    let lead := lineEnds (gap.takeWhile isGapBlank)
    let trail := lineEnds (gap.reverse.takeWhile isGapBlank)
    let before : Bytes :=
      if first then "" else if lead = 0 then " " else breaks (decide (lead ≥ 2))
    let after : Bytes := if beforeItem then breaks (decide (trail ≥ 2)) else ""
    before ++ Bytes.trim isGapBlank gap ++ after

def itemText (ind : Indent) (content : Bytes) (i : Item) : Bytes :=
  let source := (content.drop i.span.start).take i.span.length
  if hasComment source then source else i.text ind

/-- The text of declarations and the gaps around them; `pos` is where the last one ended. -/
def itemsText (ind : Indent) (content : Bytes) (first : Bool) (pos : Nat) : List Item → Bytes
  | [] => gapText first false (content.drop pos)
  | i :: rest =>
    gapText first true ((content.drop pos).take (i.span.start - pos)) ++ itemText ind content i
      ++ itemsText ind content false i.span.stop rest

def endLine (b : Bytes) : Bytes :=
  match b.getLast? with
  | none => []
  | some c => if c = newlineByte then b else b ++ [newlineByte]

def moduleText (ind : Indent) (content : Bytes) (m : Module) : Bytes :=
  endLine (itemsText ind content true 0 m.items)

/-- How formatted texts look: `width` blanks for each level, or a tab. -/
structure Options where
  width : Int := 4
  tabs : Bool := false
deriving DecidableEq, Inhabited

def Options.indent? (o : Options) : Option Indent :=
  if o.tabs then some .tabs
  else if o.width < 0 then none
  else some (.spaces o.width.toNat)

def writesIndented (content : Bytes) (m : Module) : Bool :=
  m.items.any fun i =>
    i.isIndented && !hasComment ((content.drop i.span.start).take i.span.length)

inductive FormatError where
  /-- The text has syntax errors. -/
  | badSyntax
  | broken (cause : Breakdown)
deriving DecidableEq

def FormatError.message : FormatError → Bytes
  | badSyntax => "format: source has syntax errors"
  | broken b => b.message

def parse? (content : Bytes) : Option Module :=
  let p := Syntax.parse (Lexer.lexemes {} content) 0
  if p.diagnostics.any Diagnostic.isError then none else some p.module

def formatModule (o : Options) (content : Bytes) (m : Module) : Except Breakdown Bytes :=
  match o.indent? with
  | some ind => .ok (moduleText ind content m)
  | none =>
    if writesIndented content m then .error .negativeRepeat
    else .ok (moduleText (.spaces 0) content m)

def format (o : Options) (content : Bytes) : Except FormatError Bytes :=
  match parse? content with
  | none => .error .badSyntax
  | some m => (formatModule o content m).mapError .broken

/-- Whether two declarations agree in kind, name, and number of parameters and statements. -/
def sameShape : Item → Item → Bool
  | .fn a, .fn b =>
    a.name = b.name && a.params.length = b.params.length && a.body.length = b.body.length
  | .const a, .const b => a.name = b.name
  | _, _ => false

/-- What came out of formatting a text and reading it again. -/
inductive RoundTrip where
  | ok
  | badSyntax
  | badResult
  | itemsDiffer
deriving DecidableEq, Inhabited

def RoundTrip.message : RoundTrip → Bytes
  | ok => "fmt-check: OK"
  | badSyntax => "fmt-check: initial parse has errors"
  | badResult => "fmt-check: reparse failed"
  | itemsDiffer => "fmt-check: top-level items differ after round-trip"

/-- Format a text, read the result and compare the declarations. -/
def roundTrip (o : Options) (content : Bytes) : Except Breakdown RoundTrip := do
  match parse? content with
  | none => return .badSyntax
  | some m =>
    match parse? (← formatModule o content m) with
    | none => return .badResult
    | some m' =>
      let same := m.items.length = m'.items.length
        && (m.items.zip m'.items).all fun (a, b) => sameShape a b
      return if same then .ok else .itemsDiffer

end VecLang.Format
