import VecLang.Diagnostic.Code
import VecLang.Source.Span

/-!
# Diagnostics

What the compiler has to say about a source text, and the bag that collects it up to a limit.
-/

namespace VecLang

/-- A further remark about some other place. -/
structure Note where
  span : Span
  message : Bytes
deriving DecidableEq, Inhabited

structure Diagnostic where
  severity : Severity
  code : Code
  primary : Span
  message : Bytes
  notes : List Note := []
deriving DecidableEq, Inhabited

namespace Diagnostic

def error (code : Code) (primary : Span) (message : Bytes) : Diagnostic :=
  { severity := .error, code, primary, message }

def isError (d : Diagnostic) : Bool := 2 ≤ d.severity.rank

/-- Whether `d` is to be shown no later than `e`: by file, start and end, the more serious
first, and then by code. -/
def le (d e : Diagnostic) : Bool :=
  if d.primary.file ≠ e.primary.file then d.primary.file < e.primary.file
  else if d.primary.start ≠ e.primary.start then d.primary.start < e.primary.start
  else if d.primary.stop ≠ e.primary.stop then d.primary.stop < e.primary.stop
  else if d.severity.rank ≠ e.severity.rank then e.severity.rank < d.severity.rank
  else d.code.number ≤ e.code.number

/-- The order of `le`, equals keeping their order. -/
def sort (ds : List Diagnostic) : List Diagnostic := ds.mergeSort le

def same (d e : Diagnostic) : Bool :=
  d.code = e.code && d.primary = e.primary && d.message = e.message

def distinct (ds : List Diagnostic) : List Diagnostic :=
  (ds.foldl (fun kept d => if kept.any (same d) then kept else d :: kept) []).reverse

end Diagnostic

structure Bag where
  /-- The most it takes from `add`. -/
  limit : Nat
  items : List Diagnostic := []
deriving Inhabited

namespace Bag

/-- No bag takes more than this. -/
def maxLimit : Nat := 65535

def empty (limit : Nat) : Bag := { limit := min limit maxLimit }

/-- Put a diagnostic in, unless the bag is full, and tell whether it was kept. -/
def add (b : Bag) (d : Diagnostic) : Bag × Bool :=
  if b.limit ≤ b.items.length then (b, false) else ({ b with items := b.items ++ [d] }, true)

def addAll (b : Bag) (ds : List Diagnostic) : Bag :=
  { b with items := b.items ++ ds.take (b.limit - b.items.length) }

def hasErrors (b : Bag) : Bool := b.items.any Diagnostic.isError

/-- All of the other bag's diagnostics put in, the limit growing when it has to. -/
def merge (b other : Bag) : Bag :=
  let items := b.items ++ other.items
  { limit := if b.limit < items.length && items.length ≤ maxLimit then items.length else b.limit
    items }

def sort (b : Bag) : Bag := { b with items := Diagnostic.sort b.items }

def dedup (b : Bag) : Bag := { b with items := Diagnostic.distinct b.items }

end Bag

end VecLang
