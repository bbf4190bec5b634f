import VecLang.Trace.Level
import VecLang.Json

/-!
# Events

A span has an event at its beginning and one at its end; a point is an event by itself.
-/

namespace VecLang.Trace

inductive Kind where
  | begun
  | ended
  | point
  /-- A kind without meaning. -/
  | other
deriving DecidableEq, Inhabited

namespace Kind

def name : Kind → Bytes
  | begun => "begin"
  | ended => "end"
  | point => "point"
  | other => "unknown"

def sign : Kind → Bytes
  | begun => "→ "
  | ended => "← "
  | point => "• "
  | other => ""

def ofNumber : Nat → Kind
  | 1 => begun
  | 2 => ended
  | 3 => point
  | _ => other

end Kind

structure Event where
  /-- The time as it is written. -/
  time : Bytes := []
  seq : Nat := 0
  kind : Kind
  scope : Scope
  /-- The number of the span, zero for a point. -/
  span : Nat := 0
  /-- The number of the span around it, zero for none. -/
  parent : Nat := 0
  name : Bytes
  detail : Bytes := []
  /-- Further remarks, each name once. -/
  extra : List (Bytes × Bytes) := []
deriving DecidableEq, Inhabited

/-- Remarks with one more, in place of one of the same name. -/
def remark (extra : List (Bytes × Bytes)) (key value : Bytes) : List (Bytes × Bytes) :=
  extra.filter (·.1 ≠ key) ++ [(key, value)]

namespace Event

/-- The remarks in order of their names. -/
def sortedExtra (e : Event) : List (Bytes × Bytes) :=
  e.extra.mergeSort fun a b => Bytes.le a.1 b.1

def text (e : Event) : Bytes :=
  let indent : Bytes := if e.parent > 0 then "  " else ""
  let detail : Bytes := if e.detail = [] then "" else " (" ++ e.detail ++ ")"
  let pairs : List Bytes := e.sortedExtra.map fun (k, v) => k ++ "=" ++ v
  let extra : Bytes := if e.extra = [] then "" else " \x7b" ++ Bytes.join ", " pairs ++ "\x7d"
  "#" ++ Bytes.padRight 6 (Bytes.ofNat e.seq) ++ " " ++ indent ++ e.kind.sign ++ e.name ++ detail
    ++ extra ++ "\n"

def memberIf (wanted : Bool) (name : Bytes) (value : Json) : List (Bytes × Json) :=
  if wanted then [(name, value)] else []

def toObject (e : Event) : Json :=
  let head : List (Bytes × Json) :=
    [("time", .str e.time), ("seq", .nat e.seq), ("kind", .str e.kind.name),
     ("scope", .str e.scope.name)]
  let name : List (Bytes × Json) := [("name", .str e.name)]
  .obj (head ++ memberIf (e.span > 0) "span_id" (.nat e.span)
    ++ memberIf (e.parent > 0) "parent_id" (.nat e.parent) ++ name
    ++ memberIf (e.detail ≠ []) "detail" (.str e.detail)
    ++ memberIf (e.extra ≠ []) "extra" (.obj (e.sortedExtra.map fun (k, v) => (k, .str v))))

def render (f : Format) (e : Event) : Bytes :=
  if f = .ndjson then e.toObject.compact ++ "\n" else e.text

end Event

/-! ## Times -/

/-- The year, month and day of a day counted from the first of January 1970. Years are counted
from March, so that the day that comes every four years is the last of its year. -/
def civilDate (day : Int) : Int × Nat × Nat :=
  let z := day + 719468
  let era := z.fdiv 146097
  let doe := (z - era * 146097).toNat
  let yoe := (doe - doe / 1460 + doe / 36524 - doe / 146096) / 365
  let doy := doe - (365 * yoe + yoe / 4 - yoe / 100)
  let mp := (5 * doy + 2) / 153
  let d := doy - (153 * mp + 2) / 5 + 1
  let m := if mp < 10 then mp + 3 else mp - 9
  ((yoe : Int) + era * 400 + (if m ≤ 2 then 1 else 0), m, d)

def zeroPadded (width n : Nat) : Bytes :=
  let digits := Bytes.ofNat n
  Bytes.replicate (width - digits.length) 0x30 ++ digits

def timeText (micros : Int) : Bytes :=
  let day := micros.fdiv 86400000000
  let rest := (micros - day * 86400000000).toNat
  let (y, m, d) := civilDate day
  let sec := rest / 1000000
  let year := (if y < 0 then ("-" : Bytes) else "") ++ zeroPadded 4 y.natAbs
  year ++ "-" ++ zeroPadded 2 m ++ "-" ++ zeroPadded 2 d ++ "T" ++ zeroPadded 2 (sec / 3600) ++ ":"
    ++ zeroPadded 2 (sec / 60 % 60) ++ ":" ++ zeroPadded 2 (sec % 60) ++ "."
    ++ zeroPadded 6 (rest % 1000000) ++ "Z"

end VecLang.Trace
