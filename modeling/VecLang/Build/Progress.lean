import VecLang.Text.Width
import VecLang.Number.Places

/-!
# Progress of a build

What is shown while a build runs: a line for each stage, and how much is done.
-/

namespace VecLang.Build

inductive Status where
  | queued
  | working
  | done
  | error
  /-- A status without meaning. -/
  | other
deriving DecidableEq, Inhabited

def Status.name : Status → Bytes
  | queued => "queued"
  | working => "working"
  | done => "done"
  | error => "error"
  | other => ""

def Status.ofName (b : Bytes) : Status :=
  ([queued, working, done, error].find? fun s => s.name = b).getD other

def stages : List Bytes := ["parse", "diagnose", "lower", "emit", "assemble", "link"]

def activities : List (Bytes × Bytes) :=
  [("parse", "parsing"), ("diagnose", "checking"), ("lower", "lowering"), ("emit", "emitting"),
   ("assemble", "assembling"), ("link", "linking")]

structure Event where
  stage : Bytes
  status : Status
  /-- How long it took, in microseconds. -/
  elapsed : Int := 0
  error : Option Bytes := none
deriving DecidableEq, Inhabited

structure Row where
  stage : Bytes
  status : Status := .queued
  elapsed : Int := 0
deriving DecidableEq, Inhabited

structure Progress where
  title : Bytes
  rows : List Row
  width : Int := 80
  failed : Option Bytes := none
  done : Bool := false
deriving Inhabited

namespace Progress

def start (title : Bytes) (stages : List Bytes) : Progress :=
  { title, rows := stages.map fun stage => { stage } }

def updateLast (stage : Bytes) (f : Row → Row) (rows : List Row) : List Row :=
  let after := rows.reverse.takeWhile fun r => r.stage ≠ stage
  let upTo := rows.reverse.dropWhile fun r => r.stage ≠ stage
  match upTo with
  | [] => rows
  | r :: before => (after ++ f r :: before).reverse

/-- Take in news of a stage. A stage that has begun does not go back to the queue. -/
def apply (p : Progress) (e : Event) : Progress :=
  match p.rows.reverse.find? fun r => r.stage = e.stage with
  | none => p
  | some row =>
    if e.status = .queued && row.status ≠ .queued then p
    else
      let change (r : Row) : Row :=
        { r with status := e.status, elapsed := if e.elapsed > 0 then e.elapsed else r.elapsed }
      { p with
        rows := updateLast e.stage change p.rows
        failed := if e.status = .error && e.error.isSome then e.error else p.failed }

def finish (p : Progress) : Progress := { p with done := true }

/-- The screen has a new width; a width of nothing does not count. -/
def resize (p : Progress) (width : Int) : Progress :=
  if width > 0 then { p with width } else p

def halvesDone (p : Progress) : Nat :=
  (p.rows.map fun r => match r.status with
    | .done | .error => 2
    | .working => 1
    | _ => 0).foldr (· + ·) 0

def percent (p : Progress) : Bytes :=
  Places.text 4 p.halvesDone (2 * max p.rows.length 1)

/-- A text cut to a width, with dots where there is room for them. -/
def truncate (b : Bytes) (width : Int) : Bytes :=
  if width ≤ 0 then b
  else if width ≤ 3 then Width.truncate b width.toNat []
  else Width.truncate b width.toNat "..."

def block (b : Bytes) : Bytes :=
  let expanded := b.flatMap fun c => if c = 0x09 then "    " else [c]
  let lines := Bytes.splitOn 0x0a expanded
  let widest := (lines.map Width.ofText).foldl max 0
  let pad (l : Bytes) : Bytes := l ++ Bytes.spaces (widest - Width.ofText l)
  if lines.length ≤ 1 then expanded else Bytes.join "\n" (lines.map pad)

def label (r : Row) : Bytes :=
  match r.status with
  | .working => (activities.lookup r.stage).getD []
  | s => s.name

def rowText (r : Row) : Bytes :=
  let time := Places.text 2 r.elapsed.toNat 1000
  let elapsed : Bytes := if r.elapsed > 0 then " " ++ Bytes.padLeft 8 time ++ " ms" else []
  "  " ++ block (Utf8.padLeft 12 (label r)) ++ " " ++ Utf8.padRight 9 r.stage ++ elapsed ++ "\n"

/-- The first line. -/
def header (p : Progress) : Bytes :=
  let title := truncate p.title (p.width - 4)
  if p.failed.isSome then "failed: " ++ title
  else if p.done then "done: " ++ title
  else "⣾  " ++ title

/-- What is shown, but for the bar. -/
def view (p : Progress) : Bytes :=
  let failure : Bytes := match p.failed with
    | none => ""
    | some e => "\n  " ++ block (truncate e (p.width - 4)) ++ "\n"
  block p.header ++ "\n\n" ++ (p.rows.map rowText).flatten ++ failure ++ "\n"

end Progress

end VecLang.Build
