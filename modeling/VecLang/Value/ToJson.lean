import VecLang.Value.Basic
import VecLang.Json

/-!
# Values as JSON

A value is an object with its type, its text, its bits in memory and either its word or its
lanes. It is read from its type and one of the latter two.
-/

namespace VecLang.Value

def wordJson (w : UInt64) : Json := .str (Bytes.hexFixed 16 w.toNat)

def laneJson (x : Binary32) : Json := .str (Bytes.hexFixed 8 x.bits.toNat)

def toJson (v : Value) : Json :=
  .obj [("t", .str v.ty.name), ("s", .str v.text),
    ("bits", .arr [wordJson v.bits.low, wordJson v.bits.high]),
    if v.ty.isFloat then ("f", .list laneJson v.parts)
    else ("i", .str (Bytes.ofInt v.word.toInt))]

/-- An integer written in decimal that fits a word. -/
def wordOfText? (b : Bytes) : Option Int64 := do
  let (neg, digits) := match b with
    | 0x2d :: rest => (true, rest)
    | 0x2b :: rest => (false, rest)
    | _ => (false, b)
  let n ← Bytes.toNat? digits
  let i : Int := if neg then -n else n
  if -0x8000000000000000 ≤ i && i < 0x8000000000000000 then some (Int64.ofInt i) else none

/-- A lane read from the hexadecimal digits of its bits. -/
def laneOfJson? : Json → Option Binary32
  | .str t => do
    if t.isEmpty || 8 < t.length then none
    let ds ← t.mapM Bytes.hexValue?
    return ⟨UInt32.ofNat (ds.foldl (fun n d => 16 * n + d) 0)⟩
  | _ => none

def ofJson? (j : Json) : Option Value := do
  let .str t ← j.member? "t" | none
  let ty ← Ty.all.find? fun u => u.name = t
  let word ← match j.member? "i" with
    | some (.str s) => if s = [] then some 0 else wordOfText? s
    | some .null | none => some 0
    | _ => none
  let lanes ← match j.member? "f" with
    | some (.arr xs) => if 4 < xs.length then none else xs.mapM laneOfJson?
    | some .null | none => some []
    | _ => none
  return { ty, word, lanes := .ofList lanes }

end VecLang.Value
