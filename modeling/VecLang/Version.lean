import VecLang.Text.Style

/-!
# Version of the compiler
-/

namespace VecLang

structure Version where
  number : Bytes := "0.1.0-dev"
  commit : Bytes := []
  date : Bytes := []
deriving DecidableEq, Inhabited

namespace Version

/-- Cut a text at the first two dots. -/
def threeParts? (b : Bytes) : Option (Bytes × Bytes × Bytes) := do
  let (x, rest) ← Bytes.cut 0x2e b
  let (y, z) ← Bytes.cut 0x2e rest
  return (x, y, z)

/-- The number with a colour for each of its three parts; what follows a dash stays plain. A
number without three parts is left as it is. -/
def colored (v : Version) (enabled : Bool) : Bytes :=
  let (core, suffix) := (Bytes.cut 0x2d v.number).getD (v.number, [])
  match threeParts? core with
  | none => v.number
  | some (x, y, z) =>
    let part (c : Color) : Bytes → Bytes := Style.paint ⟨some c, true⟩ enabled
    part .yellow x ++ "." ++ part .green y ++ "." ++ part .blue z
      ++ (if suffix = [] then ("" : Bytes) else "-" ++ suffix)

def describe (v : Version) (color : Bool) : Bytes :=
  let commit : Bytes := if v.commit = [] then [] else "commit: " ++ v.commit ++ "\n"
  let date : Bytes := if v.date = [] then [] else "built:  " ++ v.date ++ "\n"
  "vecl " ++ v.colored color ++ "\n" ++ commit ++ date

end Version

end VecLang
