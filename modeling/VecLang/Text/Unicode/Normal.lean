import VecLang.Text.Unicode.Marks

/-!
# Normal form C

Long runs of marks are divided, text is decomposed canonically, its marks are put in order of
combining class, and characters are composed again. Two identifiers that look the same then have
the same bytes.
-/

namespace VecLang.Unicode

/-- Insert a mark of class `cls` behind the marks of the run that do not have a larger class. -/
def insertMark (code cls : Nat) : List (Nat × Nat) → List (Nat × Nat)
  | [] => [(code, cls)]
  | (c, k) :: rest =>
    if k ≤ cls then (c, k) :: insertMark code cls rest else (code, cls) :: (c, k) :: rest

/-- Put every run of marks in order of combining class; `run` holds the marks since the last
starter, in order. -/
def reorder (run : List (Nat × Nat)) : List Nat → List (Nat × Nat)
  | [] => run
  | c :: rest =>
    let cls := combiningClass c
    if cls = 0 then run ++ (c, 0) :: reorder [] rest
    else reorder (insertMark c cls run) rest

def compose (x y : Nat) : Option Nat :=
  if 0x1100 ≤ x && x < 0x1113 && 0x1161 ≤ y && y < 0x1176 then
    some (hangulBase + (x - 0x1100) * 588 + (y - 0x1161) * 28)
  else if hangulBase ≤ x && x < hangulBase + 11172 && (x - hangulBase) % 28 = 0
      && 0x11a8 ≤ y && y < 0x11c3 then
    some (x + (y - 0x11a7))
  else composePair x y

/-- Compose from left to right. `starter` is the last starter, `skipped` the marks kept behind
it, in reverse, and `lastClass` the class of the last of them. -/
def recompose (starter : Option Nat) (skipped : List Nat) (lastClass : Nat) :
    List (Nat × Nat) → List Nat
  | [] => starter.toList ++ skipped.reverse
  | (c, cls) :: rest =>
    match starter with
    | none =>
      if cls = 0 then recompose (some c) [] 0 rest
      else c :: recompose none [] 0 rest
    | some s =>
      let blocked := !skipped.isEmpty && (lastClass ≥ cls || lastClass = 0)
      match (if blocked then none else compose s c) with
      | some k => recompose (some k) skipped lastClass rest
      | none =>
        if cls = 0 then s :: skipped.reverse ++ recompose (some c) [] 0 rest
        else recompose (some s) (c :: skipped) cls rest

def normalize (b : Bytes) : Bytes :=
  if b.all (· < 0x80) then b
  else
    let codes := (divideRuns 0 ((Utf8.chars b).map Char.toNat)).flatMap (decompose 4)
    Utf8.encode ((recompose none [] 0 (reorder [] codes)).map Char.ofNat)

end VecLang.Unicode
