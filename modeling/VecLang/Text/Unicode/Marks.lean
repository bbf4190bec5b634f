import VecLang.Text.Unicode.Decomposition

/-!
# Runs of marks

Putting marks in order needs the whole run of them at hand, so text keeps its runs bounded: after
`longestRun` marks a combining grapheme joiner divides the run, and marks are never moved across
it.

What counts as a mark is settled by the compatibility decomposition of a character, so that the
joiners fall on the same places in every normal form. The tables here list the characters whose
compatibility decomposition begins or ends with more marks than the canonical one.
-/

namespace VecLang.Unicode

/-- Characters of combining class zero that can still join the character before them: second
parts of vowel signs, and the medial and final Hangul jamo. -/
def attaching : Ranges := parseRanges
  ["9be d7 b3e 56 7 be d7 cc2 d5 6 d3e 57 cf df 102e 161-75 a7-c2 b35 11127 33e 57 4b0 a d 5af 930"]

def compatibilityMarks : Ranges := parseRanges
  ["3133 5-6 a-f 4f-63 ff9e-f a3 5-6 a-f c2-7 a-f d2-7 a-c"]

/-- Characters that end, by compatibility only, in marks, written `range:count`. -/
def compatibilityEndings : Runs := parseRuns decimalNat
  ["a8:1 f:1 b4:1 8:1 1c4-6:1 2d8-d:1 37a:1 84:1 5:2 f77:2 9:2 1fbd:1 f-c0:1 1:2 d-f:2 dd-f:2",
   "ed-e:2 fd-e:1 2017:1 3e:1 309b-c:1 26e-7e:1 304:1 7:1 10:1 e:1 21:1 32:1 b:1 40:1 b:1 e:1",
   "fba4-5:1 b0-1:1 c5b-d:1 e-63:2 90:1 d9:1 f2-4:2 d3c-d:1 e49-c:1 70-2:1 4:1 6-f:1 81-c:1 f5-a:1",
   "fe3:1 1f213:1"]

def isMark (code : Nat) : Bool :=
  combiningClass code != 0 || attaching.contains code

def leadingMarks (code : Nat) : Nat :=
  if compatibilityMarks.contains code then 1
  else ((decompose 4 code).takeWhile isMark).length

def trailingMarks (code : Nat) : Nat :=
  if compatibilityMarks.contains code then 1
  else match compatibilityEndings.find? code with
    | some (_, count) => count
    | none => ((decompose 4 code).reverse.takeWhile isMark).length

def longestRun : Nat := 30

/-- The combining grapheme joiner, a starter that composes with nothing. -/
def graphemeJoiner : Nat := 0x34f

/-- Put a joiner wherever a run of marks would pass `longestRun`. `run` is the number of marks
since the last starter or joiner, those in which the starter itself ends included. -/
def divideRuns (run : Nat) : List Nat → List Nat
  | [] => []
  | c :: rest =>
    let marks := leadingMarks c
    if marks = 0 then c :: divideRuns (trailingMarks c) rest
    else if run + marks ≤ longestRun then c :: divideRuns (run + marks) rest
    else graphemeJoiner :: c :: divideRuns marks rest

end VecLang.Unicode
