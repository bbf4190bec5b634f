import VecLang.Text.Bytes

/-!
# Tables of code points

Sets of code points are written as lines of hexadecimal ranges, such as `"aa b5 c0-d6"`. Where a
number belongs to a range it stands behind a colon. A code point may be written without the leading
digits that it shares with the one before it: `"1f18-d 20-45"` stands for `"1f18-1f1d 1f20-1f45"`.
-/

namespace VecLang.Unicode

/-- The number written by hexadecimal digits. -/
def hexNat (b : Bytes) : Nat :=
  b.foldl (fun n c => 16 * n + (Bytes.hexValue? c).getD 0) 0

/-- The number written by hexadecimal digits behind the number `before`. -/
def hexAfter (before : Nat) (b : Bytes) : Nat :=
  before >>> (4 * b.length) <<< (4 * b.length) + hexNat b

def words (lines : List String) : List Bytes :=
  lines.flatMap fun line => Bytes.splitOn 0x20 (Bytes.ofString line)

def parseRange (before : Nat) (b : Bytes) : Nat × Nat :=
  let (lo, hi) := (Bytes.cut 0x2d b).getD (b, [])
  (hexAfter before lo, hexAfter (hexAfter before lo) (if hi.isEmpty then lo else hi))

abbrev Runs := Array ((Nat × Nat) × Nat)

def parseRunsAfter (number : Bytes → Nat) (before : Nat) : List Bytes → List ((Nat × Nat) × Nat)
  | [] => []
  | word :: more =>
    let (range, n) := (Bytes.cut 0x3a word).getD (word, [])
    let r := parseRange before range
    (r, number n) :: parseRunsAfter number r.2 more

def parseRuns (number : Bytes → Nat) (lines : List String) : Runs :=
  (parseRunsAfter number 0 (words lines)).toArray

abbrev Ranges := Array (Nat × Nat)

def parseRanges (lines : List String) : Ranges := (parseRuns hexNat lines).map (·.1)

def Ranges.contains (r : Ranges) (code : Nat) : Bool :=
  r.any fun (lo, hi) => lo ≤ code && code ≤ hi

/-- The first code point and the number of the run that a code point lies in. -/
def Runs.find? (r : Runs) (code : Nat) : Option (Nat × Nat) :=
  (Array.find? (fun ((lo, hi), _) => lo ≤ code && code ≤ hi) r).map fun ((lo, _), n) => (lo, n)

def decimalNat (b : Bytes) : Nat := (Bytes.toNat? b).getD 0

end VecLang.Unicode
