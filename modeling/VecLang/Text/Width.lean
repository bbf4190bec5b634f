import VecLang.Text.Utf8
import VecLang.Text.Unicode.Width

/-!
# Display width

The number of terminal columns a text takes: two for East Asian wide characters, none for
combining marks and controls, one otherwise. A cluster of characters that is seen as one takes
the width of its first visible character.
-/

namespace VecLang.Width

open Unicode

def ofChar (c : Char) : Nat :=
  let n := c.toNat
  if n < 0x20 || (0x7f ≤ n && n ≤ 0x9f) || n = 0xad then 0
  else if n < 0x300 then 1
  else if invisibleRanges.contains n || combiningRanges.contains n then 0
  else if wideRanges.contains n then 2
  else 1

inductive Role where
  | other
  | carriageReturn
  | lineFeed
  | control
  | extend
  | joiner
  | spacing
  | prepend
  | regional
  | pictograph
  /-- Hangul leading consonant, vowel and trailing consonant. -/
  | lead | vowel | trail
  /-- Hangul syllable without and with a trailing consonant. -/
  | syllable | closedSyllable
  deriving DecidableEq

def roleOf (c : Char) : Role :=
  let n := c.toNat
  if n = 0x0d then .carriageReturn
  else if n = 0x0a then .lineFeed
  else if n < 0x20 then .control
  else if n < 0x7f then .other
  else if n = 0x200d then .joiner
  else if 0x1f1e6 ≤ n && n ≤ 0x1f1ff then .regional
  else if (0x1100 ≤ n && n ≤ 0x115f) || (0xa960 ≤ n && n ≤ 0xa97c) then .lead
  else if (0x1160 ≤ n && n ≤ 0x11a7) || (0xd7b0 ≤ n && n ≤ 0xd7c6) then .vowel
  else if (0x11a8 ≤ n && n ≤ 0x11ff) || (0xd7cb ≤ n && n ≤ 0xd7fb) then .trail
  else if 0xac00 ≤ n && n ≤ 0xd7a3 then
    if (n - 0xac00) % 28 = 0 then .syllable else .closedSyllable
  else if n = 0x7f || controlRanges.contains n then .control
  else if extendRanges.contains n then .extend
  else if spacingRanges.contains n then .spacing
  else if prependRanges.contains n then .prepend
  else if pictographRanges.contains n then .pictograph
  else .other

/-- What is known about the cluster being read: the role of its last character, whether it is
a pictograph followed by extending characters, whether a joiner ended such a run, and how many
regional indicators end it. -/
structure ClusterState where
  last : Role
  picture : Bool
  joined : Bool
  regionals : Nat

def ClusterState.start (r : Role) : ClusterState :=
  { last := r, picture := r = .pictograph, joined := false,
    regionals := if r = .regional then 1 else 0 }

def ClusterState.continues (s : ClusterState) (r : Role) : Bool :=
  match s.last, r with
  | .carriageReturn, .lineFeed => true
  | .carriageReturn, _ | .lineFeed, _ | .control, _ => false
  | _, .carriageReturn | _, .lineFeed | _, .control => false
  | .lead, .lead | .lead, .vowel | .lead, .syllable | .lead, .closedSyllable => true
  | .syllable, .vowel | .vowel, .vowel | .syllable, .trail | .vowel, .trail => true
  | .closedSyllable, .trail | .trail, .trail => true
  | _, .extend | _, .joiner | _, .spacing => true
  | .prepend, _ => true
  | .joiner, .pictograph => s.joined
  | .regional, .regional => s.regionals % 2 = 1
  | _, _ => false

def ClusterState.push (s : ClusterState) (r : Role) : ClusterState :=
  { last := r
    picture := r = .pictograph || (s.picture && r = .extend)
    joined := r = .joiner && s.picture
    regionals := if r = .regional then s.regionals + 1 else 0 }

/-- How many bytes behind the first belong to one character, judging by the lead byte and by
which bytes follow; none when the text ends within the character. -/
def chunkTail? (c : UInt8) (rest : Bytes) : Option Nat :=
  let wanted := if c < 0xc2 then 0 else if c < 0xe0 then 1 else if c < 0xf0 then 2
    else if c < 0xf8 then 3 else 0
  if rest.length < wanted then none else some ((rest.take wanted).takeWhile Utf8.isTail).length

/-- The part that a run of bytes plays in a cluster. -/
def roleOfBytes (b : Bytes) : Role :=
  match Utf8.first? b with
  | some (c, n) => if n = b.length then roleOf c else .other
  | none => .other

/-- The characters of a text with their roles; a character that the end of the text cuts off
has none. -/
def chunks : Bytes → List (Option Role × Bytes)
  | [] => []
  | c :: rest =>
    match chunkTail? c rest with
    | none => [(none, c :: rest)]
    | some n => (some (roleOfBytes (c :: rest.take n)), c :: rest.take n) :: chunks (rest.drop n)
termination_by b => b.length
decreasing_by simp only [List.length_cons, List.length_drop]; omega

/-- Cut characters into clusters; `current` is the cluster being read. A character that is cut
off belongs to the cluster before it. -/
def clustersFrom (state : ClusterState) (current : Bytes) :
    List (Option Role × Bytes) → List Bytes
  | [] => [current]
  | (none, b) :: rest => clustersFrom state (current ++ b) rest
  | (some r, b) :: rest =>
    if state.continues r then clustersFrom (state.push r) (current ++ b) rest
    else current :: clustersFrom (.start r) b rest

def clusters (b : Bytes) : List Bytes :=
  match chunks b with
  | [] => []
  | (r, b) :: rest => clustersFrom (.start (r.getD .other)) b rest

def ofCluster (cluster : Bytes) : Nat :=
  (((Utf8.chars cluster).map ofChar).find? (· > 0)).getD 0

def ofText (b : Bytes) : Nat :=
  ((clusters b).map ofCluster).foldr (· + ·) 0

/-- The clusters that fit into `room` columns, up to the first that does not. -/
def fitting (room : Int) : List Bytes → Bytes
  | [] => []
  | c :: rest =>
    let w : Int := ofCluster c
    if w > room then [] else c ++ fitting (room - w) rest

/-- The text cut so that with `tail` behind it it fits into `width` columns; a text that fits
is left as it is. -/
def truncate (b : Bytes) (width : Nat) (tail : Bytes) : Bytes :=
  if ofText b ≤ width then b
  else fitting ((width : Int) - (ofText tail : Int)) (clusters b) ++ tail

end VecLang.Width
