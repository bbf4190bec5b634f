import VecLang.Json
import VecLang.Text.Quoted

/-!
# Reading JSON

A strict reader. A text that is not JSON is refused at the first byte that cannot stand where it
does; a number or word that the text breaks off is refused as if a blank stood behind it.
-/

namespace VecLang.Json

inductive Place where
  | value
  | key
  | afterKey
  | afterMember
  | afterItem
  | afterText
  | string
  | escape
  | unicodeEscape
  | number
  | fraction
  | exponent
  /-- Inside a word, where the byte `expected` has to follow. -/
  | word (whole : Bytes) (expected : UInt8)
  /-- An opening bracket inside too many others. -/
  | tooDeep
deriving DecidableEq, Inhabited

def Place.describe : Place → Bytes
  | value => "looking for beginning of value"
  | key => "looking for beginning of object key string"
  | afterKey => "after object key"
  | afterMember => "after object key:value pair"
  | afterItem => "after array element"
  | afterText => "after top-level value"
  | string => "in string literal"
  | escape => "in string escape code"
  | unicodeEscape => "in \\u hexadecimal character escape"
  | number => "in numeric literal"
  | fraction => "after decimal point in numeric literal"
  | exponent => "in exponent of numeric literal"
  | word whole expected => "in literal " ++ whole ++ " (expecting '" ++ [expected] ++ "')"
  | tooDeep => "exceeded max depth"

/-- Why a text is not JSON. -/
inductive Fault where
  /-- The text ends where more has to follow. -/
  | unexpectedEnd
  | unexpected (byte : UInt8) (place : Place)
deriving DecidableEq, Inhabited

def Fault.message : Fault → Bytes
  | unexpectedEnd => "unexpected end of JSON input"
  | unexpected byte place =>
    "invalid character " ++ Quoted.quoteChar (Char.ofNat byte.toNat) ++ " " ++ place.describe

/-- What a reader finds at the front of a text, and what is left. -/
abbrev Reader (α : Type) := Bytes → Except Fault (α × Bytes)

/-- White space between tokens. -/
def isBlank (c : UInt8) : Bool := c = 0x20 || c = 0x09 || c = 0x0a || c = 0x0d

/-- The text after white space. -/
def skip (b : Bytes) : Bytes := b.dropWhile isBlank

/-- Refuse the byte at the front; a text that ends here has ended too early. -/
def refuse (place : Place) : Bytes → Except Fault α
  | [] => .error .unexpectedEnd
  | c :: _ => .error (.unexpected c place)

/-- Refuse the byte at the front of an unfinished number, word or escape. -/
def refuseInside (place : Place) (b : Bytes) : Except Fault α :=
  .error (.unexpected (b.headD 0x20) place)

/-! ## Strings -/

def simpleEscape? (c : UInt8) : Option UInt8 :=
  match c with
  | 0x22 => some 0x22
  | 0x5c => some 0x5c
  | 0x2f => some 0x2f
  | 0x62 => some 0x08
  | 0x66 => some 0x0c
  | 0x6e => some 0x0a
  | 0x72 => some 0x0d
  | 0x74 => some 0x09
  | _ => none

def hex4? (a b c d : UInt8) : Option Nat := do
  let a ← Bytes.hexValue? a
  let b ← Bytes.hexValue? b
  let c ← Bytes.hexValue? c
  let d ← Bytes.hexValue? d
  return ((a * 16 + b) * 16 + c) * 16 + d

def pushChar (c : Char) (acc : Bytes) : Bytes :=
  (String.utf8EncodeChar c).reverse ++ acc

/-- A first half of a surrogate pair that found no second half becomes a replacement. -/
def flushHalf (half : Option Nat) (acc : Bytes) : Bytes :=
  match half with
  | none => acc
  | some _ => pushChar Utf8.replacement acc

def refuseHex (b : Bytes) : Except Fault α :=
  refuseInside .unicodeEscape (b.dropWhile fun c => (Bytes.hexValue? c).isSome)

/-- Read a string from behind its opening quote. `half` is the first half of a surrogate pair
just read and `acc` the bytes so far, in reverse. -/
def stringBody (half : Option Nat) (acc : Bytes) : Reader Bytes
  | [] => .error .unexpectedEnd
  | 0x22 :: rest => .ok (Utf8.sanitize (flushHalf half acc).reverse, rest)
  | 0x5c :: 0x75 :: a :: b :: c :: d :: rest =>
    match hex4? a b c d with
    | none => refuseHex [a, b, c, d]
    | some u =>
      if 0xd800 ≤ u && u < 0xdc00 then stringBody (some u) (flushHalf half acc) rest
      else if 0xdc00 ≤ u && u < 0xe000 then
        match half with
        | some h =>
          stringBody none (pushChar (Char.ofNat (0x10000 + (h - 0xd800) * 1024 + (u - 0xdc00))) acc)
            rest
        | none => stringBody none (pushChar Utf8.replacement acc) rest
      else stringBody none (pushChar (Char.ofNat u) (flushHalf half acc)) rest
  | 0x5c :: 0x75 :: rest => refuseHex rest
  | 0x5c :: c :: rest =>
    match simpleEscape? c with
    | none => .error (.unexpected c .escape)
    | some e => stringBody none (e :: flushHalf half acc) rest
  | [0x5c] => refuseInside .escape []
  | c :: rest =>
    if c < 0x20 then .error (.unexpected c .string)
    else stringBody none (c :: flushHalf half acc) rest

/-! ## Numbers and words -/

def digits (place : Place) : Reader Bytes := fun b =>
  let ds := b.takeWhile Bytes.isDigit
  if ds.isEmpty then refuseInside place b else .ok (ds, b.dropWhile Bytes.isDigit)

def wholePart : Reader Bytes
  | 0x30 :: rest => .ok ([0x30], rest)
  | b => digits .number b

def fractionPart : Reader Bytes
  | 0x2e :: rest => (digits .fraction rest).map fun (ds, rest) => (0x2e :: ds, rest)
  | b => .ok ([], b)

def exponentPart : Reader Bytes
  | e :: rest =>
    if e = 0x65 || e = 0x45 then
      match rest with
      | 0x2b :: rest => (digits .exponent rest).map fun (ds, rest) => (e :: 0x2b :: ds, rest)
      | 0x2d :: rest => (digits .exponent rest).map fun (ds, rest) => (e :: 0x2d :: ds, rest)
      | rest => (digits .exponent rest).map fun (ds, rest) => (e :: ds, rest)
    else .ok ([], e :: rest)
  | [] => .ok ([], [])

/-- A number without its sign. -/
def magnitude : Reader Bytes := fun b => do
  let (w, b) ← wholePart b
  let (f, b) ← fractionPart b
  let (e, b) ← exponentPart b
  return (w ++ f ++ e, b)

def wordEnd (whole : Bytes) : (todo : Bytes) → Bytes → Except Fault Bytes
  | [], b => .ok b
  | w :: ws, b =>
    if b.head? = some w then wordEnd whole ws b.tail else refuseInside (.word whole w) b

/-! ## Values -/

/-- How many arrays and objects can stand inside each other. -/
def maxDepth : Nat := 10000

mutual

/-- A value at the front of the text, inside `depth` arrays and objects. -/
def value : (fuel : Nat) → (depth : Nat) → Reader Json
  | 0, _, _ => .error .unexpectedEnd
  | fuel + 1, depth, b =>
    match skip b with
    | 0x22 :: rest => (stringBody none [] rest).map fun (s, rest) => (.str s, rest)
    | 0x5b :: rest =>
      if maxDepth ≤ depth then .error (.unexpected 0x5b .tooDeep)
      else match skip rest with
        | 0x5d :: rest => .ok (.arr [], rest)
        | rest => (items fuel (depth + 1) rest).map fun (xs, rest) => (.arr xs, rest)
    | 0x7b :: rest =>
      if maxDepth ≤ depth then .error (.unexpected 0x7b .tooDeep)
      else match skip rest with
        | 0x7d :: rest => .ok (.obj [], rest)
        | rest => (members fuel (depth + 1) rest).map fun (ms, rest) => (.obj ms, rest)
    | 0x6e :: rest => (wordEnd "null" "ull" rest).map fun rest => (.null, rest)
    | 0x74 :: rest => (wordEnd "true" "rue" rest).map fun rest => (.bool true, rest)
    | 0x66 :: rest => (wordEnd "false" "alse" rest).map fun rest => (.bool false, rest)
    | 0x2d :: rest => (magnitude rest).map fun (t, rest) => (.num (0x2d :: t), rest)
    | [] => .error .unexpectedEnd
    | c :: rest =>
      if Bytes.isDigit c then (magnitude (c :: rest)).map fun (t, rest) => (.num t, rest)
      else .error (.unexpected c .value)

def items : (fuel : Nat) → (depth : Nat) → Reader (List Json)
  | 0, _, _ => .error .unexpectedEnd
  | fuel + 1, depth, b =>
    match value fuel depth b with
    | .error e => .error e
    | .ok (v, rest) =>
      match skip rest with
      | 0x2c :: rest => (items fuel depth rest).map fun (vs, rest) => (v :: vs, rest)
      | 0x5d :: rest => .ok ([v], rest)
      | rest => refuse .afterItem rest

def members : (fuel : Nat) → (depth : Nat) → Reader (List (Bytes × Json))
  | 0, _, _ => .error .unexpectedEnd
  | fuel + 1, depth, b =>
    match skip b with
    | 0x22 :: rest =>
      match stringBody none [] rest with
      | .error e => .error e
      | .ok (k, rest) =>
        match skip rest with
        | 0x3a :: rest =>
          match value fuel depth rest with
          | .error e => .error e
          | .ok (v, rest) =>
            match skip rest with
            | 0x2c :: rest => (members fuel depth rest).map fun (ms, rest) => ((k, v) :: ms, rest)
            | 0x7d :: rest => .ok ([(k, v)], rest)
            | rest => refuse .afterMember rest
        | rest => refuse .afterKey rest
    | rest => refuse .key rest

end

/-- The value that the whole text stands for. Each step of the reader uses up a byte, so twice the
length is more steps than it can take. -/
def parse (b : Bytes) : Except Fault Json :=
  match value (2 * b.length + 2) 0 b with
  | .error e => .error e
  | .ok (v, rest) =>
    match skip rest with
    | [] => .ok v
    | c :: _ => .error (.unexpected c .afterText)

end VecLang.Json
