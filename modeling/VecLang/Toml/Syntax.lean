import VecLang.Number.Integer
import VecLang.Text.Utf8

/-!
# TOML: reading

A document is a list of lines that open a table, open an element of a list of tables, or give a
key a value. Reading checks the text of each line; whether the lines fit together is checked when
they are put together.
-/

namespace VecLang.Toml

abbrev Key := List Bytes

/-- A value. Fractions and times are only checked to be well written. -/
inductive Value where
  | text (s : Bytes)
  | int (n : Int)
  | fraction
  | bool (b : Bool)
  | time
  | list (items : List Value)
  | inline (members : List (Key × Value))
deriving Inhabited

inductive Line where
  | table (key : Key)
  | element (key : Key)
  | assign (key : Key) (value : Value)
deriving Inhabited

/-- What is read and the text behind it, unless the text is malformed. -/
abbrev Read (α : Type) := Option (α × Bytes)

/-! ## Characters -/

def isBlank (c : UInt8) : Bool := c = 0x20 || c = 0x09

def isLineEnd (c : UInt8) : Bool := c = 0x0a || c = 0x0d

/-- A character of a key that is not quoted. -/
def isBare (c : UInt8) : Bool :=
  Bytes.isDigit c || (0x41 ≤ c && c ≤ 0x5a) || (0x61 ≤ c && c ≤ 0x7a) || c = 0x5f || c = 0x2d

def skip (b : Bytes) : Bytes := b.dropWhile isBlank

def skipComment (b : Bytes) : Bytes :=
  if b.head? = some 0x23 then b.dropWhile (!isLineEnd ·) else b

def skipLines : (fuel : Nat) → Bytes → Bytes
  | 0, b => b
  | fuel + 1, b =>
    let b := b.dropWhile fun c => isBlank c || isLineEnd c
    if b.head? = some 0x23 then skipLines fuel (skipComment b) else b

/-- Whether every control character is a tab or part of a line end, and every carriage return is
part of one. -/
def controlsOk : Bytes → Bool
  | [] => true
  | 0x0d :: rest => rest.head? = some 0x0a && controlsOk rest
  | c :: rest => (0x20 ≤ c && c ≠ 0x7f || c = 0x09 || c = 0x0a) && controlsOk rest

def withoutMark (b : Bytes) : Bytes :=
  if ([0xff, 0xfe] : Bytes).isPrefixOf b || ([0xfe, 0xff] : Bytes).isPrefixOf b then b.drop 2
  else if ([0xef, 0xbb, 0xbf] : Bytes).isPrefixOf b then b.drop 3
  else b

/-! ## Texts -/

def codePoint? (digits : Bytes) : Option Bytes :=
  match digits.foldlM (fun n d => (Bytes.hexValue? d).map (16 * n + ·)) 0 with
  | some n => if n.isValidChar then some (Utf8.encode [Char.ofNat n]) else none
  | none => none

def escape? : Bytes → Read Bytes
  | 0x62 :: rest => some ([0x08], rest)
  | 0x74 :: rest => some ([0x09], rest)
  | 0x6e :: rest => some ([0x0a], rest)
  | 0x66 :: rest => some ([0x0c], rest)
  | 0x72 :: rest => some ([0x0d], rest)
  | 0x22 :: rest => some ([0x22], rest)
  | 0x5c :: rest => some ([0x5c], rest)
  | 0x75 :: rest =>
    if rest.length < 4 then none else (codePoint? (rest.take 4)).map (·, rest.drop 4)
  | 0x55 :: rest =>
    if rest.length < 8 then none else (codePoint? (rest.take 8)).map (·, rest.drop 8)
  | _ => none

/-- Read a text in double quotes from behind the first. -/
def basic? : (fuel : Nat) → Bytes → Read Bytes
  | 0, _ => none
  | _ + 1, [] => none
  | _ + 1, 0x22 :: rest => some ([], rest)
  | fuel + 1, 0x5c :: rest =>
    match escape? rest with
    | some (c, rest) => (basic? fuel rest).map fun (s, rest) => (c ++ s, rest)
    | none => none
  | fuel + 1, c :: rest =>
    if isLineEnd c then none else (basic? fuel rest).map fun (s, rest) => (c :: s, rest)

/-- Read a text in single quotes from behind the first. -/
def literal? (b : Bytes) : Read Bytes :=
  let s := b.takeWhile fun c => c ≠ 0x27 && !isLineEnd c
  match b.drop s.length with
  | 0x27 :: rest => some (s, rest)
  | _ => none

def dropLineEnd : Bytes → Bytes
  | 0x0a :: rest => rest
  | 0x0d :: 0x0a :: rest => rest
  | b => b

/-- The quotes at the front, when they end a text over several lines: three end it, and up to
`more` before them belong to it. -/
def longEnd? (quote : UInt8) (more : Nat) (b : Bytes) : Read Bytes :=
  let n := (b.takeWhile (· = quote)).length
  if 3 ≤ n && n ≤ 3 + more then some (Bytes.replicate (n - 3) quote, b.drop n) else none

/-- Read a text in three double quotes from behind the first three. A backslash at the end of a
line takes away all white space up to the next character. Up to `more` quotes may stand before
the last three: two, and three behind a backslash. -/
def longBasic? : (fuel : Nat) → (more : Nat) → Bytes → Read Bytes
  | 0, _, _ => none
  | fuel + 1, more, b =>
    match longEnd? 0x22 more b with
    | some r => some r
    | none =>
      match b with
      | [] => none
      | 0x5c :: rest =>
        let white := rest.takeWhile fun c => isBlank c || isLineEnd c
        if white.contains 0x0a then longBasic? fuel 2 (rest.drop white.length)
        else match escape? rest with
          | some (c, rest) =>
            let more := if c = [0x5c] then 3 else 2
            (longBasic? fuel more rest).map fun (s, rest) => (c ++ s, rest)
          | none => none
      | c :: rest =>
        if c = 0x22 && 3 + more < (b.takeWhile (· = 0x22)).length then none
        else (longBasic? fuel 2 rest).map fun (s, rest) => (c :: s, rest)

/-- Read a text in three single quotes from behind the first three. -/
def longLiteral? : Bytes → Read Bytes
  | [] => none
  | c :: rest =>
    match longEnd? 0x27 2 (c :: rest) with
    | some r => some r
    | none =>
      if c = 0x27 && 6 ≤ ((c :: rest).takeWhile (· = 0x27)).length then none
      else (longLiteral? rest).map fun (s, rest) => (c :: s, rest)

def text? : Bytes → Read Bytes
  | 0x22 :: 0x22 :: 0x22 :: rest => longBasic? (rest.length + 1) 2 (dropLineEnd rest)
  | 0x22 :: rest => basic? (rest.length + 1) rest
  | 0x27 :: 0x27 :: 0x27 :: rest => longLiteral? (dropLineEnd rest)
  | 0x27 :: rest => literal? rest
  | _ => none

/-! ## Keys -/

def keyPart? : Bytes → Read Bytes
  | 0x22 :: rest => basic? (rest.length + 1) rest
  | 0x27 :: rest => literal? rest
  | b =>
    let s := b.takeWhile isBare
    if s.isEmpty then none else some (s, b.drop s.length)

def key? : (fuel : Nat) → Bytes → Read Key
  | 0, _ => none
  | fuel + 1, b =>
    match keyPart? (skip b) with
    | none => none
    | some (part, rest) =>
      match skip rest with
      | 0x2e :: rest => (key? fuel rest).map fun (k, rest) => (part :: k, rest)
      | rest => some ([part], rest)

/-! ## Numbers and times -/

def digits? (ok : UInt8 → Bool) (b : Bytes) : Option Bytes :=
  let parts := Bytes.splitOn 0x5f b
  if parts.all fun p => !p.isEmpty && p.all ok then some parts.flatten else none

def ofDigits (base : Nat) (ds : Bytes) : Nat :=
  ds.foldl (fun n d => base * n + (Bytes.hexValue? d).getD 0) 0

def word? (n : Int) : Option Value := if Integer.fits n then some (.int n) else none

/-- Whether digits start with a zero that could be left out. -/
def hasIdleZero (ds : Bytes) : Bool := 1 < ds.length && ds.head? = some 0x30

def based? (base : Nat) (b : Bytes) : Option Value :=
  match digits? (fun d => (Bytes.hexValue? d).any (· < base)) b with
  | some ds => word? (ofDigits base ds)
  | none => none

/-- Whether the digits `ds`, moved by `scale` decimal places, are a number that rounds to more than
the largest double. Only a number with 309 digits before the point needs a closer look. -/
def isTooLarge (ds : Bytes) (scale : Int) : Bool :=
  let size : Int := (ds.dropWhile (· = 0x30)).length
  if size = 0 || size + scale < 309 then false
  else if 309 < size + scale then true
  else
    let bound := Nat.pow 2 1024 - Nat.pow 2 970
    bound * Nat.pow 10 (-scale).toNat ≤ ofDigits 10 ds * Nat.pow 10 scale.toNat

/-- A fraction or a number with an exponent, given behind its sign. Its size must be within reach
of a double. -/
def fraction? (b : Bytes) : Option Value := do
  let isMark (c : UInt8) : Bool := c = 0x65 || c = 0x45
  let mantissa := b.takeWhile (!isMark ·)
  let expo := b.drop mantissa.length
  let (whole, frac) := (Bytes.cut 0x2e mantissa).getD (mantissa, "0")
  let ds ← digits? Bytes.isDigit whole
  let fs ← digits? Bytes.isDigit frac
  if hasIdleZero whole then none
  let power ← match expo with
    | [] => some 0
    | _ :: e =>
      let (negative, e) := Integer.splitSign e
      (digits? Bytes.isDigit e).map fun e => Integer.signed negative (ofDigits 10 e)
  if expo.isEmpty && !mantissa.contains 0x2e then none
  if isTooLarge (ds ++ fs) (power - fs.length) then none
  return .fraction

def number? (b : Bytes) : Option Value :=
  let (negative, rest) := Integer.splitSign b
  let isSigned : Bool := rest.length < b.length
  if rest = "inf" || rest = "nan" then some .fraction
  else match isSigned, rest with
    | false, 0x30 :: 0x78 :: ds => based? 16 ds
    | false, 0x30 :: 0x6f :: ds => based? 8 ds
    | false, 0x30 :: 0x62 :: ds => based? 2 ds
    | _, _ =>
      match digits? Bytes.isDigit rest with
      | some ds =>
      if hasIdleZero rest then none else word? (Integer.signed negative (ofDigits 10 ds))
      | none => fraction? rest

def twoDigits? (bound : Nat) : Bytes → Read Nat
  | a :: b :: rest =>
    if Bytes.isDigit a && Bytes.isDigit b then
      let n := ofDigits 10 [a, b]
      if n < bound then some (n, rest) else none
    else none
  | _ => none

def daysIn (year month : Nat) : Nat :=
  if month = 2 then
    if year % 4 = 0 && (year % 100 ≠ 0 || year % 400 = 0) then 29 else 28
  else if month = 4 || month = 6 || month = 9 || month = 11 then 30
  else 31

def date? (b : Bytes) : Option Bytes := do
  let year := b.take 4
  if year.length < 4 || !year.all Bytes.isDigit then none
  match b.drop 4 with
  | 0x2d :: rest =>
    let (month, rest) ← twoDigits? 13 rest
    match rest with
    | 0x2d :: rest =>
      let (day, rest) ← twoDigits? 32 rest
      if month = 0 || day = 0 || daysIn (ofDigits 10 year) month < day then none
      return rest
    | _ => none
  | _ => none

def hour? (b : Bytes) : Option Bytes :=
  match b.takeWhile Bytes.isDigit with
  | [_] => some (b.drop 1)
  | _ => (twoDigits? 24 b).map (·.2)

def clock? (b : Bytes) : Option Bytes := do
  let rest ← hour? b
  let rest ← if rest.head? = some 0x3a then some (rest.drop 1) else none
  let (_, rest) ← twoDigits? 60 rest
  let rest ← if rest.head? = some 0x3a then some (rest.drop 1) else none
  let (_, rest) ← twoDigits? 60 rest
  match rest with
  | 0x2e :: more =>
    let ds := more.takeWhile Bytes.isDigit
    if ds.isEmpty then none else return more.drop ds.length
  | _ => return rest

def isOffset : Bytes → Bool
  | [] => true
  | [c] => c = 0x5a || c = 0x7a
  | c :: rest =>
    (c = 0x2b || c = 0x2d) &&
      match twoDigits? 25 rest with
      | some (_, 0x3a :: rest) => ((twoDigits? 61 rest).map (·.2)) = some []
      | _ => false

def isTime (b : Bytes) : Bool :=
  match date? b with
  | none => clock? b = some []
  | some [] => true
  | some (c :: rest) =>
    (c = 0x54 || c = 0x74 || c = 0x20) &&
      match clock? rest with
      | some rest => isOffset rest
      | none => false

def isTimeChar (c : UInt8) : Bool := Bytes.isDigit c || (("-:Tt .Zz+" : Bytes).contains c)

def isWordChar (c : UInt8) : Bool := isBare c || c = 0x2b || c = 0x2e

def plain? (b : Bytes) : Read Value :=
  let leading := b.takeWhile Bytes.isDigit
  let mark := b[leading.length]?
  if (mark = some 0x2d || mark = some 0x3a) && leading ≠ [] && leading ≠ [0x30] then
    let s := Bytes.trimRight isBlank (b.takeWhile isTimeChar)
    if isTime s then some (.time, b.drop s.length) else none
  else
    let s := b.takeWhile isWordChar
    let v := if s = "true" then some (.bool true) else if s = "false" then some (.bool false)
      else number? s
    v.map (·, b.drop s.length)

/-! ## Values and lines -/

mutual

def value? : (fuel : Nat) → Bytes → Read Value
  | 0, _ => none
  | fuel + 1, b =>
    match b with
    | 0x5b :: rest => (items? fuel rest).map fun (vs, rest) => (.list vs, rest)
    | 0x7b :: rest =>
      match skip rest with
      | 0x7d :: rest => some (.inline [], rest)
      | rest => (members? fuel rest).map fun (ms, rest) => (.inline ms, rest)
    | 0x22 :: _ => (text? b).map fun (s, rest) => (.text s, rest)
    | 0x27 :: _ => (text? b).map fun (s, rest) => (.text s, rest)
    | _ => plain? b

def items? : (fuel : Nat) → Bytes → Read (List Value)
  | 0, _ => none
  | fuel + 1, b =>
    match skipLines b.length b with
    | 0x5d :: rest => some ([], rest)
    | b =>
      match value? fuel b with
      | none => none
      | some (v, rest) =>
        match skipLines rest.length rest with
        | 0x2c :: rest => (items? fuel rest).map fun (vs, rest) => (v :: vs, rest)
        | 0x5d :: rest => some ([v], rest)
        | _ => none

def members? : (fuel : Nat) → Bytes → Read (List (Key × Value))
  | 0, _ => none
  | fuel + 1, b =>
    match key? (b.length + 1) b with
    | some (k, 0x3d :: rest) =>
      match value? fuel (skip rest) with
      | none => none
      | some (v, rest) =>
        match skip rest with
        | 0x2c :: rest => (members? fuel rest).map fun (ms, rest) => ((k, v) :: ms, rest)
        | 0x7d :: rest => some ([(k, v)], rest)
        | _ => none
    | _ => none

end

def line? (b : Bytes) : Read Line :=
  match b with
  | 0x5b :: 0x5b :: rest =>
    match key? (rest.length + 1) rest with
    | some (k, 0x5d :: 0x5d :: rest) => some (.element k, rest)
    | _ => none
  | 0x5b :: rest =>
    match key? (rest.length + 1) rest with
    | some (k, 0x5d :: rest) => some (.table k, rest)
    | _ => none
  | _ =>
    match key? (b.length + 1) b with
    | some (k, 0x3d :: rest) =>
      (value? (rest.length + 1) (skip rest)).map fun (v, rest) => (.assign k v, rest)
    | _ => none

/-- Read lines up to the end of the text. Each takes at least a byte. -/
def lines? : (fuel : Nat) → Bytes → Option (List Line)
  | 0, _ => none
  | fuel + 1, b =>
    match skipLines b.length b with
    | [] => some []
    | b =>
      match line? b with
      | none => none
      | some (l, rest) =>
        match skipComment (skip rest) with
        | [] => some [l]
        | c :: rest => if isLineEnd c then (lines? fuel rest).map (l :: ·) else none

def parse? (b : Bytes) : Option (List Line) :=
  let b := withoutMark b
  if Utf8.valid b && controlsOk b then lines? (b.length + 1) b else none

end VecLang.Toml
