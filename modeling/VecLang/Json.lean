import VecLang.Text.Utf8

/-!
# JSON

Values and two writers. A number is kept as the text it was written with and an object as the list
of its members, so that what is read can be written back.
-/

namespace VecLang

inductive Json where
  | null
  | bool (b : Bool)
  /-- A number, as its text. -/
  | num (text : Bytes)
  | str (text : Bytes)
  | arr (items : List Json)
  | obj (members : List (Bytes × Json))

namespace Json

def int (n : Int) : Json := .num (Bytes.ofInt n)

def nat (n : Nat) : Json := .num (Bytes.ofNat n)

def lit (s : String) : Json := .str s

/-- A value that may be absent. -/
def opt (f : α → Json) : Option α → Json
  | none => .null
  | some a => f a

def list (f : α → Json) (xs : List α) : Json := .arr (xs.map f)

def member? (name : Bytes) : Json → Option Json
  | .obj ms => (ms.reverse.find? (·.1 = name)).map (·.2)
  | _ => none

/-! ## Writing -/

/-- A character inside a string. The characters that matter in HTML and the two line
separators are escaped too. -/
def escapeChar (c : Char) (source : Bytes) : Bytes :=
  let n := c.toNat
  if n = 0x22 || n = 0x5c then 0x5c :: source
  else if n = 0x08 then "\\b"
  else if n = 0x0c then "\\f"
  else if n = 0x0a then "\\n"
  else if n = 0x0d then "\\r"
  else if n = 0x09 then "\\t"
  else if n < 0x20 || n = 0x3c || n = 0x3e || n = 0x26 || n = 0x2028 || n = 0x2029 then
    "\\u" ++ Bytes.hexFixed 4 n
  else if c = Utf8.replacement && source.length = 1 then "\\ufffd"
  else source

def quoteText (b : Bytes) : Bytes :=
  0x22 :: ((Utf8.pieces b).flatMap fun (c, source) => escapeChar c source) ++ [0x22]

mutual

def compactOnto (rest : Bytes) : Json → Bytes
  | .null => "null" ++ rest
  | .bool b => Bytes.ofBool b ++ rest
  | .num t => t ++ rest
  | .str s => quoteText s ++ rest
  | .arr xs => 0x5b :: itemsOnto (0x5d :: rest) xs
  | .obj ms => 0x7b :: membersOnto (0x7d :: rest) ms

def itemsOnto (rest : Bytes) : List Json → Bytes
  | [] => rest
  | [x] => compactOnto rest x
  | x :: y :: more => compactOnto (0x2c :: itemsOnto rest (y :: more)) x

def membersOnto (rest : Bytes) : List (Bytes × Json) → Bytes
  | [] => rest
  | [(k, v)] => quoteText k ++ 0x3a :: compactOnto rest v
  | (k, v) :: m :: more =>
    quoteText k ++ 0x3a :: compactOnto (0x2c :: membersOnto rest (m :: more)) v

end

/-- The value without any blank. -/
def compact (j : Json) : Bytes := compactOnto [] j

/-- A line break followed by two blanks for every level. -/
def newline (level : Nat) : Bytes := 0x0a :: Bytes.spaces (2 * level)

mutual

/-- The value with every item and member on a line of its own, two blanks deeper than its
parent. -/
def indented (level : Nat) : Json → Bytes
  | .arr [] => "[]"
  | .arr (x :: xs) =>
    0x5b :: newline (level + 1) ++ indentedItems (level + 1) (x :: xs) ++ newline level ++ [0x5d]
  | .obj [] => [0x7b, 0x7d]
  | .obj (m :: ms) =>
    0x7b :: newline (level + 1) ++ indentedMembers (level + 1) (m :: ms) ++ newline level ++ [0x7d]
  | .null => "null"
  | .bool b => Bytes.ofBool b
  | .num t => t
  | .str s => quoteText s

def indentedItems (level : Nat) : List Json → Bytes
  | [] => []
  | [x] => indented level x
  | x :: y :: rest => indented level x ++ 0x2c :: newline level ++ indentedItems level (y :: rest)

def indentedMembers (level : Nat) : List (Bytes × Json) → Bytes
  | [] => []
  | [(k, v)] => quoteText k ++ ": " ++ indented level v
  | (k, v) :: m :: rest =>
    quoteText k ++ ": " ++ indented level v ++ 0x2c :: newline level
      ++ indentedMembers level (m :: rest)

end

end Json

end VecLang
