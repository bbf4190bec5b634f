import VecLang.Number.Integer
import VecLang.Text.Quoted

/-!
# Frames

A message travels in a frame: header lines of the form `Name: value`, an empty line, and as many
bytes as the header `Content-Length` says. Lines end in a line feed, which a carriage return may
precede; a line that starts with a blank continues the one before it.
-/

namespace VecLang.Server.Frame

/-- Why some input is no frame. -/
inductive Fault where
  /-- The first line starts with a blank. -/
  | indented (line : Bytes)
  /-- The first line starts with a blank and is too long to be shown. -/
  | longIndented
  | noColon (line : Bytes)
  /-- A header has a character it may not have. -/
  | badHeader (line : Bytes)
  | noLength
  | badLength (value : Bytes)
  /-- The input ends inside a message. -/
  | truncated
deriving DecidableEq, Inhabited

def Fault.message : Fault → Bytes
  | indented line => "malformed MIME header initial line: " ++ line
  | longIndented => "message too large"
  | noColon line => "malformed MIME header: missing colon: " ++ Quoted.quote line
  | badHeader line => "malformed MIME header line: " ++ line
  | noLength => "missing Content-Length header"
  | badLength value => "invalid Content-Length " ++ Quoted.quote value
  | truncated => "unexpected EOF"

inductive Reading where
  /-- A frame and the input behind it. -/
  | message (payload rest : Bytes)
  /-- The beginning of a frame, or nothing: it takes more input to tell. -/
  | more
  /-- No frame starts like that. -/
  | bad (fault : Fault)
  /-- The announced message is larger than any memory. -/
  | oversized
deriving DecidableEq, Inhabited

def maxSize : Nat := 0x1000000000000

def isBlank (c : UInt8) : Bool := c = 0x20 || c = 0x09

/-- The first line and the input behind it. When the input has ended, its last line needs no line
end. -/
def takeLine? (ended : Bool) (b : Bytes) : Option (Bytes × Bytes) :=
  match Bytes.cut 0x0a b with
  | some (line, rest) =>
    some (if line.getLast? = some 0x0d then line.dropLast else line, rest)
  | none => if ended && !b.isEmpty then some (b, []) else none

def isNameChar (c : UInt8) : Bool :=
  Bytes.isDigit c || (0x41 ≤ c && c ≤ 0x5a) || (0x61 ≤ c && c ≤ 0x7a)
    || (("!#$%&'*+-.^_|~\x60" : Bytes).contains c)

def isValueChar (c : UInt8) : Bool := 0x20 ≤ c && c ≠ 0x7f || c = 0x09

abbrev Header := Bytes × Bytes

/-- The header in a line with its continuations. Its name may hold blanks, but not be empty. -/
def header? (line : Bytes) : Option Header :=
  match Bytes.cut 0x3a line with
  | some (name, value) =>
    if !name.isEmpty && name.all (fun c => isNameChar c || c = 0x20) && value.all isValueChar then
      some (name, Bytes.trimLeft isBlank value)
    else none
  | none => none

/-- Add the lines that continue a line. `none` when more input is needed to tell where they end. -/
def continued? (ended : Bool) : (fuel : Nat) → (line rest : Bytes) → Option (Bytes × Bytes)
  | 0, line, rest => some (line, rest)
  | fuel + 1, line, rest =>
    match rest with
    | [] => if ended then some (line, rest) else none
    | c :: _ =>
      if !isBlank c then some (line, rest)
      else
        let tail := rest.dropWhile isBlank
        match takeLine? ended tail with
        | some (more, rest) =>
          continued? ended fuel (line ++ [0x20] ++ Bytes.trim isBlank more) rest
        | none => if ended then some (line ++ [0x20], tail) else none

/-- The header lines of a frame, read up to the empty line. -/
inductive Headers where
  | done (headers : List Header) (rest : Bytes)
  | more
  | bad (fault : Fault)
deriving DecidableEq, Inhabited

/-- Read header lines. Each turn takes a line, so as many turns as there are bytes are enough. -/
def headers (ended : Bool) : (fuel : Nat) → (acc : List Header) → Bytes → Headers
  | 0, _, _ => .more
  | fuel + 1, acc, b =>
    match takeLine? ended b with
    | none => .more
    | some ([], rest) => .done acc.reverse rest
    | some (line, rest) =>
      if !line.contains 0x3a then .bad (.noColon line)
      else match continued? ended rest.length (Bytes.trim isBlank line) rest with
        | none => .more
        | some (line, rest) =>
          match header? line with
          | none => .bad (.badHeader line)
          | some h => headers ended fuel (h :: acc) rest

/-- The number of bytes of the message that headers announce. The first header of that name
counts, written with small or capital letters. -/
def contentLength (hs : List Header) : Except Fault Nat :=
  match hs.find? fun h => Bytes.toLower h.1 = "content-length" with
  | some (_, []) => .error .noLength
  | some (_, value) =>
    match Integer.ofDecimal? value with
    | some n => if n < 0 then .error (.badLength value) else .ok n.toNat
    | none => .error (.badLength value)
  | none => .error .noLength

/-- Read a frame off the front of the input, of which there is no more when it has `ended`. -/
def read (ended : Bool) (b : Bytes) : Reading :=
  match b with
  | [] => .more
  | c :: _ =>
    if isBlank c then
      match takeLine? ended b with
      | some (line, _) => .bad (if line.length ≤ 80 then .indented line else .longIndented)
      | none => .more
    else match headers ended (b.length + 1) [] b with
      | .more => .more
      | .bad fault => .bad fault
      | .done hs rest =>
        match contentLength hs with
        | .error fault => .bad fault
        | .ok n =>
          if maxSize < n then .oversized
          else if n ≤ rest.length then .message (rest.take n) (rest.drop n)
          else if ended && !rest.isEmpty then .bad .truncated
          else .more

def write (payload : Bytes) : Bytes :=
  "Content-Length: " ++ Bytes.ofNat payload.length ++ "\r\n\r\n" ++ payload

end VecLang.Server.Frame
