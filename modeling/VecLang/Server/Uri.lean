import VecLang.Text.Path

/-!
# Addresses of files

A document is named by a URI. One of scheme `file` names a file, one without a scheme is a path
itself, and no other names a file.
-/

namespace VecLang.Server.Uri

def isLetter (c : UInt8) : Bool := (0x41 ≤ c && c ≤ 0x5a) || (0x61 ≤ c && c ≤ 0x7a)

/-- A character no part of a URI may hold. -/
def isControl (c : UInt8) : Bool := c < 0x20 || c = 0x7f

/-- A character that may stand in a scheme behind the first letter. -/
def isSchemeTail (c : UInt8) : Bool :=
  isLetter c || Bytes.isDigit c || c = 0x2b || c = 0x2d || c = 0x2e

/-- The scheme and what is behind its colon. Without a scheme the whole text is left; a colon at
the very beginning is an error. -/
def splitScheme? (b : Bytes) : Option (Option Bytes × Bytes) :=
  match b with
  | 0x3a :: _ => none
  | c :: _ =>
    if isLetter c then
      match b.dropWhile isSchemeTail with
      | 0x3a :: rest => some (some (Bytes.toLower (b.takeWhile isSchemeTail)), rest)
      | _ => some (none, b)
    else some (none, b)
  | [] => some (none, b)

/-- The text with escapes of the form `%2f` replaced by the bytes they stand for. Fails on a
percent sign that is not followed by two hexadecimal digits. -/
def unescape? : Bytes → Option Bytes
  | 0x25 :: a :: b :: rest =>
    match Bytes.hexValue? a, Bytes.hexValue? b with
    | some x, some y => (unescape? rest).map (UInt8.ofNat (16 * x + y) :: ·)
    | _, _ => none
  | 0x25 :: _ => none
  | c :: rest => (unescape? rest).map (c :: ·)
  | [] => some []

def isHostChar (c : UInt8) : Bool :=
  0x80 ≤ c || isLetter c || Bytes.isDigit c || (("-_.~!$&'()*+,;=:[]<>\"" : Bytes).contains c)

/-- Whether every escape of a host stands for a percent sign or for a byte outside ASCII, and
every other character may stand in a host. -/
def hostText : Bytes → Bool
  | 0x25 :: a :: b :: rest =>
    match Bytes.hexValue? a, Bytes.hexValue? b with
    | some x, some y => (8 ≤ x || 16 * x + y = 0x25) && hostText rest
    | _, _ => false
  | 0x25 :: _ => false
  | c :: rest => isHostChar c && hostText rest
  | [] => true

def cutLast (sep : UInt8) (b : Bytes) : Option (Bytes × Bytes) :=
  (Bytes.cut sep b.reverse).map fun (after, before) => (before.reverse, after.reverse)

/-- Whether a text is absent or a colon with a number behind it, which may be empty. -/
def optionalNumber : Bytes → Bool
  | [] => true
  | c :: digits => c = 0x3a && digits.all Bytes.isDigit

/-- Whether a host may be named so: it is a name or a bracketed address, and a number. -/
def hostOk (b : Bytes) : Bool :=
  let numbered : Bool :=
    if b.contains 0x5b then
      match cutLast 0x5d b with
      | some (_, after) => optionalNumber after
      | none => false
    else
      match cutLast 0x3a b with
      | some (_, after) => optionalNumber (0x3a :: after)
      | none => true
  numbered && hostText b

def isUserChar (c : UInt8) : Bool :=
  isLetter c || Bytes.isDigit c || (("-._:~!$&'()*+,;=%@" : Bytes).contains c)

/-- Whether the part behind two slashes names a user and a host, or a host. -/
def authorityOk (b : Bytes) : Bool :=
  match cutLast 0x40 b with
  | none => hostOk b
  | some (user, host) => hostOk host && user.all isUserChar && (unescape? user).isSome

/-- The path of a URI, whose scheme, query and fragment are cut off. -/
def path? (scheme : Option Bytes) (rest : Bytes) : Option Bytes :=
  match rest with
  | 0x2f :: 0x2f :: afterSlashes =>
    if scheme.isNone && afterSlashes.head? = some Path.slash then unescape? rest
    else if authorityOk (afterSlashes.takeWhile (· ≠ Path.slash)) then
      unescape? (afterSlashes.dropWhile (· ≠ Path.slash))
    else none
  | 0x2f :: _ => unescape? rest
  | _ =>
    if scheme.isSome then some []
    else if (rest.takeWhile (· ≠ Path.slash)).contains 0x3a then none
    else unescape? rest

def parse? (uri : Bytes) : Option (Option Bytes × Bytes) := do
  let main := uri.takeWhile (· ≠ 0x23)
  let fragment := (uri.dropWhile (· ≠ 0x23)).drop 1
  if main.any isControl then none
  let (scheme, rest) ← splitScheme? main
  let path ← path? scheme (rest.takeWhile (· ≠ 0x3f))
  let _ ← unescape? fragment
  return (scheme, path)

def toPath (uri : Bytes) : Bytes :=
  if uri.isEmpty then []
  else match parse? uri with
    | some (some scheme, path) => if scheme = "file" then Path.clean path else []
    | some (none, _) => Path.clean uri
    | none => []

def isPathChar (c : UInt8) : Bool :=
  isLetter c || Bytes.isDigit c || (("-_.~$&+,/:;=@" : Bytes).contains c)

/-- A byte written as itself, or as a percent sign and two digits. -/
def escapeByte (c : UInt8) : Bytes :=
  if isPathChar c then [c]
  else 0x25 :: (Bytes.hexFixed 2 c.toNat).map fun d => if isLetter d then d - 0x20 else d

/-- The URI of a file; a relative path is taken from a directory. -/
def ofPath (cwd path : Bytes) : Bytes :=
  if path.isEmpty then [] else "file://" ++ (Path.absolute cwd path).flatMap escapeByte

end VecLang.Server.Uri
