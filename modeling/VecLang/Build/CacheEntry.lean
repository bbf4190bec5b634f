import VecLang.Text.Bytes

/-!
# Entries of the cache

A compiled file as it is kept: a map from the names of its parts to their values, in the binary
format MessagePack. Reading allows every way the format has to write a number or a text, skips
members of other names, and takes what is missing for zero or empty.
-/

namespace VecLang.Build

structure CachedUnit where
  /-- The number of the format. -/
  schema : Nat := 0
  /-- The key it is kept under, 32 bytes. -/
  key : Bytes := Bytes.replicate 32 0
  version : Bytes := []
  path : Bytes := []
  asm : Bytes := []
deriving DecidableEq, Inhabited

namespace CachedUnit

/-- The number of the format that is written. -/
def currentSchema : Nat := 1

/-! ## Writing -/

/-- A number in a fixed count of bytes, the highest first. -/
def bigEndian : (width : Nat) → Nat → Bytes
  | 0, _ => []
  | w + 1, n => UInt8.ofNat (n / Nat.pow 256 w) :: bigEndian w (n % Nat.pow 256 w)

def encodeText (b : Bytes) : Bytes :=
  let n := b.length
  let header : Bytes :=
    if n < 32 then [UInt8.ofNat (0xa0 + n)]
    else if n < 256 then 0xd9 :: bigEndian 1 n
    else if n < 65536 then 0xda :: bigEndian 2 n
    else 0xdb :: bigEndian 4 n
  header ++ b

def encodeBinary (b : Bytes) : Bytes :=
  let n := b.length
  let header : Bytes :=
    if n < 256 then 0xc4 :: bigEndian 1 n
    else if n < 65536 then 0xc5 :: bigEndian 2 n
    else 0xc6 :: bigEndian 4 n
  header ++ b

def encode (u : CachedUnit) : Bytes :=
  [0x85] ++ encodeText "Schema" ++ 0xcd :: bigEndian 2 u.schema
    ++ encodeText "Key" ++ encodeBinary u.key
    ++ encodeText "Version" ++ encodeText u.version
    ++ encodeText "Path" ++ encodeText u.path
    ++ encodeText "Asm" ++ encodeBinary u.asm

/-! ## Reading -/

abbrev Read (α : Type) := Option (α × Bytes)

def natOf? (width : Nat) (b : Bytes) : Read Nat :=
  if b.length < width then none
  else some ((b.take width).foldl (fun n d => 256 * n + d.toNat) 0, b.drop width)

/-- Read a signed number of a fixed count of bytes, as a word of 64 bits. -/
def signedOf? (width : Nat) (b : Bytes) : Read Nat :=
  (natOf? width b).map fun (n, rest) =>
    (if n < Nat.pow 256 width / 2 then n else n + 0x10000000000000000 - Nat.pow 256 width, rest)

/-- Read a whole number as a word of 64 bits; nil is zero. -/
def word? : Bytes → Read Nat
  | [] => none
  | c :: rest =>
    if c = 0xc0 then some (0, rest)
    else if c < 0x80 then some (c.toNat, rest)
    else if 0xe0 ≤ c then some (c.toNat + 0x10000000000000000 - 256, rest)
    else match c with
      | 0xcc => natOf? 1 rest
      | 0xcd => natOf? 2 rest
      | 0xce => natOf? 4 rest
      | 0xcf => natOf? 8 rest
      | 0xd0 => signedOf? 1 rest
      | 0xd1 => signedOf? 2 rest
      | 0xd2 => signedOf? 4 rest
      | 0xd3 => signedOf? 8 rest
      | _ => none

/-- Read the header of a text or of bytes: their number, or nothing for nil. -/
def textLength? : Bytes → Read (Option Nat)
  | [] => none
  | c :: rest =>
    let sized (r : Read Nat) : Read (Option Nat) := r.map fun (n, rest) => (some n, rest)
    if c = 0xc0 then some (none, rest)
    else if 0xa0 ≤ c && c < 0xc0 then some (some (c.toNat - 0xa0), rest)
    else match c with
      | 0xc4 => sized (natOf? 1 rest)
      | 0xc5 => sized (natOf? 2 rest)
      | 0xc6 => sized (natOf? 4 rest)
      | 0xd9 => sized (natOf? 1 rest)
      | 0xda => sized (natOf? 2 rest)
      | 0xdb => sized (natOf? 4 rest)
      | _ => none

def text? (b : Bytes) : Read Bytes :=
  match textLength? b with
  | none => none
  | some (none, rest) => some ([], rest)
  | some (some n, rest) => if rest.length < n then none else some (rest.take n, rest.drop n)

/-- Read a key over an earlier one: fewer bytes leave the others as they are. -/
def key? (old : Bytes) (b : Bytes) : Read Bytes :=
  match text? b with
  | none => none
  | some (k, rest) => if 32 < k.length then none else some (k ++ old.drop k.length, rest)

/-- The number of things inside a value and the bytes behind its header, or behind all of it when
nothing is inside. -/
def skipHeader? : Bytes → Read Nat
  | [] => none
  | c :: rest =>
    let skip (n : Nat) : Read Nat := if rest.length < n then none else some (0, rest.drop n)
    let sized (width extra : Nat) : Read Nat :=
      match natOf? width rest with
      | some (n, rest) => if rest.length < n + extra then none else some (0, rest.drop (n + extra))
      | none => none
    if c < 0x80 || 0xe0 ≤ c then some (0, rest)
    else if c < 0x90 then some (2 * (c.toNat - 0x80), rest)
    else if c < 0xa0 then some (c.toNat - 0x90, rest)
    else if c < 0xc0 then skip (c.toNat - 0xa0)
    else match c with
      | 0xc0 => skip 0
      | 0xc2 => skip 0
      | 0xc3 => skip 0
      | 0xc4 => sized 1 0
      | 0xc5 => sized 2 0
      | 0xc6 => sized 4 0
      | 0xc7 => sized 1 1
      | 0xc8 => sized 2 1
      | 0xc9 => sized 4 1
      | 0xca => skip 4
      | 0xcb => skip 8
      | 0xcc => skip 1
      | 0xcd => skip 2
      | 0xce => skip 4
      | 0xcf => skip 8
      | 0xd0 => skip 1
      | 0xd1 => skip 2
      | 0xd2 => skip 4
      | 0xd3 => skip 8
      | 0xd4 => skip 2
      | 0xd5 => skip 3
      | 0xd6 => skip 5
      | 0xd7 => skip 9
      | 0xd8 => skip 17
      | 0xd9 => sized 1 0
      | 0xda => sized 2 0
      | 0xdb => sized 4 0
      | 0xdc => natOf? 2 rest
      | 0xdd => natOf? 4 rest
      | 0xde => (natOf? 2 rest).map fun (n, rest) => (2 * n, rest)
      | 0xdf => (natOf? 4 rest).map fun (n, rest) => (2 * n, rest)
      | _ => none

/-- The bytes behind a count of values. Each value takes a byte, so the number of bytes is enough
for the turns. -/
def skipValues? : (fuel count : Nat) → Bytes → Option Bytes
  | _, 0, b => some b
  | 0, _ + 1, _ => none
  | fuel + 1, count + 1, b =>
    match skipHeader? b with
    | some (inner, rest) => skipValues? fuel (count + inner) rest
    | none => none

def field? (u : CachedUnit) (name : Bytes) (b : Bytes) : Read CachedUnit :=
  if name = "Schema" then (word? b).map fun (n, rest) => ({ u with schema := n % 65536 }, rest)
  else if name = "Key" then (key? u.key b).map fun (key, rest) => ({ u with key }, rest)
  else if name = "Version" then (text? b).map fun (version, rest) => ({ u with version }, rest)
  else if name = "Path" then (text? b).map fun (path, rest) => ({ u with path }, rest)
  else if name = "Asm" then (text? b).map fun (asm, rest) => ({ u with asm }, rest)
  else (skipValues? b.length 1 b).map (u, ·)

def members? : (count : Nat) → CachedUnit → Bytes → Option CachedUnit
  | 0, u, _ => some u
  | n + 1, u, b =>
    match text? b with
    | none => none
    | some (name, rest) =>
      match u.field? name rest with
      | some (u, rest) => members? n u rest
      | none => none

def parts? (b : Bytes) : Option CachedUnit :=
  let names : List Bytes := ["Schema", "Key", "Version", "Path", "Asm"]
  let read (r : CachedUnit × Bytes) (name : Bytes) : Read CachedUnit := r.1.field? name r.2
  (names.foldlM read ({}, b)).map (·.1)

/-- Read a list of parts; an empty list is an empty entry. -/
def listed? (count : Nat) (b : Bytes) : Option CachedUnit :=
  if count = 0 then some {} else if count = 5 then parts? b else none

/-- Read an entry. Bytes behind it do not matter. -/
def decode? : Bytes → Option CachedUnit
  | [] => none
  | c :: rest =>
    if c = 0xc0 then some {}
    else if 0x80 ≤ c && c < 0x90 then members? (c.toNat - 0x80) {} rest
    else if 0x90 ≤ c && c < 0xa0 then listed? (c.toNat - 0x90) rest
    else match c with
      | 0xdc => (natOf? 2 rest).bind fun (n, rest) => listed? n rest
      | 0xdd => (natOf? 4 rest).bind fun (n, rest) => listed? n rest
      | 0xde => (natOf? 2 rest).bind fun (n, rest) => members? n {} rest
      | 0xdf => (natOf? 4 rest).bind fun (n, rest) => members? n {} rest
      | _ => none

end CachedUnit

end VecLang.Build
