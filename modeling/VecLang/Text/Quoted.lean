import VecLang.Text.Utf8
import VecLang.Text.Unicode.Printable

/-!
# Quoted text

A text between double quotes in which everything unprintable is escaped, so that it can be
shown in a message on one line.
-/

namespace VecLang.Quoted

def escape (c : Char) : Bytes :=
  let n := c.toNat
  match n with
  | 0x07 => "\\a"
  | 0x08 => "\\b"
  | 0x0c => "\\f"
  | 0x0a => "\\n"
  | 0x0d => "\\r"
  | 0x09 => "\\t"
  | 0x0b => "\\v"
  | _ =>
    if n < 0x20 || n = 0x7f then "\\x" ++ Bytes.hexFixed 2 n
    else if n < 0x10000 then "\\u" ++ Bytes.hexFixed 4 n
    else "\\U" ++ Bytes.hexFixed 8 n

def piece (c : Char) (source : Bytes) : Bytes :=
  if c = Utf8.replacement && source.length = 1 then "\\x" ++ Bytes.toHex source
  else if c.toNat = 0x22 || c.toNat = 0x5c then 0x5c :: source
  else if Unicode.isPrintable c then source
  else escape c

def quote (b : Bytes) : Bytes :=
  "\"" ++ ((Utf8.pieces b).flatMap fun (c, source) => piece c source) ++ "\""

def quoteChar (c : Char) : Bytes :=
  let source := Utf8.encode [c]
  let text : Bytes :=
    if c.toNat = 0x27 || c.toNat = 0x5c then 0x5c :: source
    else if Unicode.isPrintable c then source
    else escape c
  "'" ++ text ++ "'"

end VecLang.Quoted
