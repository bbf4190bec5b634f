import VecLang.Text.Bytes

/-!
# Spans

A span is a half-open range of byte offsets in one file.
-/

namespace VecLang

structure Span where
  /-- Number of the file in its file set. -/
  file : Nat
  /-- Offset of the first byte. -/
  start : Nat
  /-- Offset behind the last byte. -/
  stop : Nat
deriving DecidableEq, Inhabited

namespace Span

/-- The span at the beginning of the first file, of a node that has no place in a text. -/
def none : Span := ⟨0, 0, 0⟩

def isEmpty (s : Span) : Bool := s.start = s.stop

/-- The number of bytes, counted in words of 32 bits. -/
def length (s : Span) : Nat := (s.stop + 0x100000000 - s.start) % 0x100000000

/-- The smallest span around both; a span of another file leaves the first as it is. -/
def cover (s t : Span) : Span :=
  if s.file = t.file then ⟨s.file, min s.start t.start, max s.stop t.stop⟩ else s

def render (s : Span) : Bytes :=
  Bytes.ofNat s.file ++ ":" ++ Bytes.ofNat s.start ++ "-" ++ Bytes.ofNat s.stop

end Span

end VecLang
