import VecLang.Token.Basic
import VecLang.Diagnostic.Bag
import VecLang.Text.Unicode.Identifier
import VecLang.Text.Unicode.Normal

/-!
# Reading tokens

A text is read as a sequence of lexemes: a token together with what was found wrong on the way
to its end. Between tokens stand gaps of blanks and comments. Every text can be read; what does
not start a token becomes an invalid token of one character.
-/

namespace VecLang

inductive LexicalCause where
  /-- A character that starts no token. -/
  | unknownChar (text : Bytes)
  /-- A block comment without end. -/
  | unterminatedComment
  /-- An exponent mark without digits. -/
  | missingExponent
  /-- A word right behind a number. -/
  | badSuffix
  /-- A token of more bytes than allowed. -/
  | tooLong
deriving DecidableEq

/-- A fault of the text at some place. -/
structure LexicalFault where
  cause : LexicalCause
  span : Span
deriving DecidableEq

namespace LexicalCause

def code : LexicalCause → Code
  | unknownChar _ => .unknownChar
  | unterminatedComment => .unterminatedComment
  | missingExponent | badSuffix => .badNumber
  | tooLong => .tokenTooLong

def message : LexicalCause → Bytes
  | unknownChar text => "unexpected character " ++ text
  | unterminatedComment => "unterminated block comment"
  | missingExponent => "expected digits in exponent"
  | badSuffix => "invalid suffix on number literal"
  | tooLong => "token exceeds the configured length limit"

end LexicalCause

def LexicalFault.toDiagnostic (f : LexicalFault) : Diagnostic :=
  .error f.cause.code f.span f.cause.message

/-- A token and the faults met since the end of the token before it. -/
structure Lexeme where
  token : Token
  faults : List LexicalFault
deriving DecidableEq

namespace Lexer

/-! ## Gaps -/

/-- White space between tokens. -/
def isBlank (c : UInt8) : Bool := c = 0x20 || c = 0x09 || c = 0x0a || c = 0x0d

def blockEnd? : Bytes → Option Nat
  | [] => none
  | c :: rest =>
    if c = 0x2a && rest.head? = some 0x2f then some 2 else (blockEnd? rest).map (· + 1)

structure Gap where
  /-- Its number of bytes. -/
  length : Nat
  /-- Where in it a comment without end begins. -/
  unterminated : Option Nat
deriving DecidableEq

def Gap.after (n : Nat) (g : Gap) : Gap := ⟨n + g.length, g.unterminated.map (n + ·)⟩

def gap : Bytes → Gap
  | [] => ⟨0, none⟩
  | c :: rest =>
    if isBlank c then (gap rest).after 1
    else if c = 0x2f && rest.head? = some 0x2f then
      let n := (rest.takeWhile (· ≠ 0x0a)).length
      (gap (rest.drop n)).after (n + 1)
    else if c = 0x2f && rest.head? = some 0x2a then
      match blockEnd? (rest.drop 1) with
      | some n => (gap (rest.drop (n + 1))).after (n + 2)
      | none => ⟨rest.length + 1, some 0⟩
    else ⟨0, none⟩
termination_by b => b.length
decreasing_by all_goals simp only [List.length_cons, List.length_drop]; omega

/-! ## Words and numbers -/

def isWordStart (c : UInt8) : Bool :=
  c = 0x5f || (0x61 ≤ c && c ≤ 0x7a) || (0x41 ≤ c && c ≤ 0x5a)

def isWordByte (c : UInt8) : Bool := isWordStart c || Bytes.isDigit c

def wordChar? (c : UInt8) (rest : Bytes) : Option Nat :=
  if c < 0x80 then if isWordByte c then some 0 else none
  else
    let first := Utf8.first (c :: rest)
    if Unicode.isIdentifierChar first.1 then some (first.2 - 1) else none

def wordLength : Bytes → Nat
  | [] => 0
  | c :: rest =>
    match wordChar? c rest with
    | none => 0
    | some n => 1 + n + wordLength (rest.drop n)
termination_by b => b.length
decreasing_by simp only [List.length_cons, List.length_drop]; omega

def isNumberByte (c : UInt8) : Bool := Bytes.isDigit c || c = 0x5f

def digitRun (b : Bytes) : Nat := (b.takeWhile isNumberByte).length

/-- A piece of text read as one token: its length, its kind and what is wrong with it. -/
structure Scanned where
  length : Nat
  kind : TokenKind
  cause : Option LexicalCause := none
deriving DecidableEq

/-- The point of a number and what follows it. A point before a letter belongs to a swizzle. -/
def fractionLength (b : Bytes) : Nat :=
  match b with
  | 0x2e :: rest =>
    match rest.head? with
    | none => 1
    | some c => if Bytes.isDigit c then 1 + digitRun rest else if isWordStart c then 0 else 1
  | _ => 0

def signLength (b : Bytes) : Nat :=
  match b with
  | c :: _ => if c = 0x2b || c = 0x2d then 1 else 0
  | [] => 0

def exponentLength (b : Bytes) : Nat × Bool :=
  match b with
  | c :: rest =>
    if c = 0x65 || c = 0x45 then
      let sign := signLength rest
      let digits := rest.drop sign
      if (digits.head?.map Bytes.isDigit).getD false then (1 + sign + digitRun digits, true)
      else (1 + sign, false)
    else (0, true)
  | [] => (0, true)

def hasImaginaryMark (b : Bytes) : Bool :=
  match b with
  | c :: rest => c = 0x69 && !(rest.head?.map isWordByte).getD false
  | [] => false

/-- A number whose first `n` bytes are read, with what follows them: the mark of an imaginary one, or a
word that does not belong there. -/
def closeNumber (real : Bool) (n : Nat) (b : Bytes) : Scanned :=
  let imaginary := hasImaginaryMark b
  let mark := if imaginary then 1 else 0
  let suffix := ((b.drop mark).takeWhile isWordByte).length
  if suffix ≠ 0 then ⟨n + mark + suffix, .invalid, some .badSuffix⟩
  else ⟨n + mark, if imaginary then .imagLit else if real then .realLit else .intLit, none⟩

def scanNumber (b : Bytes) : Scanned :=
  let whole := digitRun b
  let fraction := fractionLength (b.drop whole)
  let exponent := exponentLength (b.drop (whole + fraction))
  let length := whole + fraction + exponent.1
  if exponent.2 then closeNumber (fraction ≠ 0 || exponent.1 ≠ 0) length (b.drop length)
  else ⟨length, .invalid, some .missingExponent⟩

def scanWord (b : Bytes) : Scanned × Bytes :=
  let n := wordLength b
  if n = 0 then
    let size := (Utf8.first b).2
    let text := b.take size
    (⟨size, .invalid, some (.unknownChar text)⟩, text)
  else
    let text := Unicode.normalize (b.take n)
    (⟨n, (TokenKind.keyword? text).getD .ident, none⟩, text)

/-- The operator or punctuation at the front of a text, given as its first byte and the one
after it. -/
def operator? (c : UInt8) (next : Option UInt8) : Option (Nat × TokenKind) :=
  let pair (second : UInt8) (long short : TokenKind) :=
    if next = some second then (2, long) else (1, short)
  match c with
  | 0x2b => some (1, .plus)
  | 0x2d => some (pair 0x3e .arrow .minus)
  | 0x2a => some (1, .star)
  | 0x2f => some (1, .slash)
  | 0x3d => some (pair 0x3d .eqEq .assign)
  | 0x21 => if next = some 0x3d then some (2, .bangEq) else none
  | 0x3c => some (pair 0x3d .ltEq .lt)
  | 0x3e => some (pair 0x3d .gtEq .gt)
  | 0x28 => some (1, .lparen)
  | 0x29 => some (1, .rparen)
  | 0x7b => some (1, .lbrace)
  | 0x7d => some (1, .rbrace)
  | 0x2c => some (1, .comma)
  | 0x3b => some (1, .semicolon)
  | 0x3a => some (1, .colon)
  | 0x2e => some (1, .dot)
  | _ => none

/-- Whether a number begins here: with a digit, or with a point and a digit. -/
def startsNumber (c : UInt8) (rest : Bytes) : Bool :=
  Bytes.isDigit c || (c = 0x2e && (rest.head?.map Bytes.isDigit).getD false)

/-- Read the token at the front of a text that starts with the byte `c`, with its text. -/
def scan (c : UInt8) (rest : Bytes) : Scanned × Bytes :=
  let b := c :: rest
  if isWordStart c || 0x80 ≤ c then scanWord b
  else if startsNumber c rest then
    let s := scanNumber b
    (s, b.take s.length)
  else match operator? c rest.head? with
    | some (n, k) => (⟨n, k, none⟩, b.take n)
    | none => (⟨1, .invalid, some (.unknownChar [c])⟩, [c])

/-! ## Whole texts -/

structure Options where
  /-- Number of the file that spans refer to. -/
  file : Nat := 0
  /-- The longest token accepted, in bytes; zero for no limit. -/
  maxToken : Nat := 0

def gapFaults (o : Options) (off : Nat) (g : Gap) : List LexicalFault :=
  match g.unterminated with
  | none => []
  | some n => [⟨.unterminatedComment, ⟨o.file, off + n, off + g.length⟩⟩]

def tokenFaults (o : Options) (s : Scanned) (span : Span) : List LexicalFault :=
  (s.cause.map fun c => ⟨c, span⟩).toList ++
    if 0 < o.maxToken && o.maxToken < span.length then [⟨.tooLong, span⟩] else []

/-- The text behind a gap and the first token is shorter than the text. -/
theorem length_afterToken_lt {b rest : Bytes} {c : UInt8} {m : Nat} (n : Nat)
    (h : b.drop m = c :: rest) : (rest.drop n).length < b.length := by
  have := congrArg List.length h
  simp only [List.length_drop, List.length_cons] at this ⊢
  omega

/-- The lexemes of a text that begins at offset `off`. The last and only the last is the end of
the text. -/
def lexemesFrom (o : Options) (off : Nat) (b : Bytes) : List Lexeme :=
  let g := gap b
  let start := off + g.length
  match h : b.drop g.length with
  | [] => [⟨⟨.eof, ⟨o.file, start, start⟩, []⟩, gapFaults o off g⟩]
  | c :: rest =>
    let s := scan c rest
    let span : Span := ⟨o.file, start, start + s.1.length⟩
    ⟨⟨s.1.kind, span, s.2⟩, gapFaults o off g ++ tokenFaults o s.1 span⟩
      :: lexemesFrom o (start + s.1.length) (rest.drop (s.1.length - 1))
termination_by b.length
decreasing_by exact length_afterToken_lt _ h

def lexemes (o : Options) (content : Bytes) : List Lexeme := lexemesFrom o 0 content

def tokens (ls : List Lexeme) : List Token := ls.map (·.token)

def diagnostics (ls : List Lexeme) : List Diagnostic :=
  ls.flatMap fun l => l.faults.map LexicalFault.toDiagnostic

/-- What a reader asks for: to look at the next token, or to take it. -/
inductive Request where
  | look
  | take
deriving DecidableEq

/-- Serve requests one after the other. The faults of a lexeme are met when its token is first
looked at; the end of the text can be taken any number of times. -/
def serve : List Lexeme → List Request → List Token × List Diagnostic
  | [], _ => ([], [])
  | _, [] => ([], [])
  | l :: ls, .look :: rs =>
    let (ts, ds) := serve (⟨l.token, []⟩ :: ls) rs
    (l.token :: ts, l.faults.map LexicalFault.toDiagnostic ++ ds)
  | l :: ls, .take :: rs =>
    let left := if ls.isEmpty then [⟨l.token, []⟩] else ls
    let (ts, ds) := serve left rs
    (l.token :: ts, l.faults.map LexicalFault.toDiagnostic ++ ds)

end Lexer

end VecLang
