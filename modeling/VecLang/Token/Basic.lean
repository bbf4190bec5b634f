import VecLang.Source.Span

/-!
# Tokens
-/

namespace VecLang

inductive TokenKind where
  | invalid
  | eof
  | ident
  | intLit
  | realLit
  | imagLit
  | kwFn
  | kwLet
  | kwConst
  | kwIf
  | kwElse
  | kwWhile
  | kwReturn
  | kwBreak
  | kwContinue
  | kwTrue
  | kwFalse
  | kwAnd
  | kwOr
  | kwNot
  | plus
  | minus
  | star
  | slash
  | assign
  | eqEq
  | bangEq
  | lt
  | ltEq
  | gt
  | gtEq
  | lparen
  | rparen
  | lbrace
  | rbrace
  | comma
  | semicolon
  | colon
  | dot
  | arrow
deriving DecidableEq, Inhabited

namespace TokenKind

def all : List TokenKind :=
  [invalid, eof, ident, intLit, realLit, imagLit, kwFn, kwLet, kwConst, kwIf, kwElse, kwWhile,
   kwReturn, kwBreak, kwContinue, kwTrue, kwFalse, kwAnd, kwOr, kwNot, plus, minus, star, slash,
   assign, eqEq, bangEq, lt, ltEq, gt, gtEq, lparen, rparen, lbrace, rbrace, comma, semicolon,
   colon, dot, arrow]

/-- The name of a kind as messages show it; for keywords, operators and punctuation it is their
spelling. -/
def name : TokenKind → Bytes
  | invalid => "invalid"
  | eof => "EOF"
  | ident => "identifier"
  | intLit => "int literal"
  | realLit => "real literal"
  | imagLit => "imaginary literal"
  | kwFn => "fn"
  | kwLet => "let"
  | kwConst => "const"
  | kwIf => "if"
  | kwElse => "else"
  | kwWhile => "while"
  | kwReturn => "return"
  | kwBreak => "break"
  | kwContinue => "continue"
  | kwTrue => "true"
  | kwFalse => "false"
  | kwAnd => "and"
  | kwOr => "or"
  | kwNot => "not"
  | plus => "+"
  | minus => "-"
  | star => "*"
  | slash => "/"
  | assign => "="
  | eqEq => "=="
  | bangEq => "!="
  | lt => "<"
  | ltEq => "<="
  | gt => ">"
  | gtEq => ">="
  | lparen => "("
  | rparen => ")"
  | lbrace => "\x7b"
  | rbrace => "\x7d"
  | comma => ","
  | semicolon => ";"
  | colon => ":"
  | dot => "."
  | arrow => "->"

def keywords : List TokenKind :=
  [kwFn, kwLet, kwConst, kwIf, kwElse, kwWhile, kwReturn, kwBreak, kwContinue, kwTrue, kwFalse,
   kwAnd, kwOr, kwNot]

def keyword? (text : Bytes) : Option TokenKind :=
  keywords.find? fun k => k.name = text

def isLiteral (k : TokenKind) : Bool :=
  k ∈ [intLit, realLit, imagLit, kwTrue, kwFalse]

def isKeyword (k : TokenKind) : Bool := k ∈ keywords

end TokenKind

structure Token where
  kind : TokenKind
  span : Span
  /-- The bytes of its span, those of a word in composed form. -/
  text : Bytes
deriving DecidableEq, Inhabited

end VecLang
