import VecLang.Syntax.Tree
import VecLang.Token.Lexer

/-!
# Parsing

Recursive descent with recovery. A parser either builds its node or reports an error and fails;
a block then skips to the next statement and the top level to the next declaration, so that a
tree comes out of every text. Each loop takes a token in every round, and each nested
expression and block begins behind a token, so the number of tokens bounds both.
-/

namespace VecLang.Syntax

/-- What the grammar asked for and did not find. -/
inductive SyntaxCause where
  | topLevel (got : TokenKind)
  | functionName
  | openAfterFunctionName
  | parameterName
  | closeAfterParameters
  | constantName
  | assignInConstant
  | semicolonAfterConstant
  | typeName
  | openBrace
  | closeBrace
  | semicolon
  | statementNotCall
  | variableName
  | assignInLet
  | swizzleAfterDot
  | swizzleLetters
  | closeAfterArguments
  | closeParen
  | expression (got : TokenKind)
deriving DecidableEq

namespace SyntaxCause

def code : SyntaxCause → Code
  | topLevel _ => .unexpectedTopLevel
  | functionName | parameterName | constantName | variableName => .expectIdentifier
  | openAfterFunctionName | assignInConstant | openBrace | assignInLet => .unexpectedToken
  | closeAfterParameters | closeAfterArguments | closeParen => .unclosedParen
  | semicolonAfterConstant | semicolon => .expectSemicolon
  | typeName => .expectType
  | closeBrace => .unclosedBrace
  | statementNotCall => .expressionStmt
  | swizzleAfterDot | swizzleLetters => .badSwizzle
  | expression _ => .expectExpression

def message : SyntaxCause → Bytes
  | topLevel got => "expected 'fn' or 'const', got " ++ got.name
  | functionName => "expected function name"
  | openAfterFunctionName => "expected '(' after function name"
  | parameterName => "expected parameter name"
  | closeAfterParameters => "expected ')' after parameters"
  | constantName => "expected constant name"
  | assignInConstant => "expected '=' in constant declaration"
  | semicolonAfterConstant => "expected ';' after constant"
  | typeName => "expected type name"
  | openBrace => "expected '\x7b'"
  | closeBrace => "expected '\x7d' to close block"
  | semicolon => "expected ';'"
  | statementNotCall => "only calls can be used as statements"
  | variableName => "expected variable name after 'let'"
  | assignInLet => "expected '=' in let binding"
  | swizzleAfterDot => "expected swizzle components after '.'"
  | swizzleLetters => "swizzle must be 1 to 4 of x, y, z, w"
  | closeAfterArguments => "expected ')' after arguments"
  | closeParen => "expected ')'"
  | expression got => "expected expression, got " ++ got.name

end SyntaxCause

/-! ## The parser's state -/

structure ParseState where
  /-- The lexemes not yet taken; the last is the end of the text. -/
  rest : List Lexeme
  /-- Whether the faults of the first of them are reported already. -/
  looked : Bool := false
  /-- The span of the last token taken. -/
  last : Span := .none
  /-- How many errors may be reported before parsing stops; zero for no limit. -/
  maxErrors : Nat := 0
  /-- How often a loop or a nested phrase was left for want of rounds. -/
  starved : Nat := 0
  /-- How many syntax errors were reported. -/
  errors : Nat := 0
  /-- Everything reported, the latest first. -/
  reports : List Diagnostic := []
  /-- How many expressions were built. -/
  exprs : Nat := 0
  /-- How many statements were built. -/
  stmts : Nat := 0

/-- A parser of an `α`: it changes the state and may fail, having reported why. -/
def Parser (α : Type) := ParseState → Option α × ParseState

namespace Parser

instance : Monad Parser where
  pure a s := (some a, s)
  bind p f s :=
    match p s with
    | (some a, s) => f a s
    | (none, s) => (none, s)

def fail : Parser α := fun s => (none, s)

def starve : Parser α := fun s => (none, { s with starved := s.starved + 1 })

def update (f : ParseState → ParseState) : Parser Unit := fun s => (some (), f s)

def get (f : ParseState → α) : Parser α := fun s => (some (f s), s)

def attempt (p : Parser α) : Parser (Option α) := fun s =>
  let (r, s) := p s
  (some r, s)

/-- What stands behind the last token. -/
def pastEnd : Token := ⟨.eof, .none, []⟩

def peek : Parser Token := fun s =>
  match s.rest with
  | [] => (some pastEnd, s)
  | l :: _ =>
    if s.looked then (some l.token, s)
    else
      let found := l.faults.map LexicalFault.toDiagnostic
      (some l.token, { s with looked := true, reports := found.reverse ++ s.reports })

/-- Take the next token, after looking at it. The end of the text stays. -/
def advance : Parser Token := do
  let t ← peek
  if t.kind = .eof then return t
  update fun s => { s with rest := s.rest.tail, looked := false, last := t.span }
  return t

def kind : Parser TokenKind := do return (← peek).kind

def next (k : TokenKind) : Parser Bool := do return (← peek).kind = k

def report (cause : SyntaxCause) (span : Span) : Parser Unit :=
  update fun s =>
    { s with
      errors := s.errors + 1
      reports := .error cause.code span cause.message :: s.reports }

/-- Where to report that something is missing: at the next token, and at the end of the text
right behind the last one. -/
def here : Parser Span := do
  let t ← peek
  let last ← get (·.last)
  return if t.kind = .eof && 0 < last.stop then ⟨last.file, last.stop, last.stop⟩ else t.span

def expect (k : TokenKind) (cause : SyntaxCause) : Parser Token := do
  if ← next k then advance
  else
    report cause (← here)
    fail

def accept (k : TokenKind) : Parser Bool := do
  if ← next k then
    let _ ← advance
    return true
  else return false

def exhausted : Parser Bool := get fun s => s.maxErrors ≠ 0 && s.maxErrors ≤ s.errors

/-- How many rounds a loop can take: each takes a token. -/
def rounds : Parser Nat := get fun s => s.rest.length + 1

def upToLast (s : Span) : Parser Span := do return s.cover (← get (·.last))

def built (e : Expr) : Parser Expr := do
  update fun s => { s with exprs := s.exprs + 1 }
  return e

def builtStmt (t : Stmt) : Parser Stmt := do
  update fun s => { s with stmts := s.stmts + 1 }
  return t

/-! ## Expressions -/

/-- The operators between operands, the loosest first; those of one level bind alike. -/
def levels : List (List (TokenKind × BinaryOp)) :=
  [[(.kwOr, .or)],
   [(.kwAnd, .and)],
   [(.eqEq, .eq), (.bangEq, .ne)],
   [(.lt, .lt), (.ltEq, .le), (.gt, .gt), (.gtEq, .ge)],
   [(.plus, .add), (.minus, .sub)],
   [(.star, .mul), (.slash, .div)]]

def unaryOp? : TokenKind → Option UnaryOp
  | .minus => some .neg
  | .kwNot => some .not
  | _ => none

/-- Whether a text names one to four lanes. -/
def isSwizzle (b : Bytes) : Bool :=
  b ≠ [] && b.length ≤ 4 && b.all fun c => 0x77 ≤ c && c ≤ 0x7a

/-- The arguments of a call behind its opening parenthesis. A comma may follow the last. -/
def arguments (expr : Parser Expr) : (rounds : Nat) → Parser (List Expr)
  | 0 => starve
  | n + 1 => do
    if ← next .rparen then return []
    let arg ← expr
    if ← accept .comma then
      let more ← arguments expr n
      return arg :: more
    else return [arg]

def primary (expr : Parser Expr) : Parser Expr := do
  let t ← peek
  if t.kind.isLiteral then
    let t ← advance
    built (.lit t)
  else if t.kind = .ident then
    let _ ← advance
    if ← accept .lparen then
      let args ← arguments expr (← rounds)
      let _ ← expect .rparen .closeAfterArguments
      built (.call (← upToLast t.span) t.text t.span args)
    else built (.ident t.span t.text)
  else if t.kind = .lparen then
    let _ ← advance
    let x ← expr
    let _ ← expect .rparen .closeParen
    built (.group (← upToLast t.span) x)
  else
    report (.expression t.kind) (← here)
    fail

def swizzles : (rounds : Nat) → Expr → Parser Expr
  | 0, _ => starve
  | n + 1, x => do
    if ← accept .dot then
      let comps ← expect .ident .swizzleAfterDot
      if isSwizzle comps.text then
        let x ← built (.swizzle (x.span.cover comps.span) comps.text comps.span x)
        swizzles n x
      else
        report .swizzleLetters comps.span
        fail
    else return x

def unary (expr : Parser Expr) : (rounds : Nat) → Parser Expr
  | 0 => starve
  | n + 1 => do
    match unaryOp? (← kind) with
    | some op =>
      let t ← advance
      let x ← unary expr n
      built (.unary (t.span.cover x.span) op x)
    | none =>
      let x ← primary expr
      swizzles (← rounds) x

def chain (ops : List (TokenKind × BinaryOp)) (operand : Parser Expr) :
    (rounds : Nat) → Expr → Parser Expr
  | 0, _ => starve
  | n + 1, left => do
    match ops.lookup (← kind) with
    | some op =>
      let _ ← advance
      let right ← operand
      let left ← built (.binary (left.span.cover right.span) op left right)
      chain ops operand n left
    | none => return left

def level (ops : List (TokenKind × BinaryOp)) (operand : Parser Expr) : Parser Expr := do
  let left ← operand
  chain ops operand (← rounds) left

def exprOver (nested : Parser Expr) : Parser Expr :=
  levels.foldr level (do unary nested (← rounds))

def exprTo : (depth : Nat) → Parser Expr
  | 0 => starve
  | n + 1 => fun s => exprOver (exprTo n) s

def expr : Parser Expr := do exprTo (← rounds)

/-! ## Statements -/

def typeName : Parser TypeName := do
  let t ← expect .ident .typeName
  return ⟨t.text, t.span⟩

def typeAfter (k : TokenKind) : Parser (Option TypeName) := do
  if ← accept k then return some (← typeName) else return none

/-- The semicolon at the end of a statement, which becomes part of its span. -/
def finish (start : Span) (stmt : Span → Stmt) : Parser Stmt := do
  let _ ← expect .semicolon .semicolon
  builtStmt (stmt (← upToLast start))

/-- Skip to just behind the next semicolon, or up to the end of the block or the beginning of a
statement. -/
def resyncStmt : (rounds : Nat) → Parser Unit
  | 0 => starve
  | n + 1 => do
    match ← kind with
    | .eof | .rbrace | .kwLet | .kwIf | .kwWhile | .kwReturn => return ()
    | .semicolon =>
      let _ ← advance
      return ()
    | _ =>
      let _ ← advance
      resyncStmt n

/-- The statements of a block up to its closing brace. One that fails is skipped. -/
def statements (stmt : Parser Stmt) : (rounds : Nat) → Parser (List Stmt)
  | 0 => starve
  | n + 1 => do
    let k ← kind
    if k = .rbrace || k = .eof || (← exhausted) then return []
    match ← attempt stmt with
    | some t =>
      let more ← statements stmt n
      return t :: more
    | none =>
      resyncStmt (← rounds)
      statements stmt n

def block (stmt : Parser Stmt) : Parser (List Stmt) := do
  let _ ← expect .lbrace .openBrace
  let body ← statements stmt (← rounds)
  let _ ← expect .rbrace .closeBrace
  return body

def letStmt : Parser Stmt := do
  let kw ← advance
  let name ← expect .ident .variableName
  let type ← typeAfter .colon
  let _ ← expect .assign .assignInLet
  let value ← expr
  finish kw.span fun span => .letVar span name.text name.span type value

def ifStmt (nested : Parser Stmt) : Parser Stmt := do
  let kw ← advance
  let cond ← expr
  let thenBody ← block nested
  let elseBody ← do
    if ← accept .kwElse then
      if ← next .kwIf then
        let t ← nested
        pure [t]
      else block nested
    else pure []
  builtStmt (.ifElse (← upToLast kw.span) cond thenBody elseBody)

def whileStmt (nested : Parser Stmt) : Parser Stmt := do
  let kw ← advance
  let cond ← expr
  let body ← block nested
  builtStmt (.whileDo (← upToLast kw.span) cond body)

def returnStmt : Parser Stmt := do
  let kw ← advance
  let value ← do
    if ← next .semicolon then pure none else some <$> expr
  finish kw.span fun span => .ret span value

def simpleStmt : Parser Stmt := do
  let x ← expr
  match x, ← next .assign with
  | .ident span name, true =>
    let _ ← advance
    let value ← expr
    finish span fun all => .assign all name span value
  | .call span _ _ _, _ => finish span fun all => .expr all x
  | _, _ =>
    report .statementNotCall x.span
    fail

def stmtOver (nested : Parser Stmt) : Parser Stmt := do
  match ← kind with
  | .kwLet => letStmt
  | .kwIf => ifStmt nested
  | .kwWhile => whileStmt nested
  | .kwReturn => returnStmt
  | .kwBreak =>
    let kw ← advance
    finish kw.span .breakLoop
  | .kwContinue =>
    let kw ← advance
    finish kw.span .continueLoop
  | _ => simpleStmt

def stmtTo : (depth : Nat) → Parser Stmt
  | 0 => starve
  | n + 1 => fun s => stmtOver (stmtTo n) s

def stmt : Parser Stmt := do stmtTo (← rounds)

/-! ## Declarations -/

/-- The parameters of a function behind the opening parenthesis. A comma may follow the last. -/
def params : (rounds : Nat) → Parser (List Param)
  | 0 => starve
  | n + 1 => do
    if ← next .rparen then return []
    let name ← expect .ident .parameterName
    let type ← typeAfter .colon
    let p : Param := ⟨name.text, name.span, type⟩
    if ← accept .comma then
      let more ← params n
      return p :: more
    else return [p]

def fnDecl : Parser FnDecl := do
  let kw ← advance
  let name ← expect .ident .functionName
  let _ ← expect .lparen .openAfterFunctionName
  let params ← params (← rounds)
  let _ ← expect .rparen .closeAfterParameters
  let result ← typeAfter .arrow
  let body ← block stmt
  return ⟨← upToLast kw.span, name.text, name.span, params, result, body⟩

def constDecl : Parser ConstDecl := do
  let kw ← advance
  let name ← expect .ident .constantName
  let type ← typeAfter .colon
  let _ ← expect .assign .assignInConstant
  let value ← expr
  let _ ← expect .semicolon .semicolonAfterConstant
  return ⟨← upToLast kw.span, name.text, name.span, type, value⟩

def resyncTop : (rounds : Nat) → Parser Unit
  | 0 => starve
  | n + 1 => do
    match ← kind with
    | .eof | .kwFn | .kwConst => return ()
    | _ =>
      let _ ← advance
      resyncTop n

def item : Parser Item := do
  match ← kind with
  | .kwFn => .fn <$> fnDecl
  | .kwConst => .const <$> constDecl
  | k =>
    report (.topLevel k) (← here)
    let _ ← advance
    fail

/-- The declarations up to the end of the text. One that fails is skipped. -/
def items : (rounds : Nat) → Parser (List Item)
  | 0 => starve
  | n + 1 => do
    if (← kind) = .eof || (← exhausted) then return []
    match ← attempt item with
    | some i =>
      let more ← items n
      return i :: more
    | none =>
      resyncTop (← rounds)
      items n

def module : Parser Module := do
  let first ← peek
  let items ← items (← rounds)
  return ⟨← upToLast first.span, items⟩

end Parser

structure Parsed where
  module : Module
  /-- Everything reported, in order. -/
  diagnostics : List Diagnostic
  /-- How many syntax errors are among it. -/
  errors : Nat
  /-- How many expressions and statements were built. -/
  exprs : Nat
  stmts : Nat
deriving Inhabited

/-- Parse lexemes. Parsing stops when `maxErrors` errors are reported, unless that is zero. -/
def parse (lexemes : List Lexeme) (maxErrors : Nat) : Parsed :=
  let (m, s) := Parser.module { rest := lexemes, maxErrors }
  { module := m.getD default
    diagnostics := s.reports.reverse
    errors := s.errors
    exprs := s.exprs
    stmts := s.stmts }

end VecLang.Syntax
