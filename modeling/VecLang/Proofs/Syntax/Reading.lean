import Mathlib.Tactic.Lemma
import VecLang.Syntax.Parser

/-!
# How parsers read

What the parsers of single tokens do, as equations, and how a property of them passes to the parsers
of phrases (`Closed`, `Keeps`). One such property is what every parser does to the state (`Goes`):
it takes tokens from the front and reports errors. Nothing that was read is put back, no report is
withdrawn, and when the tokens carry no faults there is one report for each error.
-/

namespace VecLang.Syntax

open List hiding head

namespace ParseState

def tokens (s : ParseState) : List Token := s.rest.map (·.token)

def head (s : ParseState) : Token := s.tokens.headD Parser.pastEnd

def seen (s : ParseState) : ParseState := (Parser.peek s).2

def took (s : ParseState) : ParseState :=
  { s.seen with rest := s.rest.tail, looked := false, last := s.head.span }

def erred (s : ParseState) (cause : SyntaxCause) (span : Span) : ParseState :=
  { s with errors := s.errors + 1, reports := .error cause.code span cause.message :: s.reports }

section

variable (s : ParseState)
include s

lemma seen_eq : ∃ looked reports, s.seen = { s with looked, reports } := by
  unfold seen Parser.peek
  split
  · exact ⟨_, _, rfl⟩
  · split
    · exact ⟨_, _, rfl⟩
    · exact ⟨_, _, rfl⟩

@[simp] lemma rest_seen : s.seen.rest = s.rest := by
  obtain ⟨_, _, h⟩ := s.seen_eq
  rw [h]

@[simp] lemma errors_seen : s.seen.errors = s.errors := by
  obtain ⟨_, _, h⟩ := s.seen_eq
  rw [h]

@[simp] lemma maxErrors_seen : s.seen.maxErrors = s.maxErrors := by
  obtain ⟨_, _, h⟩ := s.seen_eq
  rw [h]

@[simp] lemma tokens_seen : s.seen.tokens = s.tokens := by
  rw [tokens, rest_seen, tokens]

@[simp] lemma head_seen : s.seen.head = s.head := by
  rw [head, tokens_seen, head]

@[simp] lemma seen_seen : s.seen.seen = s.seen := by
  unfold seen Parser.peek
  cases h : s.rest with
  | nil => simp only [h]
  | cons l ls => by_cases hl : s.looked <;> simp [h, hl]

@[simp] lemma took_seen : s.seen.took = s.took := by
  simp only [took, seen_seen, rest_seen, head_seen]

@[simp] lemma tokens_took : s.took.tokens = s.tokens.tail := by
  simp [took, tokens]

@[simp] lemma errors_took : s.took.errors = s.errors := errors_seen s

@[simp] lemma maxErrors_took : s.took.maxErrors = s.maxErrors := maxErrors_seen s

lemma length_tokens : s.tokens.length = s.rest.length := length_map _

end

variable {s : ParseState}

lemma tokens_eq_cons {k : TokenKind} (h : s.head.kind = k) (hk : k ≠ .eof) :
    s.tokens = s.head :: s.took.tokens := by
  rw [tokens_took]
  unfold head at h ⊢
  cases hs : s.tokens with
  | nil => rw [hs] at h; exact absurd h.symm hk
  | cons t ts => rfl

lemma head_eq {t : Token} {ts : List Token} (h : s.tokens = t :: ts) : s.head = t := by
  rw [head, h]
  rfl

lemma took_eq {t : Token} {ts : List Token} (h : s.tokens = t :: ts) : s.took.tokens = ts := by
  rw [tokens_took, h]
  rfl

end ParseState

namespace Parser

open ParseState

variable {α β : Type} {s t : ParseState} {k : TokenKind}

lemma bind_apply (p : Parser α) (f : α → Parser β) (s : ParseState) :
    (p >>= f) s = match p s with
      | (some a, t) => f a t
      | (none, t) => (none, t) := rfl

variable {p : Parser α}

lemma bind_of_some {f : α → Parser β} {a : α} (h : p s = (some a, t)) : (p >>= f) s = f a t := by
  rw [bind_apply, h]

lemma bind_assoc {γ : Type} (p : Parser α) (f : α → Parser β) (g : β → Parser γ) :
    (p >>= f) >>= g = p >>= fun a => f a >>= g := by
  funext s
  simp only [bind_apply]
  cases p s with
  | mk r t => cases r <;> rfl

lemma peek_apply (s : ParseState) : peek s = (some s.head, s.seen) := by
  have h : (peek s).1 = some s.head := by
    unfold peek head tokens
    cases s.rest with
    | nil => rfl
    | cons l ls => by_cases hl : s.looked <;> simp [hl]
  exact Prod.ext h rfl

lemma advance_apply (h : s.head.kind ≠ .eof) : advance s = (some s.head, s.took) := by
  have hrest : s.seen.rest = s.rest := rest_seen s
  rw [advance, bind_of_some (peek_apply s), if_neg h, took, ← hrest]
  rfl

lemma kind_apply (s : ParseState) : kind s = (some s.head.kind, s.seen) := by
  rw [kind, bind_of_some (peek_apply s)]
  rfl

lemma next_apply (k : TokenKind) (s : ParseState) :
    next k s = (some (decide (s.head.kind = k)), s.seen) := by
  rw [next, bind_of_some (peek_apply s)]
  rfl

lemma rounds_apply (s : ParseState) : rounds s = (some (s.tokens.length + 1), s) := by
  rw [length_tokens]
  rfl

lemma expect_of_eq {cause : SyntaxCause} (h : s.head.kind = k) (hk : k ≠ .eof) :
    expect k cause s = (some s.head, s.took) := by
  rw [expect, bind_of_some (next_apply k s), if_pos (decide_eq_true h),
    advance_apply (by rw [head_seen, h]; exact hk), head_seen, took_seen]

lemma here_apply (s : ParseState) : ∃ span, here s = (some span, s.seen) := by
  rw [here, bind_of_some (peek_apply s)]
  exact ⟨_, rfl⟩

lemma expect_of_ne (cause : SyntaxCause) (h : s.head.kind ≠ k) :
    ∃ span, expect k cause s = (none, s.seen.erred cause span) := by
  obtain ⟨span, hspan⟩ := here_apply s.seen
  refine ⟨span, ?_⟩
  rw [expect, bind_of_some (next_apply k s), if_neg (by simpa using h), bind_of_some hspan,
    seen_seen]
  rfl

lemma accept_of_eq (h : s.head.kind = k) (hk : k ≠ .eof) : accept k s = (some true, s.took) := by
  rw [accept, bind_of_some (next_apply k s), if_pos (decide_eq_true h), bind_apply,
    advance_apply (by rw [head_seen, h]; exact hk), took_seen]
  rfl

lemma accept_of_ne (h : s.head.kind ≠ k) : accept k s = (some false, s.seen) := by
  rw [accept, bind_of_some (next_apply k s), if_neg (by simpa using h)]
  rfl

def elseBranch (nested : Parser Stmt) : Parser (List Stmt) := do
  if ← accept .kwElse then
    if ← next .kwIf then
      let t ← nested
      pure [t]
    else block nested
  else pure []

lemma ifStmt_eq (nested : Parser Stmt) :
    ifStmt nested = (do
      let kw ← advance
      let cond ← expr
      let thenBody ← block nested
      let elseBody ← elseBranch nested
      builtStmt (.ifElse (← upToLast kw.span) cond thenBody elseBody)) := by
  unfold ifStmt elseBranch
  refine congrArg (advance >>= ·) (funext fun kw => congrArg (expr >>= ·) (funext fun cond =>
    congrArg (block nested >>= ·) (funext fun body => ?_)))
  rw [bind_assoc]
  refine congrArg (accept .kwElse >>= ·) (funext fun other => ?_)
  split
  · rw [bind_assoc]
    refine congrArg (next .kwIf >>= ·) (funext fun choice => ?_)
    split
    · rw [bind_assoc]
    · rfl
  · rfl

/-! ## From the parsers of tokens to those of phrases -/

/-- A property that the parsers of single tokens have, and a parser made of parsers that have it. -/
class Closed (P : ∀ α, Parser α → Prop) : Prop where
  pure {α : Type} (a : α) : P α (pure a)
  bind {α β : Type} {p : Parser α} {f : α → Parser β} : P α p → (∀ a, P β (f a)) → P β (p >>= f)
  starve {α : Type} : P α starve
  fail {α : Type} : P α fail
  report (cause : SyntaxCause) (span : Span) : P Unit (report cause span)
  peek : P Token peek
  advance : P Token advance
  rounds : P Nat rounds
  exhausted : P Bool exhausted
  last : P Span (get (·.last))
  built (e : Expr) : P Expr (built e)
  builtStmt (t : Stmt) : P Stmt (builtStmt t)
  attempt {α : Type} {p : Parser α} : P α p → P (Option α) (attempt p)

class Keeps (P : ∀ α, Parser α → Prop) {α : Type} (p : Parser α) : Prop where
  holds : P α p

section Closed

variable {P : ∀ α, Parser α → Prop} [hP : Closed P]

namespace Keeps

instance of_pure (a : α) : Keeps P (pure a : Parser α) := ⟨hP.pure a⟩

instance of_bind {p : Parser α} {f : α → Parser β} [hp : Keeps P p] [hf : ∀ a, Keeps P (f a)] :
    Keeps P (p >>= f) := ⟨hP.bind hp.holds fun a => (hf a).holds⟩

instance of_map {p : Parser α} {f : α → β} [Keeps P p] : Keeps P (f <$> p) := by
  have h : (f <$> p) = (p >>= fun a => pure (f a)) := rfl
  rw [h]
  infer_instance

omit hP in
instance of_ite {c : Prop} [Decidable c] {p q : Parser α} [hp : Keeps P p] [hq : Keeps P q] :
    Keeps P (if c then p else q) := by
  split
  · exact hp
  · exact hq

end Keeps

instance keeps_starve : Keeps P (starve : Parser α) := ⟨hP.starve⟩

instance : Keeps P (fail : Parser α) := ⟨hP.fail⟩

instance (cause : SyntaxCause) (span : Span) : Keeps P (report cause span) := ⟨hP.report cause span⟩

instance : Keeps P peek := ⟨hP.peek⟩

instance : Keeps P advance := ⟨hP.advance⟩

instance : Keeps P rounds := ⟨hP.rounds⟩

instance : Keeps P exhausted := ⟨hP.exhausted⟩

instance : Keeps P (get (·.last)) := ⟨hP.last⟩

instance (e : Expr) : Keeps P (built e) := ⟨hP.built e⟩

instance (t : Stmt) : Keeps P (builtStmt t) := ⟨hP.builtStmt t⟩

instance {p : Parser α} [hp : Keeps P p] : Keeps P (attempt p) := ⟨hP.attempt hp.holds⟩

instance : Keeps P kind := by
  unfold kind
  infer_instance

instance (k : TokenKind) : Keeps P (next k) := by
  unfold next
  infer_instance

instance : Keeps P here := by
  unfold here
  infer_instance

instance (k : TokenKind) (cause : SyntaxCause) : Keeps P (expect k cause) := by
  unfold expect
  infer_instance

instance (k : TokenKind) : Keeps P (accept k) := by
  unfold accept
  infer_instance

instance (span : Span) : Keeps P (upToLast span) := by
  unfold upToLast
  infer_instance

section Expressions

variable {expr : Parser Expr} [Keeps P expr]

instance (n : Nat) : Keeps P (arguments expr n) := by
  induction n with
  | zero => exact keeps_starve
  | succ n ih =>
    unfold arguments
    infer_instance

set_option synthInstance.maxSize 512 in
instance : Keeps P (primary expr) := by
  unfold primary
  infer_instance

instance (n : Nat) (x : Expr) : Keeps P (swizzles n x) := by
  induction n generalizing x with
  | zero => exact keeps_starve
  | succ n ih =>
    unfold swizzles
    infer_instance

instance (n : Nat) : Keeps P (unary expr n) := by
  induction n with
  | zero => exact keeps_starve
  | succ n ih =>
    refine @Keeps.of_bind _ _ P _ _ _ _ fun k => ?_
    cases unaryOp? k <;> infer_instance

instance (ops : List (TokenKind × BinaryOp)) (n : Nat) (left : Expr) :
    Keeps P (chain ops expr n left) := by
  induction n generalizing left with
  | zero => exact keeps_starve
  | succ n ih =>
    refine @Keeps.of_bind _ _ P _ _ _ _ fun k => ?_
    cases ops.lookup k <;> infer_instance

instance (ops : List (TokenKind × BinaryOp)) : Keeps P (level ops expr) := by
  unfold level
  infer_instance

instance : Keeps P (exprOver expr) := by
  unfold exprOver
  induction levels with
  | nil =>
    rw [foldr_nil]
    infer_instance
  | cons ops rest ih =>
    rw [foldr_cons]
    infer_instance

end Expressions

instance (n : Nat) : Keeps P (exprTo n) := by
  induction n with
  | zero => exact keeps_starve
  | succ n ih => exact ⟨(inferInstance : Keeps P (exprOver (exprTo n))).holds⟩

instance : Keeps P expr := by
  unfold expr
  infer_instance

instance : Keeps P typeName := by
  unfold typeName
  infer_instance

instance (k : TokenKind) : Keeps P (typeAfter k) := by
  unfold typeAfter
  infer_instance

instance (start : Span) (stmt : Span → Stmt) : Keeps P (finish start stmt) := by
  unfold finish
  infer_instance

instance (n : Nat) : Keeps P (resyncStmt n) := by
  induction n with
  | zero => exact keeps_starve
  | succ n ih =>
    refine @Keeps.of_bind _ _ P _ _ _ _ fun k => ?_
    split <;> infer_instance

instance : Keeps P letStmt := by
  unfold letStmt
  infer_instance

instance : Keeps P returnStmt := by
  unfold returnStmt
  infer_instance

def afterExpr (x : Expr) (assigned : Bool) : Parser Stmt :=
  match x, assigned with
  | .ident span name, true => do
    let _ ← advance
    let value ← expr
    finish span fun all => .assign all name span value
  | .call span _ _ _, _ => finish span fun all => .expr all x
  | _, _ => do
    report .statementNotCall x.span
    fail

lemma simpleStmt_eq : simpleStmt = (do
    let x ← expr
    let assigned ← next .assign
    afterExpr x assigned) := rfl

instance (x : Expr) (assigned : Bool) : Keeps P (afterExpr x assigned) := by
  unfold afterExpr
  split <;> infer_instance

instance : Keeps P simpleStmt := by
  rw [simpleStmt_eq]
  infer_instance

instance (n : Nat) : Keeps P (params n) := by
  induction n with
  | zero => exact keeps_starve
  | succ n ih =>
    unfold params
    infer_instance

instance : Keeps P constDecl := by
  unfold constDecl
  infer_instance

instance (n : Nat) : Keeps P (resyncTop n) := by
  induction n with
  | zero => exact keeps_starve
  | succ n ih =>
    refine @Keeps.of_bind _ _ P _ _ _ _ fun k => ?_
    split <;> infer_instance

section Statements

variable {stmt : Parser Stmt} [hstmt : Keeps P stmt]

instance (n : Nat) : Keeps P (statements stmt n) := by
  induction n with
  | zero => exact keeps_starve
  | succ n ih =>
    refine @Keeps.of_bind _ _ P _ _ _ _ fun k => @Keeps.of_bind _ _ P _ _ _ _ fun stop =>
      @Keeps.of_ite _ P _ _ _ _ _ (@Keeps.of_bind _ _ P _ _ _ _ fun r => ?_)
    cases r <;> infer_instance

instance : Keeps P (block stmt) := by
  unfold block
  infer_instance

instance : Keeps P (elseBranch stmt) := by
  unfold elseBranch
  infer_instance

instance : Keeps P (ifStmt stmt) := by
  rw [ifStmt_eq]
  infer_instance

instance : Keeps P (whileStmt stmt) := by
  unfold whileStmt
  infer_instance

omit hstmt

instance (n : Nat) : Keeps P (stmtTo n) := by
  induction n with
  | zero => exact keeps_starve
  | succ n ih =>
    refine @Keeps.of_bind _ _ P _ _ _ _ fun k => ?_
    split <;> infer_instance

instance : Keeps P Parser.stmt := by
  unfold Parser.stmt
  infer_instance

set_option synthInstance.maxSize 512 in
instance : Keeps P fnDecl := by
  unfold fnDecl
  infer_instance

end Statements

instance : Keeps P item := by
  refine @Keeps.of_bind _ _ P _ _ _ _ fun k => ?_
  split <;> infer_instance

instance (n : Nat) : Keeps P (items n) := by
  induction n with
  | zero => exact keeps_starve
  | succ n ih =>
    refine @Keeps.of_bind _ _ P _ _ _ _ fun k => @Keeps.of_bind _ _ P _ _ _ _ fun stop =>
      @Keeps.of_ite _ P _ _ _ _ _ (@Keeps.of_bind _ _ P _ _ _ _ fun r => ?_)
    cases r <;> infer_instance

instance : Keeps P module := by
  unfold module
  infer_instance

end Closed

/-! ## What every parser does to the state -/

/-- Whether a report is of an error of syntax and not of a fault of a token. -/
def isSyntax (d : Diagnostic) : Bool := 2000 ≤ d.code.number && d.code.number < 3000

lemma isSyntax_cause (cause : SyntaxCause) (span : Span) :
    isSyntax (.error cause.code span cause.message) = true := by
  cases cause <;> rfl

lemma isSyntax_fault (fault : LexicalFault) : isSyntax fault.toDiagnostic = false := by
  obtain ⟨cause, span⟩ := fault
  cases cause <;> rfl

/-- A parser may lead from the first state to the second. -/
structure Goes (s t : ParseState) : Prop where
  rest : t.rest <:+ s.rest
  limit : t.maxErrors = s.maxErrors
  /-- Every error has its report, and nothing else has one if the tokens carry no faults. -/
  reports : ∃ ds, t.reports = ds ++ s.reports ∧ (∀ d ∈ ds, d.isError = true) ∧
    t.errors = s.errors + ds.countP isSyntax ∧
    ((∀ l ∈ s.rest, l.faults = []) → ∀ d ∈ ds, isSyntax d = true)

namespace Goes

lemma refl (s : ParseState) : Goes s s := ⟨suffix_rfl, rfl, [], rfl, nofun, rfl, fun _ => nofun⟩

lemma trans {u : ParseState} (h1 : Goes s t) (h2 : Goes t u) : Goes s u where
  rest := h2.rest.trans h1.rest
  limit := h2.limit.trans h1.limit
  reports := by
    obtain ⟨ds, hds, herrors, hcount, hclean⟩ := h1.reports
    obtain ⟨es, hes, herrors', hcount', hclean'⟩ := h2.reports
    refine ⟨es ++ ds, by rw [hes, hds, append_assoc], ?_, ?_, fun hfaults => ?_⟩
    · exact forall_mem_append.2 ⟨herrors', herrors⟩
    · rw [hcount', hcount, countP_append]
      omega
    · exact forall_mem_append.2
        ⟨hclean' fun l hl => hfaults l (h1.rest.subset hl), hclean hfaults⟩

lemma seen (s : ParseState) : Goes s s.seen where
  rest := (rest_seen s).symm ▸ suffix_rfl
  limit := maxErrors_seen s
  reports := by
    unfold ParseState.seen peek
    split
    · exact (refl s).reports
    case h_2 l ls hs =>
      split
      · exact (refl s).reports
      · have hfault : ∀ d ∈ (l.faults.map LexicalFault.toDiagnostic).reverse,
            ∃ f ∈ l.faults, f.toDiagnostic = d := fun d hd => mem_map.1 (mem_reverse.1 hd)
        refine ⟨_, rfl, fun d hd => ?_, ?_, fun hfaults d hd => ?_⟩
        · obtain ⟨f, -, rfl⟩ := hfault d hd
          rfl
        · refine (congrArg (s.errors + ·) (countP_eq_zero.2 fun d hd => ?_)).symm
          obtain ⟨f, -, rfl⟩ := hfault d hd
          rw [isSyntax_fault]
          exact Bool.false_ne_true
        · obtain ⟨f, hf, -⟩ := hfault d hd
          rw [hfaults l (hs ▸ mem_cons_self)] at hf
          cases hf

lemma took (s : ParseState) : Goes s s.took where
  rest := tail_suffix _
  limit := (seen s).limit
  reports := (seen s).reports

lemma erred (s : ParseState) (cause : SyntaxCause) (span : Span) : Goes s (s.erred cause span) where
  rest := suffix_rfl
  limit := rfl
  reports := by
    refine ⟨[_], rfl, forall_mem_singleton.2 rfl, ?_, fun _ => forall_mem_singleton.2 ?_⟩
    · rw [countP_cons_of_pos (isSyntax_cause cause span)]
      rfl
    · exact isSyntax_cause cause span

end Goes

/-- What the parser does to the state is what parsers do. -/
def GoesOn (α : Type) (p : Parser α) : Prop := ∀ s, Goes s (p s).2

abbrev Going (p : Parser α) : Prop := Keeps GoesOn p

instance : Closed GoesOn where
  pure _ := Goes.refl
  bind {_ _ p f} hp hf s := by
    have h := hp s
    rw [bind_apply]
    cases hps : p s with
    | mk r t =>
      rw [hps] at h
      cases r with
      | none => exact h
      | some a => exact h.trans (hf a t)
  starve s := { Goes.refl s with }
  peek := .seen
  advance s := by
    by_cases h : s.head.kind = .eof
    · rw [advance, bind_of_some (peek_apply s), if_pos h]
      exact .seen s
    · rw [advance_apply h]
      exact .took s
  rounds := .refl
  last := .refl
  built _ s := { Goes.refl s with }
  builtStmt _ s := { Goes.refl s with }
  fail := .refl
  report cause span s := .erred s cause span
  exhausted := .refl
  attempt hp := hp

lemma goes (p : Parser α) [hp : Going p] (s : ParseState) : Goes s (p s).2 := hp.holds s

end Parser

end VecLang.Syntax
