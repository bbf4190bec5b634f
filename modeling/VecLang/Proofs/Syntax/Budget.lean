import VecLang.Proofs.Syntax.Soundness

/-!
# Parsing with a limit on errors

A limit is looked at before each statement and each declaration only. Up to the error that reaches
it, parsing does what it does without a limit (`Outcome`). Behind it the blocks that are open are
left, and more errors may be reported on the way out.
-/

namespace VecLang.Syntax

open Nat
open List hiding head

/-- The errors of syntax that were reported, in order. -/
def Parsed.syntaxErrors (p : Parsed) : List Diagnostic := p.diagnostics.filter Parser.isSyntax

namespace ParseState

def unlimited (s : ParseState) : ParseState := { s with maxErrors := 0 }

/-- As many errors are reported as are counted. -/
def Counted (s : ParseState) : Prop := s.reports.countP Parser.isSyntax = s.errors

end ParseState

namespace Parser

open ParseState

variable {α β : Type} {s t : ParseState} {n : Nat} {p : Parser α}

lemma Goes.counted (h : Goes s t) (hs : s.Counted) : t.Counted := by
  obtain ⟨ds, hds, -, herrors, -⟩ := h.reports
  rw [Counted, hds, countP_append, herrors, show s.reports.countP isSyntax = s.errors from hs,
    Nat.add_comm]

lemma Goes.suffix (h : Goes s t) : s.reports <:+ t.reports := by
  obtain ⟨ds, hds, -⟩ := h.reports
  exact ⟨ds, hds.symm⟩

/-! ## Up to the limit -/

/-- With and without a limit of `n` errors a parser did the same, or so up to the `n`-th error. -/
def Outcome (n : Nat) (r r' : Option α × ParseState) : Prop :=
  r.2.errors < n ∧ r' = (r.1, r.2.unlimited) ∨
    ∃ ds, n ≤ ds.countP isSyntax ∧ ds <:+ r.2.reports ∧ ds <:+ r'.2.reports

/-- The parser does the same with a limit of `n` errors, up to the last of them. -/
def Agrees (n : Nat) (α : Type) (p : Parser α) : Prop :=
  GoesOn α p ∧ ∀ s, s.maxErrors = n → s.errors < n → s.Counted → Outcome n (p s) (p s.unlimited)

lemma outcome_erred (hs : s.Counted) (r : Option α) (cause : SyntaxCause) (span : Span) :
    Outcome n (r, s.erred cause span) (r, s.unlimited.erred cause span) := by
  by_cases h : s.errors + 1 < n
  · exact .inl ⟨h, rfl⟩
  · refine .inr ⟨(s.erred cause span).reports, ?_, suffix_rfl, suffix_rfl⟩
    have hcount : (s.erred cause span).reports.countP isSyntax = s.errors + 1 :=
      (Goes.erred s cause span).counted hs
    omega

lemma agrees_of_same [hp : Going p] (hsame : ∀ s, s.maxErrors = n → s.errors < n →
    (p s).2.errors = s.errors ∧ p s.unlimited = ((p s).1, (p s).2.unlimited)) : Agrees n α p := by
  refine ⟨hp.holds, fun s hlimit hs _ => .inl ?_⟩
  obtain ⟨herrors, heq⟩ := hsame s hlimit hs
  exact ⟨herrors ▸ hs, heq⟩

lemma peek_unlimited (s : ParseState) : peek s.unlimited = (some s.head, s.seen.unlimited) := by
  refine (peek_apply _).trans (congrArg (some s.head, ·) ?_)
  rcases s with ⟨_ | ⟨l, ls⟩, _ | _⟩ <;> rfl

instance : Closed (Agrees n) where
  pure a := agrees_of_same fun _ _ _ => ⟨rfl, rfl⟩
  bind {_ _ p f} hp hf := by
    have hgoes : GoesOn _ (p >>= f) := Closed.bind hp.1 fun a => (hf a).1
    refine ⟨hgoes, fun s hlimit hs hcounted => ?_⟩
    have hgo := hp.1 s
    have hgo' := hp.1 s.unlimited
    have h := hp.2 s hlimit hs hcounted
    rw [bind_apply, bind_apply]
    revert hgo hgo' h
    rcases p s with ⟨r, t⟩
    rcases p s.unlimited with ⟨r', t'⟩
    rintro hgo hgo' (⟨ht, heq⟩ | ⟨ds, hds, hsub, hsub'⟩)
    · cases heq
      cases r with
      | none => exact .inl ⟨ht, rfl⟩
      | some a => exact (hf a).2 t (hgo.limit.trans hlimit) ht (hgo.counted hcounted)
    · -- the errors up to the limit are reported, and no report is withdrawn
      refine .inr ⟨ds, hds, ?_, ?_⟩
      · cases r with
        | none => exact hsub
        | some a => exact hsub.trans ((hf a).1 t).suffix
      · cases r' with
        | none => exact hsub'
        | some a => exact hsub'.trans ((hf a).1 t').suffix
  starve := agrees_of_same fun _ _ _ => ⟨rfl, rfl⟩
  peek := agrees_of_same fun s _ _ => by
    rw [peek_unlimited, peek_apply]
    exact ⟨errors_seen s, rfl⟩
  advance := agrees_of_same fun s _ _ => by
    rw [advance, bind_of_some (peek_unlimited s), bind_of_some (peek_apply s)]
    split <;> exact ⟨errors_seen s, rfl⟩
  rounds := agrees_of_same fun _ _ _ => ⟨rfl, rfl⟩
  last := agrees_of_same fun _ _ _ => ⟨rfl, rfl⟩
  built _ := agrees_of_same fun _ _ _ => ⟨rfl, rfl⟩
  builtStmt _ := agrees_of_same fun _ _ _ => ⟨rfl, rfl⟩
  fail := agrees_of_same fun _ _ _ => ⟨rfl, rfl⟩
  report cause span := ⟨Closed.report cause span, fun _ _ _ hs => outcome_erred hs _ cause span⟩
  exhausted := agrees_of_same fun s hlimit hs => by
    refine ⟨rfl, ?_⟩
    -- below the limit nobody sees that there is one
    have hno : exhausted s = (some false, s) := by
      change (some (s.maxErrors ≠ 0 && s.maxErrors ≤ s.errors), s) = _
      simp [hlimit, hs]
    rw [hno]
    rfl
  attempt {_ p} hp := by
    refine ⟨Closed.attempt hp.1, fun s hlimit hs hcounted => ?_⟩
    rcases hp.2 s hlimit hs hcounted with ⟨ht, heq⟩ | h
    · refine .inl ⟨ht, ?_⟩
      change (some (p s.unlimited).1, (p s.unlimited).2) = _
      rw [heq]
      rfl
    · exact .inr h

end Parser

open VecLang.Syntax.Parser

section

variable (lexemes : List Lexeme) {n : Nat}

lemma take_syntaxErrors {ds : List Diagnostic} {m : Nat}
    (h : ds <:+ (module { rest := lexemes, maxErrors := m }).2.reports)
    (hn : n ≤ ds.countP isSyntax) :
    (parse lexemes m).syntaxErrors.take n = (ds.reverse.filter isSyntax).take n := by
  obtain ⟨es, hes⟩ := h
  rw [Parsed.syntaxErrors, parse]
  change (filter isSyntax (reverse _)).take n = _
  rw [← hes, reverse_append, filter_append, take_append_of_le_length]
  rwa [filter_reverse, length_reverse, ← countP_eq_length_filter]

/-- With a limit of `n` errors the first `n` are those that are found without it, and if fewer are
found without it, the limit changes nothing. -/
theorem parse_within_budget (hn : 0 < n) :
    (parse lexemes n).syntaxErrors.take n = (parse lexemes 0).syntaxErrors.take n ∧
      ((parse lexemes 0).syntaxErrors.length < n → parse lexemes n = parse lexemes 0) := by
  have hagrees : Keeps (Agrees n) module := inferInstance
  rcases hagrees.holds.2 { rest := lexemes, maxErrors := n } rfl hn rfl
    with ⟨-, heq⟩ | ⟨ds, hds, hsub, hsub'⟩
  · have hparse : parse lexemes n = parse lexemes 0 := by
      have heq' : module { rest := lexemes, maxErrors := 0 } = _ := heq
      rw [parse, parse, heq']
      rfl
    exact ⟨by rw [hparse], fun _ => hparse⟩
  · refine ⟨(take_syntaxErrors lexemes hsub hds).trans (take_syntaxErrors lexemes hsub' hds).symm,
      fun hfew => ?_⟩
    have hle : n ≤ (parse lexemes 0).syntaxErrors.length := by
      rw [Parsed.syntaxErrors, parse, filter_reverse, length_reverse, ← countP_eq_length_filter]
      exact Nat.le_trans hds hsub'.sublist.countP_le
    exact absurd hle (Nat.not_le.2 hfew)

end

/-- A block in which a statement is not one. -/
def unfinished : List Lexeme := Lexer.lexemes {} "fn f() { 1; x = 2; }\n"

theorem parse_within_budget_unfinished :
    (parse unfinished 1).syntaxErrors.take 1 = (parse unfinished 0).syntaxErrors.take 1 :=
  (parse_within_budget unfinished Nat.zero_lt_one).1

/-- The block is left because of the error in it, and then its closing brace is missed. -/
theorem syntaxErrors_unfinished : (parse unfinished 0).syntaxErrors.length = 1 ∧
    (parse unfinished 1).syntaxErrors.length = 2 := by
  decide +kernel

end VecLang.Syntax
