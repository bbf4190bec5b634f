import VecLang.Proofs.Syntax.Grammar
import VecLang.Proofs.Syntax.Operators
import VecLang.Proofs.Syntax.Reading

/-!
# What is parsed is in the grammar

A parser that builds a tree built it from the tokens it took (`Ends`), and if no error was reported
on the way it is a tree of the grammar. A parser that fails has reported an error. Loops and nested
phrases are bounded by a number of rounds; with more rounds than tokens the bound is never met,
because every round takes a token.
-/

namespace VecLang.Syntax

open Nat
open List hiding head

namespace ParseState

/-- How many errors were reported and bounds were met. -/
def faults (s : ParseState) : Nat := s.errors + s.starved

variable (s : ParseState)

@[simp] lemma starved_seen : s.seen.starved = s.starved := by
  obtain ⟨_, _, h⟩ := s.seen_eq
  rw [h]

end ParseState

namespace Parser

open ParseState

variable {α β : Type} {s t : ParseState} {m n N l : Nat} {k : TokenKind} {i : Token}
  {p : Parser α} {R : Prop → List Token → α → Prop}

/-- A token that is refused but taken. -/
lemma refuseToken_apply (cause : SyntaxCause) (hs : s.head.kind ≠ .eof) : ∃ t,
    (do report cause (← here); let _ ← advance; fail : Parser α) s = (none, t) ∧
      s.tokens = s.head :: t.tokens ∧ t.errors = s.errors + 1 ∧ t.starved = s.starved := by
  obtain ⟨span, hspan⟩ := here_apply s
  have htokens : (s.seen.erred cause span).tokens = s.tokens := tokens_seen s
  have hhead : (s.seen.erred cause span).head = s.head := head_seen s
  refine ⟨(s.seen.erred cause span).took, ?_, ?_, ?_, ?_⟩
  · rw [bind_of_some hspan]
    change (advance >>= fun _ => fail) (s.seen.erred cause span) = _
    rw [bind_of_some (advance_apply (hhead ▸ hs))]
    rfl
  · rw [tokens_took, htokens, ← tokens_took]
    exact tokens_eq_cons rfl hs
  · rw [errors_took, erred, errors_seen]
  · exact (starved_seen _).trans (starved_seen s)

/-- The outcome of a parser that began in the state `s`. What was built stands in the relation `R`
to the tokens that were taken, knowing whether there was no fault on the way. -/
structure Ends (s : ParseState) (R : Prop → List Token → α → Prop) (r : Option α × ParseState) :
    Prop where
  taken : ∃ us, s.tokens = us ++ r.2.tokens ∧ (∀ t ∈ us, t.kind ≠ .eof) ∧
    ∀ a ∈ r.1, R (r.2.faults = s.faults) us a
  mono : s.faults ≤ r.2.faults
  failed : r.1 = none → s.faults < r.2.faults
  fed : r.2.starved = s.starved

/-- The outcome of what goes on behind the tokens `us`. -/
lemma Ends.shift {T : Prop → List Token → β → Prop} {r : Option β × ParseState} (us : List Token)
    (htokens : s.tokens = us ++ t.tokens) (hus : ∀ t ∈ us, t.kind ≠ .eof)
    (hmono : s.faults ≤ t.faults) (hfed : t.starved = s.starved)
    (h : Ends t (fun c vs b => T (t.faults = s.faults ∧ c) (us ++ vs) b) r) : Ends s T r where
  taken := by
    obtain ⟨vs, hvs, hvs', hR⟩ := h.taken
    refine ⟨us ++ vs, by rw [htokens, hvs, append_assoc], forall_mem_append.2 ⟨hus, hvs'⟩,
      fun a ha => ?_⟩
    · -- faults only grow, so there was none on the whole way if there was none on either part
      have hclean : (r.2.faults = s.faults) = (t.faults = s.faults ∧ r.2.faults = t.faults) := by
        have := h.mono
        exact propext ⟨fun _ => by omega, fun h => h.2.trans h.1⟩
      rw [hclean]
      exact hR a ha
  mono := Nat.le_trans hmono h.mono
  failed hnone := Nat.lt_of_le_of_lt hmono (h.failed hnone)
  fed := h.fed.trans hfed

/-- Before the token `i` and with fewer than `n` tokens left, the parser ends as said. -/
def Builds (i : Token) (n : Nat) (p : Parser α) (R : Prop → List Token → α → Prop) : Prop :=
  ∀ s : ParseState, s.head = i → s.tokens.length < n → Ends s R (p s)

namespace Builds

variable {T : Prop → List Token → β → Prop} {f : α → Parser β}

lemma zero : Builds i 0 p R := fun _ _ hs => absurd hs (Nat.not_lt_zero _)

lemma le (h : Builds i n p R) (hm : m ≤ n) : Builds i m p R :=
  fun s hi hs => h s hi (Nat.lt_of_lt_of_le hs hm)

lemma mono {Q : Prop → List Token → α → Prop} (h : Builds i n p R)
    (hRQ : ∀ c us a, R c us a → Q c us a) : Builds i n p Q := by
  intro s hi hs
  obtain ⟨us, hus, heof, hR⟩ := (h s hi hs).taken
  exact { h s hi hs with taken := ⟨us, hus, heof, fun a ha => hRQ _ _ _ (hR a ha)⟩ }

lemma of_pure {a : α} (h : ∀ c, R c [] a) : Builds i n (pure a) R := fun _ _ _ =>
  ⟨⟨[], rfl, nofun, fun _ ha => Option.some.inj ha ▸ h _⟩, Nat.le_refl _, nofun, rfl⟩

/-- One parser after the other: the second goes on with the tokens that the first left, and what it
builds is judged together with those that the first took. -/
lemma bind (hp : Builds i n p R) (hf : ∀ a c us j, R c us a →
      Builds j (n - us.length) (f a) fun c' vs b => T (c ∧ c') (us ++ vs) b) :
    Builds i n (p >>= f) T := by
  intro s hi hs
  have h := hp s hi hs
  rw [bind_apply]
  revert h
  rcases p s with ⟨_ | a, t⟩
  · rintro ⟨⟨us, hus, heof, -⟩, hmono, hfail, hfed⟩
    exact ⟨⟨us, hus, heof, nofun⟩, hmono, fun _ => hfail rfl, hfed⟩
  · rintro ⟨⟨us, hus, heof, hR⟩, hmono, -, hfed⟩
    replace hus : s.tokens = us ++ t.tokens := hus
    rw [hus, length_append] at hs
    exact .shift us hus heof hmono hfed
      (hf a _ us t.head (hR a rfl) t rfl (by omega))

/-- The same where the first parser may fail. -/
lemma attempt {f : Option α → Parser β} (hp : Builds i n p R) (hsome : ∀ a c us j, R c us a →
      Builds j (n - us.length) (f (some a)) fun c' vs b => T (c ∧ c') (us ++ vs) b)
    (hnone : ∀ s us t, s.head = i → s.tokens.length < n → p s = (none, t) →
      s.tokens = us ++ t.tokens →
      Builds t.head (n - us.length) (f none) fun _ vs b => T False (us ++ vs) b) :
    Builds i n (Parser.attempt p >>= f) T := by
  intro s hi hs
  have h := hp s hi hs
  replace hnone := fun us t => hnone s us t hi hs
  rw [bind_of_some (show Parser.attempt p s = (some (p s).1, (p s).2) from rfl)]
  revert h hnone
  rcases p s with ⟨_ | a, t⟩ <;> rintro ⟨⟨us, hus, heof, hR⟩, hmono, hfail, hfed⟩ hnone
  all_goals
    replace hus : s.tokens = us ++ t.tokens := hus
    rw [hus, length_append] at hs
  · have hrest := hnone us t rfl hus t rfl (by omega)
    -- who failed has added a fault, so nothing is promised of the tree that is built in the end
    have hfalse (c : Prop) : (t.faults = s.faults ∧ c) = False :=
      propext ⟨fun h => absurd h.1 (Nat.ne_of_gt (hfail rfl)), False.elim⟩
    refine .shift us hus heof hmono hfed ?_
    simpa only [hfalse] using hrest
  · exact .shift us hus heof hmono hfed
      (hsome a _ us t.head (hR a rfl) t rfl (by omega))

/-- What was taken begins with the next token. -/
lemma head (h : Builds i n p R) :
    Builds i n p fun c us a => R c us a ∧ ∀ j vs, us = j :: vs → j = i := by
  intro s hi hs
  obtain ⟨us, hus, heof, hR⟩ := (h s hi hs).taken
  refine { h s hi hs with taken := ⟨us, hus, heof, fun a ha => ⟨hR a ha, fun j vs hj => ?_⟩⟩ }
  rw [← hi, ParseState.head, hus, hj]
  rfl

/-! ### Single tokens -/

/-- Behind a token that was taken. -/
lemma took (h : ∀ j, Builds j (n - 1) p fun c vs a => R c (s.head :: vs) a)
    (hs : s.tokens.length < n) (hk : s.head.kind ≠ .eof) : Ends s R (p s.took) := by
  have htokens := tokens_eq_cons rfl hk
  have hfaults : s.took.faults = s.faults := by simp [faults, ParseState.took]
  rw [htokens, length_cons] at hs
  refine .shift [s.head] htokens (forall_mem_singleton.2 hk) (Nat.le_of_eq hfaults.symm)
    (starved_seen s) ?_
  simpa [hfaults] using h s.took.head s.took rfl (by omega)

/-- Behind a token that was looked at. -/
lemma seen (h : Builds s.head n p R) (hs : s.tokens.length < n) : Ends s R (p s.seen) := by
  have hfaults : s.seen.faults = s.faults := by simp [faults]
  refine .shift [] (tokens_seen s).symm nofun (Nat.le_of_eq hfaults.symm) (starved_seen s) ?_
  simpa [hfaults] using h s.seen (head_seen s) (by rwa [tokens_seen])

lemma peek {f : Token → Parser α} (h : Builds i n (f i) R) : Builds i n (Parser.peek >>= f) R := by
  rintro s rfl hs
  rw [bind_of_some (peek_apply s)]
  exact h.seen hs

lemma kind {f : TokenKind → Parser α} (h : Builds i n (f i.kind) R) :
    Builds i n (Parser.kind >>= f) R := by
  rw [Parser.kind, bind_assoc]
  exact peek h

lemma next {f : Bool → Parser α} (hyes : i.kind = k → Builds i n (f true) R)
    (hno : i.kind ≠ k → Builds i n (f false) R) : Builds i n (Parser.next k >>= f) R := by
  rw [Parser.next, bind_assoc]
  refine peek ?_
  by_cases hi : i.kind = k
  · have hyes := hyes hi
    rwa [← decide_eq_true hi] at hyes
  · have hno := hno hi
    rwa [← decide_eq_false hi] at hno

lemma advance {f : Token → Parser α} (hi : i.kind ≠ .eof)
    (h : ∀ j, Builds j (n - 1) (f i) fun c vs a => R c (i :: vs) a) :
    Builds i n (Parser.advance >>= f) R := by
  rintro s rfl hs
  rw [bind_of_some (advance_apply hi)]
  exact took h hs hi

lemma expect {cause : SyntaxCause} {f : Token → Parser α} (hk : k ≠ .eof)
    (h : i.kind = k → ∀ j, Builds j (n - 1) (f i) fun c vs b => R c (i :: vs) b) :
    Builds i n (Parser.expect k cause >>= f) R := by
  by_cases hi : i.kind = k
  · rintro s rfl hs
    rw [bind_of_some (expect_of_eq hi hk)]
    exact took (h hi) hs (hi ▸ hk)
  · rintro s rfl hs
    obtain ⟨span, hspan⟩ := expect_of_ne cause hi
    rw [bind_apply, hspan]
    have hlt : s.faults < (s.seen.erred cause span).faults := by simp [faults, erred]
    exact ⟨⟨[], (tokens_seen s).symm, nofun, nofun⟩, Nat.le_of_lt hlt, fun _ => hlt, starved_seen s⟩

lemma accept {f : Bool → Parser α} (hk : k ≠ .eof)
    (hyes : i.kind = k → ∀ j, Builds j (n - 1) (f true) fun c vs b => R c (i :: vs) b)
    (hno : i.kind ≠ k → Builds i n (f false) R) : Builds i n (Parser.accept k >>= f) R := by
  by_cases hi : i.kind = k
  · rintro s rfl hs
    rw [bind_of_some (accept_of_eq hi hk)]
    exact took (hyes hi) hs (hi ▸ hk)
  · rintro s rfl hs
    rw [bind_of_some (accept_of_ne hi)]
    exact (hno hi).seen hs

lemma refuse {cause : SyntaxCause} {span : Span} :
    Builds i n (do Parser.report cause span; fail) R := by
  intro s _ _
  have hlt : s.faults < (s.erred cause span).faults := by simp [faults, erred]
  exact ⟨⟨[], rfl, nofun, nofun⟩, Nat.le_of_lt hlt, fun _ => hlt, rfl⟩

lemma refuseToken {cause : SyntaxCause} (hi : i.kind ≠ .eof) :
    Builds i n (do Parser.report cause (← Parser.here); let _ ← Parser.advance; fail) R := by
  rintro s rfl hs
  obtain ⟨t, ht, htokens, herrors, hfed⟩ := refuseToken_apply (α := α) cause hi
  have hlt : s.faults < t.faults := by simp [faults, herrors, hfed]
  rw [ht]
  exact ⟨⟨[s.head], htokens, forall_mem_singleton.2 hi, nofun⟩, Nat.le_of_lt hlt, fun _ => hlt,
    hfed⟩

lemma here {f : Span → Parser α} (h : ∀ span, Builds i n (f span) R) :
    Builds i n (Parser.here >>= f) R := by
  rw [Parser.here, bind_assoc]
  exact peek fun s => h _ s

lemma rounds {f : Nat → Parser α} (h : ∀ m, m ≤ n → Builds i m (f m) R) :
    Builds i n (Parser.rounds >>= f) R := by
  intro s hi hs
  rw [bind_of_some (rounds_apply s)]
  exact h _ hs s hi (lt_succ_self _)

lemma exhausted {f : Bool → Parser α} (h : ∀ b, Builds i n (f b) R) :
    Builds i n (Parser.exhausted >>= f) R :=
  fun s => h _ s

lemma built {e : Expr} {f : Expr → Parser α} (h : Builds i n (f e) R) :
    Builds i n (Parser.built e >>= f) R := by
  intro s hi hs
  exact { h { s with exprs := s.exprs + 1 } hi hs with }

lemma of_built {e : Expr} {R : Prop → List Token → Expr → Prop} (h : ∀ c, R c [] e) :
    Builds i n (Parser.built e) R := by
  intro s hi hs
  exact { of_pure (n := n) h { s with exprs := s.exprs + 1 } hi hs with }

lemma of_builtStmt {u : Stmt} {R : Prop → List Token → Stmt → Prop} (h : ∀ c, R c [] u) :
    Builds i n (builtStmt u) R := by
  intro s hi hs
  exact { of_pure (n := n) h { s with stmts := s.stmts + 1 } hi hs with }

lemma upToLast {span : Span} {f : Span → Parser α} (h : ∀ span, Builds i n (f span) R) :
    Builds i n (Parser.upToLast span >>= f) R := fun s => h _ s

end Builds

/-! ## Expressions -/

lemma lookup_levels (hl : l < 6) (k : TokenKind) : (levels.getD l []).lookup k =
      (binary? k).bind fun o => if o.1 = l then some o.2 else none := by
  have hcases : l = 0 ∨ l = 1 ∨ l = 2 ∨ l = 3 ∨ l = 4 ∨ l = 5 := by omega
  rcases hcases with rfl | rfl | rfl | rfl | rfl | rfl <;> cases k <;> rfl

lemma lookup_levels_eq_some (hl : l < 6) {op : BinaryOp} :
    (levels.getD l []).lookup k = some op ↔ binary? k = some (l, op) := by
  rw [lookup_levels hl, Option.bind_eq_some_iff]
  constructor
  · rintro ⟨⟨l', op'⟩, h, hop⟩
    split at hop
    case isTrue heq =>
      cases heq
      cases hop
      exact h
    · cases hop
  · intro h
    exact ⟨_, h, if_pos rfl⟩

lemma unaryOp?_eq_some {op : UnaryOp} :
    unaryOp? k = some op ↔ k = .minus ∧ op = .neg ∨ k = .kwNot ∧ op = .not := by
  cases k <;> simp [unaryOp?, eq_comm]

lemma isSwizzle_iff {b : Bytes} : isSwizzle b = true ↔ Lanes b := by
  unfold isSwizzle Lanes
  simp only [ne_eq, decide_not, Bool.and_eq_true, Bool.not_eq_true', decide_eq_false_iff_not,
    decide_eq_true_eq, all_eq_true, and_assoc, Nat.one_le_iff_ne_zero, length_eq_zero_iff]
  exact and_congr_right fun _ => and_congr_right fun _ => forall₂_congr fun c _ =>
    mem_laneLetters.symm

/-- The tree of an expression of the level `l`. -/
structure ExprOf (l : Nat) (us : List Token) (x : Expr) : Prop where
  derives : Derives l us x.bare
  valid : x.Valid

lemma ExprOf.tighter {us : List Token} {x : Expr} (hl : l < 8) (h : ExprOf (l + 1) us x) :
    ExprOf l us x :=
  ⟨.tighter hl h.derives, h.valid⟩

/-- An expression is in the grammar even if something else is not. -/
abbrev BuildsExpr (l : Nat) (n : Nat) (p : Parser Expr) : Prop :=
  ∀ {i}, Builds i n p fun _ => ExprOf l

section Expressions

variable {nested : Parser Expr} (hnested : BuildsExpr 0 N nested)
include hnested

lemma builds_arguments (hn : n ≤ N) :
    Builds i n (arguments nested n) fun _ us args =>
      DerivesArgs us (bareArgs args) ∧ AllValid args := by
  induction n generalizing i with
  | zero => exact .zero
  | succ n ih =>
    rw [arguments]
    refine .next (fun _ => .of_pure fun _ => ⟨.nil, trivial⟩) fun _ =>
      .bind (hnested.le hn) fun arg _ us j harg => ?_
    refine .accept (by decide) (fun hj _ => ?_) fun _ => .of_pure fun _ => ?_
    · refine .bind ((ih (by omega)).le (by omega)) fun more _ vs _ hmore => .of_pure fun _ => ?_
      rw [append_nil]
      exact ⟨.more harg.derives hj hmore.1, harg.valid, hmore.2⟩
    · rw [append_nil]
      exact ⟨.last harg.derives, harg.valid, trivial⟩

lemma builds_primary : BuildsExpr 8 (N + 1) (primary nested) := by
  intro i
  rw [primary]
  refine .peek ?_
  split
  case isTrue hlit =>
    refine .advance (fun hi => by rw [hi] at hlit; cases hlit) fun _ => .of_built fun _ => ?_
    exact ⟨.lit hlit, trivial⟩
  split
  case isTrue _ hi =>
    refine .advance (hi ▸ nofun) fun j =>
      .accept (by decide) (fun hj _ => .rounds fun n hn => ?_) fun _ => ?_
    · refine .bind (builds_arguments hnested (by omega)) fun args _ us c hargs => ?_
      refine .expect (by decide) fun hc _ => .upToLast fun _ => .of_built fun _ => ?_
      exact ⟨.call hi hj hargs.1 hc, hargs.2⟩
    · exact .of_built fun _ => ⟨.ident hi, trivial⟩
  split
  case isTrue _ hi =>
    refine .advance (hi ▸ nofun) fun _ => .bind (hnested.le (by omega)) fun x _ us c hx => ?_
    refine .expect (by decide) fun hc _ => .upToLast fun _ => .of_built fun _ => ?_
    exact ⟨.group hi hx.derives hc, hx.valid⟩
  · exact .here fun _ => .refuse

omit hnested in
lemma builds_swizzles (n : Nat) (x : Expr) (us : List Token) (hx : ExprOf 7 us x) :
    Builds i n (swizzles n x) fun _ vs => ExprOf 7 (us ++ vs) := by
  induction n generalizing x us i with
  | zero => exact .zero
  | succ n ih =>
    rw [swizzles]
    refine .accept (by decide) (fun hd c => .expect (by decide) fun hc _ => ?_) fun _ =>
      .of_pure fun _ => ?_
    · split
      case isTrue hlanes =>
        refine .built (((ih _ (us ++ [i, c]) ?_).le (by omega)).mono fun _ vs e he => ?_)
        · exact ⟨.swizzle hx.derives hd hc (isSwizzle_iff.1 hlanes), hlanes, hx.valid⟩
        · simpa using he
      case isFalse => exact .refuse
    · rwa [append_nil]

lemma builds_unary (hn : n ≤ N + 1) : BuildsExpr 6 n (unary nested n) := by
  intro i
  induction n generalizing i with
  | zero => exact .zero
  | succ n ih =>
    rw [unary]
    refine .kind ?_
    cases hop : unaryOp? i.kind with
    | some op =>
      have hi : i.kind ≠ .eof := fun hi => by rw [hi] at hop; cases hop
      refine .advance hi fun _ => .bind (ih (by omega)) fun x _ us _ hx => .of_built fun _ => ?_
      rw [append_nil]
      refine ⟨.unary (unaryOp?_eq_some.1 hop) hx.derives, ?_, hx.valid⟩
      rcases unaryOp?_eq_some.1 hop with ⟨-, rfl⟩ | ⟨-, rfl⟩ <;> decide
    | none =>
      refine .bind ((builds_primary hnested).le hn) fun x _ us _ hx => .rounds fun m _ => ?_
      exact (builds_swizzles m x us (hx.tighter (by decide))).mono fun _ _ _ h =>
        h.tighter (by decide)

omit hnested

variable {ops : List (TokenKind × BinaryOp)} {operand : Parser Expr}

lemma builds_chain (hops : ∀ k op, ops.lookup k = some op → binary? k = some (l, op))
    (hoperand : BuildsExpr (l + 1) N operand) (hn : n ≤ N) (left : Expr) (us : List Token)
    (hleft : ExprOf l us left) :
    Builds i n (chain ops operand n left) fun _ vs => ExprOf l (us ++ vs) := by
  induction n generalizing left us i with
  | zero => exact .zero
  | succ n ih =>
    rw [chain]
    refine .kind ?_
    cases hop : ops.lookup i.kind with
    | some op =>
      have hbinary := hops _ _ hop
      have hi : i.kind ≠ .eof := fun hi => by rw [hi] at hbinary; cases hbinary
      refine .advance hi fun _ => .bind (hoperand.le (by omega)) fun right _ ws _ hright =>
        .built ?_
      have hvalid : op ≠ .invalid := by
        rintro rfl
        revert hbinary
        cases i.kind <;> nofun
      refine ((ih (by omega) _ (us ++ i :: ws) ?_).le (by omega)).mono fun _ vs e he => ?_
      · exact ⟨.binary hleft.derives hbinary hright.derives, hvalid, hleft.valid, hright.valid⟩
      · simpa using he
    | none =>
      refine .of_pure fun _ => ?_
      rwa [append_nil]

lemma builds_level (hl : l < 8) (hops : ∀ k op, ops.lookup k = some op → binary? k = some (l, op))
    (hoperand : BuildsExpr (l + 1) N operand) : BuildsExpr l N (level ops operand) := by
  intro i
  rw [level]
  refine .bind hoperand fun left _ us _ hleft => .rounds fun m hm => ?_
  exact builds_chain hops hoperand (by omega) left us (hleft.tighter hl)

lemma builds_exprOver (hnested : BuildsExpr 0 N nested) :
    BuildsExpr 0 (N + 1) (exprOver nested) := by
  have hlevel {l : Nat} (hl : l < 6) {operand : Parser Expr}
      (hoperand : BuildsExpr (l + 1) (N + 1) operand) :
      BuildsExpr l (N + 1) (level (levels.getD l []) operand) :=
    builds_level (by omega) (fun _ _ => (lookup_levels_eq_some hl).1) hoperand
  have hunary : BuildsExpr 6 (N + 1) (do unary nested (← rounds)) :=
    .rounds fun m hm => builds_unary hnested hm
  have h5 : BuildsExpr 5 (N + 1) _ := hlevel (by decide) hunary
  have h4 : BuildsExpr 4 (N + 1) _ := hlevel (by decide) h5
  have h3 : BuildsExpr 3 (N + 1) _ := hlevel (by decide) h4
  have h2 : BuildsExpr 2 (N + 1) _ := hlevel (by decide) h3
  have h1 : BuildsExpr 1 (N + 1) _ := hlevel (by decide) h2
  intro i
  exact hlevel (l := 0) (by decide) h1

end Expressions

lemma builds_exprTo (n : Nat) : BuildsExpr 0 n (exprTo n) := by
  induction n with
  | zero => exact .zero
  | succ n ih => exact builds_exprOver ih

lemma builds_expr : BuildsExpr 0 n expr := .rounds fun m _ => builds_exprTo m

/-! ## Statements -/

lemma builds_typeAfter (hk : k ≠ .eof) :
    Builds i n (typeAfter k) fun _ us type => DerivesType k us (type.map TypeName.bare) := by
  rw [typeAfter]
  refine .accept hk (fun hi j => ?_) fun _ => .of_pure fun _ => .none
  rw [typeName, bind_assoc]
  exact .expect (by decide) fun hj _ => .of_pure fun _ => .some hi hj

lemma builds_finish {start : Span} {stmt : Span → Stmt} {R : Prop → List Token → Stmt → Prop}
    (h : ∀ c z span, z.kind = .semicolon → R c [z] (stmt span)) :
    Builds i n (finish start stmt) R := by
  rw [finish]
  exact .expect (by decide) fun hi _ => .upToLast fun span => .of_builtStmt fun c => h c i span hi

/-- The tree of a statement, of the grammar if there was no fault. -/
structure StmtIf (c : Prop) (us : List Token) (u : Stmt) : Prop where
  ne_nil : us ≠ []
  valid : u.Valid
  derives : c → DerivesStmt us u.bare

abbrev BuildsStmt (n : Nat) (p : Parser Stmt) : Prop := ∀ {i}, Builds i n p StmtIf

lemma builds_letStmt (hi : i.kind = .kwLet) : Builds i n letStmt StmtIf := by
  rw [letStmt]
  refine .advance (hi ▸ nofun) fun name => .expect (by decide) fun hname _ => ?_
  refine .bind (builds_typeAfter (by decide)) fun type _ ts a htype => ?_
  refine .expect (by decide) fun ha _ => .bind builds_expr fun value _ us _ hvalue =>
    builds_finish fun _ z _ hz => ?_
  exact ⟨nofun, hvalue.valid, fun _ => .letVar hi hname htype ha hvalue.derives hz⟩

lemma builds_returnStmt (hi : i.kind = .kwReturn) : Builds i n returnStmt StmtIf := by
  rw [returnStmt]
  refine .advance (hi ▸ nofun) fun _ => .next (fun _ => ?_) fun _ => ?_
  · exact builds_finish fun _ z _ hz => ⟨nofun, nofun, fun _ => .ret hi hz⟩
  · have hmap : (some <$> expr : Parser (Option Expr)) = expr >>= fun e => pure (some e) := rfl
    change Builds _ _ ((some <$> expr) >>= _) _
    rw [hmap, bind_assoc]
    refine .bind builds_expr fun value _ us _ hvalue => builds_finish fun _ z _ hz => ?_
    exact ⟨nofun, fun _ h => Option.some.inj h ▸ hvalue.valid, fun _ =>
      .retValue hi hvalue.derives hz⟩

lemma builds_simpleStmt : BuildsStmt n simpleStmt := by
  intro i
  rw [simpleStmt_eq]
  refine .bind builds_expr fun x _ us j hx => .next (fun hj => ?_) fun _ => ?_
  · cases x with
    | ident span name =>
      obtain ⟨a, rfl, ha, rfl⟩ := hx.derives.eq_singleton rfl
      refine .advance (hj ▸ nofun) fun _ => .bind builds_expr fun value _ vs _ hvalue => ?_
      exact builds_finish fun _ z _ hz =>
        ⟨nofun, hvalue.valid, fun _ => .assign ha hj hvalue.derives hz⟩
    | call => exact builds_finish fun _ z _ hz => ⟨by simp, hx.valid, fun _ => .call hx.derives hz⟩
    | _ => exact .refuse
  · cases x with
    | call => exact builds_finish fun _ z _ hz => ⟨by simp, hx.valid, fun _ => .call hx.derives hz⟩
    | _ => exact .refuse

/-- What begins by taking a token takes one. -/
lemma length_advance_lt {g : Token → Parser α} [∀ t, Going (g t)] (hs : s.head.kind ≠ .eof) :
    ((advance >>= g) s).2.tokens.length < s.tokens.length := by
  rw [bind_of_some (advance_apply hs)]
  refine Nat.lt_of_le_of_lt ((goes (g s.head) s.took).rest.map (·.token)).length_le ?_
  have htook : s.tokens = s.head :: s.took.tokens := tokens_eq_cons rfl hs
  rw [htook]
  exact lt_succ_self _

/-- The tokens that nothing is skipped behind. -/
def stops : List TokenKind := [.eof, .rbrace, .kwLet, .kwIf, .kwWhile, .kwReturn]

lemma builds_resyncStmt (n : Nat) :
    Builds i n (resyncStmt n) fun _ us _ => us = [] → i.kind ∈ stops := by
  induction n generalizing i with
  | zero => exact .zero
  | succ n ih =>
    rw [resyncStmt]
    refine .kind ?_
    cases hi : i.kind with
    | eof | rbrace | kwLet | kwIf | kwWhile | kwReturn => exact .of_pure fun _ _ => by decide
    | semicolon => exact .advance (hi ▸ nofun) fun _ => .of_pure fun _ => nofun
    | _ => exact .advance (hi ▸ nofun) fun _ => ih.mono fun _ _ _ _ => nofun

lemma advance_seen {g : Token → Parser β} (heof : s.head.kind ≠ .eof) :
    (advance >>= g) s.seen = g s.head s.took := by
  rw [bind_of_some (advance_apply (by rwa [head_seen])), head_seen, took_seen]

/-- A loop that stops or goes on behind the next token stops, with more rounds than tokens. -/
lemma exists_of_rounds {loop : Nat → Parser Unit} (h : ∀ n s, (∃ t, loop (n + 1) s = (some (), t)) ∨
      s.head.kind ≠ .eof ∧ loop (n + 1) s = loop n s.took) :
    ∀ n s, s.tokens.length < n → ∃ t, loop n s = (some (), t) := by
  intro n
  induction n with
  | zero => exact fun _ hs => absurd hs (Nat.not_lt_zero _)
  | succ n ih =>
    intro s hs
    rcases h n s with hstop | ⟨heof, hgo⟩
    · exact hstop
    · rw [tokens_eq_cons rfl heof, length_cons] at hs
      rw [hgo]
      exact ih s.took (by omega)

lemma resyncStmt_stops : ∀ n s, s.tokens.length < n → ∃ t, resyncStmt n s = (some (), t) := by
  refine exists_of_rounds fun n s => ?_
  rw [resyncStmt, bind_of_some (kind_apply s)]
  cases hk : s.head.kind with
  | eof | rbrace | kwLet | kwIf | kwWhile | kwReturn => exact .inl ⟨_, rfl⟩
  | semicolon => exact .inl ⟨_, advance_seen (hk ▸ nofun)⟩
  | _ => exact .inr ⟨nofun, advance_seen (hk ▸ nofun)⟩

/-- A statement takes the keyword it begins with. -/
def TakesKey (n : Nat) (p : Parser Stmt) : Prop :=
  ∀ s, s.tokens.length < n → s.head.kind ∈ stops.drop 2 → (p s).2.tokens.length < s.tokens.length

/-- Behind a statement that failed there are fewer tokens when those up to a stop are skipped: it
was begun by a keyword, which is taken, or a token is skipped. -/
lemma TakesKey.taken_of_failed {p : Parser Stmt} {us vs : List Token} (h : TakesKey n p)
    (hs : s.head.kind ≠ .rbrace ∧ s.head.kind ≠ .eof) (hlen : s.tokens.length < n)
    (hfail : p s = (none, t)) (hus : s.tokens = us ++ t.tokens)
    (hvs : vs = [] → t.head.kind ∈ stops) : 0 < us.length + vs.length := by
  rcases us with - | ⟨u, us⟩
  · rcases vs with - | ⟨v, vs⟩
    · -- nothing was skipped, so a keyword stands here, and the statement would have taken it
      have hhead : t.head = s.head := by rw [head, head, hus, nil_append]
      have hstop := hvs rfl
      rw [hhead] at hstop
      have hlt := h s hlen (by simpa [stops, hs] using hstop)
      rw [hfail, hus] at hlt
      simp at hlt
    · simp
  · exact Nat.add_pos_left (succ_pos _) _

/-- The statements of a body, of the grammar if there was no fault. -/
structure BodyIf (D : List Token → List Stmt → Prop) (c : Prop) (us : List Token)
    (body : List Stmt) : Prop where
  valid : StmtsValid body
  derives : c → D us (bareBody body)

section Statements

variable {nested : Parser Stmt} (hnested : BuildsStmt N nested) (hkey : TakesKey N nested)
include hnested hkey

lemma builds_statements (hn : n ≤ N) : Builds i n (statements nested n) (BodyIf DerivesBody) := by
  induction n generalizing i with
  | zero => exact .zero
  | succ n ih =>
    rw [statements]
    refine .kind (.exhausted fun b => ?_)
    split
    · exact .of_pure fun _ => ⟨trivial, fun _ => .nil⟩
    case isFalse hgo =>
    have hi : i.kind ≠ .rbrace ∧ i.kind ≠ .eof := by
      simp only [Bool.or_eq_true, decide_eq_true_eq, not_or] at hgo
      exact hgo.1
    refine .attempt (hnested.le hn) (fun t _ us _ ht => ?_) fun s us t hs hlen hfail hus => ?_
    · have := length_pos_iff.2 ht.ne_nil
      refine .bind ((ih (by omega)).le (by omega)) fun more _ ws _ hmore => .of_pure fun _ => ?_
      rw [append_nil]
      exact ⟨⟨ht.valid, hmore.valid⟩, fun hc => .cons (ht.derives hc.1) (hmore.derives hc.2.1)⟩
    · refine .rounds fun m hm => .bind (builds_resyncStmt m) fun _ _ vs _ hvs => ?_
      -- a round that builds nothing takes a token all the same
      have htaken := hkey.taken_of_failed (hs ▸ hi) (by omega) hfail hus hvs
      exact ((ih (by omega)).le (by omega)).mono fun _ ws body hbody =>
        ⟨hbody.valid, fun hc => hc.elim⟩

lemma builds_block : Builds i (N + 1) (block nested) (BodyIf DerivesBlock) := by
  rw [block]
  refine .expect (by decide) fun ho _ => .rounds fun n hn => ?_
  refine .bind (builds_statements hnested hkey hn) fun body _ us c hbody => ?_
  refine .expect (by decide) fun hc _ => .of_pure fun _ => ⟨hbody.valid, fun h => ?_⟩
  exact .braces ho (hbody.derives h.1) hc

lemma builds_elseBranch : Builds i (N + 1) (elseBranch nested) (BodyIf DerivesElse) := by
  rw [elseBranch]
  refine .accept (by decide) (fun hi j => .next (fun hj => ?_) fun _ => ?_) fun _ =>
    .of_pure fun _ => ?_
  · refine .bind (hnested.head) fun u _ us _ ⟨hu, hhead⟩ => .of_pure fun _ =>
      ⟨⟨hu.valid, trivial⟩, fun h => ?_⟩
    -- the nested statement begins with the keyword that was seen
    obtain ⟨a, vs, rfl⟩ := exists_cons_of_ne_nil hu.ne_nil
    obtain rfl := hhead a vs rfl
    rw [append_nil]
    exact .choice hi hj (hu.derives h.1)
  · exact ((builds_block hnested hkey).le (by omega)).mono fun c us body hbody =>
      ⟨hbody.valid, fun h => .block hi (hbody.derives h)⟩
  · exact ⟨trivial, fun _ => .none⟩

lemma builds_ifStmt (hi : i.kind = .kwIf) : Builds i (N + 1) (ifStmt nested) StmtIf := by
  rw [ifStmt_eq]
  refine .advance (hi ▸ nofun) fun _ => .bind builds_expr fun cond _ us _ hcond => ?_
  refine .bind ((builds_block hnested hkey).le (by omega)) fun body _ vs _ hbody => ?_
  refine .bind ((builds_elseBranch hnested hkey).le (by omega)) fun other _ ws _ hother => ?_
  refine .upToLast fun _ => .of_builtStmt fun _ =>
    ⟨nofun, ⟨hcond.valid, hbody.valid, hother.valid⟩, fun h => ?_⟩
  rw [append_nil, ← append_assoc]
  exact .ifElse hi hcond.derives (hbody.derives h.2.1) (hother.derives h.2.2.1)

lemma builds_whileStmt (hi : i.kind = .kwWhile) : Builds i (N + 1) (whileStmt nested) StmtIf := by
  rw [whileStmt]
  refine .advance (hi ▸ nofun) fun _ => .bind builds_expr fun cond _ us _ hcond => ?_
  refine .bind ((builds_block hnested hkey).le (by omega)) fun body _ vs _ hbody => ?_
  refine .upToLast fun _ => .of_builtStmt fun _ => ⟨nofun, ⟨hcond.valid, hbody.valid⟩, fun h => ?_⟩
  rw [append_nil]
  exact .whileDo hi hcond.derives (hbody.derives h.2.1)

lemma builds_stmtOver : BuildsStmt (N + 1) (stmtOver nested) := by
  intro i
  rw [stmtOver]
  refine .kind ?_
  cases hi : i.kind with
  | kwLet => exact builds_letStmt hi
  | kwIf => exact builds_ifStmt hnested hkey hi
  | kwWhile => exact builds_whileStmt hnested hkey hi
  | kwReturn => exact builds_returnStmt hi
  | kwBreak =>
    refine .advance (hi ▸ nofun) fun _ => ?_
    exact builds_finish fun _ z _ hz => ⟨nofun, trivial, fun _ => .breakLoop hi hz⟩
  | kwContinue =>
    refine .advance (hi ▸ nofun) fun _ => ?_
    exact builds_finish fun _ z _ hz => ⟨nofun, trivial, fun _ => .continueLoop hi hz⟩
  | _ => exact builds_simpleStmt

omit hnested hkey

variable [Going nested]

lemma takesKey_stmtOver : TakesKey N (stmtOver nested) := by
  intro s _ hs
  have hseen : s.seen.tokens = s.tokens := tokens_seen s
  rw [stmtOver, bind_of_some (kind_apply s), ← hseen]
  simp only [stops, drop_succ_cons, drop_zero, mem_cons, not_mem_nil, or_false] at hs
  have heof : s.seen.head.kind ≠ .eof := by
    rw [head_seen]
    rintro heof
    simp [heof] at hs
  rcases hs with hs | hs | hs | hs <;> rw [hs]
  · exact length_advance_lt heof
  · rw [ifStmt_eq]
    exact length_advance_lt heof
  · exact length_advance_lt heof
  · exact length_advance_lt heof

end Statements

lemma takesKey_stmtTo (n : Nat) : TakesKey n (stmtTo n) := by
  cases n with
  | zero => exact fun s hs => absurd hs (Nat.not_lt_zero _)
  | succ n => exact takesKey_stmtOver

lemma builds_stmtTo (n : Nat) : BuildsStmt n (stmtTo n) := by
  induction n with
  | zero => exact .zero
  | succ n ih => exact builds_stmtOver ih (takesKey_stmtTo n)

lemma builds_stmt : BuildsStmt n stmt := .rounds fun m _ => builds_stmtTo m

lemma takesKey_stmt : TakesKey n stmt := by
  intro s _ hs
  rw [stmt, bind_of_some (rounds_apply s)]
  exact takesKey_stmtTo _ s (lt_succ_self _) hs

/-! ## Declarations -/

lemma builds_params (n : Nat) : Builds i n (params n) fun _ us ps =>
    DerivesParams us (ps.map Param.bare) := by
  induction n generalizing i with
  | zero => exact .zero
  | succ n ih =>
    rw [params]
    refine .next (fun _ => .of_pure fun _ => .nil) fun _ => .expect (by decide) fun hi _ => ?_
    refine .bind (builds_typeAfter (by decide)) fun type _ ts j htype => ?_
    refine .accept (by decide) (fun hj _ => ?_) fun _ => .of_pure fun _ => ?_
    · refine .bind (ih.le (by omega)) fun more _ us _ hmore => .of_pure fun _ => ?_
      rw [append_nil]
      exact .more hi htype hj hmore
    · rw [append_nil]
      exact .last hi htype

/-- The tree of a declaration, of the grammar if there was no fault. -/
structure ItemIf (c : Prop) (us : List Token) (i : Item) : Prop where
  ne_nil : us ≠ []
  valid : i.Valid
  derives : c → DerivesItem us i.bare

lemma builds_fnDecl (hi : i.kind = .kwFn) :
    Builds i n fnDecl fun c us d => ItemIf c us (.fn d) := by
  rw [fnDecl]
  refine .advance (hi ▸ nofun) fun name => .expect (by decide) fun hname o =>
    .expect (by decide) fun ho _ => ?_
  refine .rounds fun m _ => .bind (builds_params m) fun ps _ us c hps =>
    .expect (by decide) fun hc _ => ?_
  refine .bind (builds_typeAfter (by decide)) fun result _ ts _ hresult => ?_
  refine .bind ((builds_block builds_stmt takesKey_stmt).le (le_succ _)) fun body _ bs _ hbody => ?_
  refine .upToLast fun _ => .of_pure fun _ => ⟨nofun, hbody.valid, fun h => ?_⟩
  rw [append_nil]
  exact .fn hi hname ho hps hc hresult (hbody.derives h.2.2.1)

lemma builds_constDecl (hi : i.kind = .kwConst) :
    Builds i n constDecl fun c us d => ItemIf c us (.const d) := by
  rw [constDecl]
  refine .advance (hi ▸ nofun) fun name => .expect (by decide) fun hname _ => ?_
  refine .bind (builds_typeAfter (by decide)) fun type _ ts a htype => ?_
  refine .expect (by decide) fun ha _ => .bind builds_expr fun value _ us z hvalue => ?_
  refine .expect (by decide) fun hz _ => .upToLast fun _ => .of_pure fun _ =>
    ⟨nofun, hvalue.valid, fun _ => ?_⟩
  exact .const hi hname htype ha hvalue.derives hz

lemma builds_item (heof : i.kind ≠ .eof) : Builds i n item ItemIf := by
  rw [item]
  refine .kind ?_
  cases hi : i.kind with
  | kwFn =>
    change Builds _ _ (fnDecl >>= fun d => pure (Item.fn d)) _
    refine .bind (builds_fnDecl hi) fun d _ us _ hd => .of_pure fun _ => ?_
    rw [append_nil]
    exact ⟨hd.ne_nil, hd.valid, fun h => hd.derives h.1⟩
  | kwConst =>
    change Builds _ _ (constDecl >>= fun d => pure (Item.const d)) _
    refine .bind (builds_constDecl hi) fun d _ us _ hd => .of_pure fun _ => ?_
    rw [append_nil]
    exact ⟨hd.ne_nil, hd.valid, fun h => hd.derives h.1⟩
  | _ => exact .refuseToken heof

lemma builds_resyncTop (n : Nat) : Builds i n (resyncTop n) fun _ _ _ => True := by
  induction n generalizing i with
  | zero => exact .zero
  | succ n ih =>
    rw [resyncTop]
    refine .kind ?_
    cases hi : i.kind with
    | eof | kwFn | kwConst => exact .of_pure fun _ => trivial
    | _ => exact .advance (hi ▸ nofun) fun _ => ih

lemma snd_map (g : α → β) (p : Parser α) (s : ParseState) : ((g <$> p) s).2 = (p s).2 := by
  change ((p >>= fun a => pure (g a)) s).2 = (p s).2
  rw [bind_apply]
  rcases p s with ⟨_ | a, t⟩ <;> rfl

set_option synthInstance.maxSize 512 in
lemma length_item_lt (hs : s.head.kind ≠ .eof) : (item s).2.tokens.length < s.tokens.length := by
  have hseen : s.seen.tokens = s.tokens := tokens_seen s
  rw [item, bind_of_some (kind_apply s), ← hseen]
  rw [← head_seen] at hs
  have hother (cause : SyntaxCause) :
      ((do report cause (← here); let _ ← advance; fail : Parser Item) s.seen).2.tokens.length
        < s.seen.tokens.length := by
    obtain ⟨t, ht, htokens, -⟩ := refuseToken_apply (α := Item) cause hs
    rw [ht, htokens]
    exact lt_succ_self _
  cases s.head.kind with
  | kwFn =>
    rw [snd_map]
    exact length_advance_lt hs
  | kwConst =>
    rw [snd_map]
    exact length_advance_lt hs
  | _ => exact hother _

lemma builds_items (n : Nat) : Builds i n (items n) fun c us is =>
    (∀ i ∈ is, i.Valid) ∧ (c → DerivesUnit us (is.map Item.bare)) := by
  induction n generalizing i with
  | zero => exact .zero
  | succ n ih =>
    rw [items]
    refine .kind (.exhausted fun b => ?_)
    split
    · exact .of_pure fun _ => ⟨nofun, fun _ => .nil⟩
    case isFalse hgo =>
    have hi : i.kind ≠ .eof := by
      simp only [Bool.or_eq_true, decide_eq_true_eq, not_or] at hgo
      exact hgo.1
    refine .attempt (builds_item hi) (fun d _ us _ hd => ?_) fun s us t hs _ hfail hus => ?_
    · have := length_pos_iff.2 hd.ne_nil
      refine .bind (ih.le (by omega)) fun more _ ws _ hmore => .of_pure fun _ => ?_
      rw [append_nil]
      exact ⟨forall_mem_cons.2 ⟨hd.valid, hmore.1⟩, fun hc =>
        .cons (hd.derives hc.1) (hmore.2 hc.2.1)⟩
    · have hlt := length_item_lt (hs ▸ hi)
      rw [hfail, hus, length_append] at hlt
      replace hlt : t.tokens.length < us.length + t.tokens.length := hlt
      refine .rounds fun m hm => .bind (builds_resyncTop m) fun _ _ vs _ _ => ?_
      exact (ih.le (by omega)).mono fun _ ws is his => ⟨his.1, fun hc => hc.elim⟩

lemma resyncTop_stops : ∀ n s, s.tokens.length < n → ∃ t, resyncTop n s = (some (), t) := by
  refine exists_of_rounds fun n s => ?_
  rw [resyncTop, bind_of_some (kind_apply s)]
  cases hk : s.head.kind with
  | eof | kwFn | kwConst => exact .inl ⟨_, rfl⟩
  | _ => exact .inr ⟨nofun, advance_seen (hk ▸ nofun)⟩

/-- The declarations are read up to the end of the text, or until there are as many errors as
allowed. -/
lemma items_stops (n : Nat) (s : ParseState) (hs : s.tokens.length < n) :
    ∃ is t, items n s = (some is, t) ∧
    (t.head.kind = .eof ∨ t.maxErrors ≠ 0 ∧ t.maxErrors ≤ t.errors) := by
  induction n generalizing s with
  | zero => exact absurd hs (Nat.not_lt_zero _)
  | succ n ih =>
    rw [items, bind_of_some (kind_apply s),
      bind_of_some (show exhausted s.seen = (some _, s.seen) from rfl)]
    split
    case isTrue heof =>
      refine ⟨[], s.seen, rfl, ?_⟩
      simpa using heof
    case isFalse hgo =>
    have heof : s.seen.head.kind ≠ .eof := by
      rw [head_seen]
      rintro heof
      simp [heof] at hgo
    -- whether or not a declaration is built, the next round has fewer tokens before it
    have hlt := length_item_lt heof
    rw [tokens_seen] at hlt
    rw [bind_of_some (show attempt item s.seen = (some (item s.seen).1, (item s.seen).2) from rfl)]
    revert hlt
    rcases item s.seen with ⟨_ | i, t⟩ <;> intro hlt <;>
      replace hlt : t.tokens.length < s.tokens.length := hlt
    · obtain ⟨u, hu⟩ := resyncTop_stops _ t (lt_succ_self _)
      have hle : u.tokens.length ≤ t.tokens.length := by
        have hgoes := (goes (resyncTop (t.tokens.length + 1)) t).rest
        rw [hu] at hgoes
        exact (hgoes.map (·.token)).length_le
      change ∃ is v, (rounds >>= fun n' => resyncTop n' >>= fun _ => items n) t = (some is, v) ∧ _
      rw [bind_of_some (rounds_apply t), bind_of_some hu]
      exact ih u (by omega)
    · obtain ⟨is, u, hu, hend⟩ := ih t (by omega)
      exact ⟨i :: is, u, bind_of_some (f := fun more => pure (i :: more)) hu, hend⟩

lemma module_of_items {is : List Item}
    (h : items (s.seen.tokens.length + 1) s.seen = (some is, t)) :
    module s = (some ⟨s.head.span.cover t.last, is⟩, t) := by
  rw [module, bind_of_some (peek_apply s), bind_of_some (rounds_apply _), bind_of_some h]
  rfl

/-- What is read of a whole text. -/
structure Reads (s : ParseState) (m : Module) (t : ParseState) (us : List Token) : Prop where
  runs : module s = (some m, t)
  tokens : s.tokens = us ++ t.tokens
  taken : ∀ u ∈ us, u.kind ≠ .eof
  valid : ∀ i ∈ m.items, i.Valid
  derives : t.errors = s.errors → DerivesUnit us (m.items.map Item.bare)
  stops : t.head.kind = .eof ∨ t.maxErrors ≠ 0 ∧ t.maxErrors ≤ t.errors
  fed : t.starved = s.starved

lemma exists_reads (s : ParseState) : ∃ m t us, Reads s m t us := by
  obtain ⟨is, t, hitems, hstops⟩ := items_stops _ s.seen (lt_succ_self _)
  have hends := builds_items _ s.seen (head_seen s) (lt_succ_self _)
  rw [hitems] at hends
  obtain ⟨⟨us, hus, htaken, his⟩, -, -, hfed⟩ := hends
  rw [tokens_seen] at hus
  rw [starved_seen] at hfed
  refine ⟨_, t, us, module_of_items hitems, hus, htaken, (his is rfl).1, fun h => (his is rfl).2 ?_,
    hstops, hfed⟩
  replace hfed : t.starved = s.starved := hfed
  simp [faults, h, hfed]

/-- The end of the text is not taken. -/
lemma Reads.exists_rest {m : Module} {us ts : List Token} {z : Token} (h : Reads s m t us)
    (hs : s.tokens = ts ++ [z]) (hz : z.kind = .eof) :
    ∃ vs, ts = us ++ vs ∧ t.tokens = vs ++ [z] := by
  rcases append_eq_append_iff.1 (h.tokens.symm.trans hs) with hrest | ⟨vs, rfl, hvs⟩
  · exact hrest
  · rcases vs with - | ⟨v, vs⟩
    · exact ⟨[], by simp, hvs.symm⟩
    · obtain rfl : z = v := (cons.inj hvs).1
      exact absurd hz (h.taken z (mem_append_right ts mem_cons_self))

end Parser

open VecLang.Syntax.Parser

lemma parse_eq {lexemes : List Lexeme} {maxErrors : Nat} {m : Module} {t : ParseState}
    {us : List Token} (h : Reads { rest := lexemes, maxErrors } m t us) : parse lexemes maxErrors =
      { module := m, diagnostics := t.reports.reverse, errors := t.errors, exprs := t.exprs,
        stmts := t.stmts } := by
  rw [parse, h.runs]
  rfl

lemma derivesUnit_of_parse {lexemes : List Lexeme} {ts : List Token} {z : Token}
    (htokens : lexemes.map (·.token) = ts ++ [z]) (hz : z.kind = .eof)
    (hts : ∀ t ∈ ts, t.kind ≠ .eof) (h : (parse lexemes 0).errors = 0) :
    DerivesUnit ts ((parse lexemes 0).module.items.map Item.bare) := by
  obtain ⟨m, t, us, hreads⟩ := exists_reads { rest := lexemes, maxErrors := 0 }
  rw [parse_eq hreads] at h ⊢
  have hlimit := (goes module { rest := lexemes, maxErrors := 0 }).limit
  rw [hreads.runs] at hlimit
  -- there is no limit that could have ended it early
  have heof : t.head.kind = .eof := hreads.stops.resolve_right fun hspent => hspent.1 hlimit
  obtain ⟨vs, rfl, hvs⟩ := hreads.exists_rest htokens hz
  have hnil : vs = [] := by
    rcases vs with - | ⟨v, vs⟩
    · rfl
    · rw [ParseState.head_eq hvs] at heof
      exact absurd heof (hts v (mem_append_right us mem_cons_self))
  rw [hnil, append_nil]
  exact hreads.derives h

lemma valid_of_parse (lexemes : List Lexeme) (maxErrors : Nat) :
    ∀ i ∈ (parse lexemes maxErrors).module.items, i.Valid := by
  obtain ⟨m, t, us, hreads⟩ := exists_reads { rest := lexemes, maxErrors }
  rw [parse_eq hreads]
  exact hreads.valid

/-- Parsing ends at the end of the text, or when as many errors are reported as allowed, and no
bound is met on the way, whatever the tokens are. Each round of the loop over the declarations takes
a token, and so does each round of the loop over the statements of a block, with what is skipped
behind a statement that failed. -/
theorem parse_reaches_end (lexemes : List Lexeme) (maxErrors : Nat) :
    (∃ m t, module { rest := lexemes, maxErrors } = (some m, t) ∧ t.starved = 0 ∧
      (t.head.kind = .eof ∨ maxErrors ≠ 0 ∧ maxErrors ≤ t.errors) ∧
        (parse lexemes maxErrors).module = m) ∧
    (∀ s, s.head.kind ≠ .eof → (item s).2.tokens.length < s.tokens.length) ∧
    ∀ s, s.head.kind ≠ .rbrace → s.head.kind ≠ .eof → (stmt s).2.starved = s.starved ∧
      match stmt s with
      | (some _, t) => t.tokens.length < s.tokens.length
      | (none, t) => ∃ v, resyncStmt (t.tokens.length + 1) t = (some (), v) ∧
        v.tokens.length < s.tokens.length := by
  refine ⟨?_, fun s => length_item_lt, fun s hclose heof => ?_⟩
  · obtain ⟨m, t, us, hreads⟩ := exists_reads { rest := lexemes, maxErrors }
    have hlimit := (goes module { rest := lexemes, maxErrors }).limit
    rw [hreads.runs] at hlimit
    replace hlimit : t.maxErrors = maxErrors := hlimit
    exact ⟨m, t, hreads.runs, hreads.fed, hlimit ▸ hreads.stops, by rw [parse_eq hreads]⟩
  · have hends := builds_stmt s rfl (lt_succ_self _)
    refine ⟨hends.fed, ?_⟩
    obtain ⟨us, hus, -, hstmt⟩ := hends.taken
    split
    case h_1 u t hrun =>
      rw [hrun] at hus hstmt
      replace hus : s.tokens = us ++ t.tokens := hus
      have := length_pos_iff.2 (hstmt u rfl).ne_nil
      rw [hus, length_append]
      omega
    case h_2 t hfail =>
      rw [hfail] at hus
      obtain ⟨v, hv⟩ := resyncStmt_stops _ t (lt_succ_self _)
      obtain ⟨vs, hvs, -, hskip⟩ := (builds_resyncStmt _ t rfl (lt_succ_self _)).taken
      rw [hv] at hvs hskip
      replace hvs : t.tokens = vs ++ v.tokens := hvs
      replace hus : s.tokens = us ++ t.tokens := hus
      have := takesKey_stmt.taken_of_failed ⟨hclose, heof⟩ (lt_succ_self _) hfail hus (hskip () rfl)
      refine ⟨v, hv, ?_⟩
      rw [hus, hvs, length_append, length_append]
      omega

end VecLang.Syntax
