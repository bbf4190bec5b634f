import VecLang.Proofs.Syntax.Soundness

/-!
# What is in the grammar is parsed

A parser that stands before a phrase of the grammar takes exactly its tokens, reports nothing and
builds its tree (`Takes`), if the token behind the phrase cannot go on with it (`Follow`). The grammar
groups operators to the left by recursion to the left, and the parser by a loop. So the loop is
followed through the phrase first, up to where it would look for one more operator (`Reaches`), and
ended by the token behind the phrase then.
-/

namespace VecLang.Syntax

def nextKind (rest : List Token) : TokenKind := (rest.headD Parser.pastEnd).kind

variable {l : Nat} {us vs rest : List Token}

/-- An expression of the level ends before these tokens. -/
structure Follow (l : Nat) (rest : List Token) : Prop where
  lparen : nextKind rest ≠ .lparen
  dot : nextKind rest ≠ .dot
  looser : ∀ {l' op}, binary? (nextKind rest) = some (l', op) → l' < l

/-- No expression goes on with a token that is neither an operator, nor a dot, nor an opening
parenthesis. -/
lemma follow_of {k : TokenKind} (h : nextKind rest = k)
    (hk : binary? k = none ∧ k ≠ .lparen ∧ k ≠ .dot) : Follow l rest where
  lparen := h ▸ hk.2.1
  dot := h ▸ hk.2.2
  looser hop := by
    rw [h, hk.1] at hop
    cases hop

lemma Follow.mono {l' : Nat} (h : Follow l rest) (hl : l ≤ l') : Follow l' rest :=
  { h with looser := fun hop => Nat.lt_of_lt_of_le (h.looser hop) hl }

lemma follow_operator {t : Token} {op : BinaryOp} (ht : binary? t.kind = some (l, op)) :
    Follow (l + 1) (t :: rest) where
  lparen h := by
    change t.kind = _ at h
    rw [h] at ht
    cases ht
  dot h := by
    change t.kind = _ at h
    rw [h] at ht
    cases ht
  looser hop := by
    change binary? t.kind = _ at hop
    cases ht.symm.trans hop
    exact Nat.lt_succ_self l

namespace Parser

open ParseState Option
open List hiding head

variable {α β γ : Type} {n : Nat} {s : ParseState} {i : Token} {k : TokenKind}

/-- The state stands before the tokens `us`; `n` errors were reported, and there is no limit. -/
structure At (n : Nat) (us : List Token) (s : ParseState) : Prop where
  tokens : s.tokens = us
  errors : s.errors = n
  limit : s.maxErrors = 0

namespace At

lemma seen (h : At n us s) : At n us s.seen :=
  ⟨(tokens_seen s).trans h.tokens, (errors_seen s).trans h.errors, (maxErrors_seen s).trans h.limit⟩

lemma took (h : At n (i :: us) s) : At n us s.took :=
  ⟨took_eq h.tokens, (errors_took s).trans h.errors, (maxErrors_took s).trans h.limit⟩

lemma head (h : At n (i :: us) s) : s.head = i := head_eq h.tokens

lemma kind (h : At n us s) : s.head.kind = nextKind us := by
  rw [ParseState.head, h.tokens, nextKind]

end At

/-- Before the tokens `us` and `rest` the parser takes `us`, reports nothing, and gives a result of
which `Q` is true. -/
def Takes (us rest : List Token) (p : Parser α) (Q : α → Prop) : Prop :=
  ∀ n s, At n (us ++ rest) s → ∃ a t, p s = (some a, t) ∧ At n rest t ∧ Q a

namespace Takes

variable {p : Parser γ} {f : γ → Parser α} {Q : α → Prop} {R : γ → Prop}

lemma of_pure {a : α} (h : Q a) : Takes [] rest (pure a) Q := fun _ s hs => ⟨a, s, rfl, hs, h⟩

lemma bind (hp : Takes us (vs ++ rest) p R) (hf : ∀ c, R c → Takes vs rest (f c) Q) :
    Takes (us ++ vs) rest (p >>= f) Q := by
  intro n s hs
  rw [append_assoc] at hs
  obtain ⟨c, t, hps, ht, hc⟩ := hp n s hs
  rw [bind_of_some hps]
  exact hf c hc n t ht

lemma bind_last (hp : Takes us rest p R) (hf : ∀ c, R c → Takes [] rest (f c) Q) :
    Takes us rest (p >>= f) Q :=
  append_nil us ▸ bind hp hf

/-! ### Single tokens -/

/-- The first step of the parser takes a token. -/
lemma token {c : γ} (hp : ∀ {n s}, At n (i :: (us ++ rest)) s → p s = (some c, s.took))
    (h : Takes us rest (f c) Q) : Takes (i :: us) rest (p >>= f) Q := by
  intro n s hs
  rw [bind_of_some (hp hs)]
  exact h n _ hs.took

/-- The first step of the parser only looks. -/
lemma look {c : γ} (hp : ∀ {n s}, At n (us ++ rest) s → ∃ t, p s = (some c, t) ∧ At n (us ++ rest) t)
    (h : Takes us rest (f c) Q) : Takes us rest (p >>= f) Q := by
  intro n s hs
  obtain ⟨t, hps, ht⟩ := hp hs
  rw [bind_of_some hps]
  exact h n t ht

lemma advance {f : Token → Parser α} (hi : i.kind ≠ .eof) (h : Takes us rest (f i) Q) :
    Takes (i :: us) rest (Parser.advance >>= f) Q :=
  token (fun hs => by rw [advance_apply (hs.head ▸ hi), hs.head]) h

lemma expect {cause : SyntaxCause} {f : Token → Parser α} (hi : i.kind = k) (hk : k ≠ .eof)
    (h : Takes us rest (f i) Q) : Takes (i :: us) rest (Parser.expect k cause >>= f) Q :=
  token (fun hs => by rw [expect_of_eq (hs.head ▸ hi) hk, hs.head]) h

lemma accept {f : Bool → Parser α} (hi : i.kind = k) (hk : k ≠ .eof)
    (h : Takes us rest (f true) Q) : Takes (i :: us) rest (Parser.accept k >>= f) Q :=
  token (fun hs => accept_of_eq (hs.head ▸ hi) hk) h

lemma not_accept {f : Bool → Parser α} (hne : nextKind (us ++ rest) ≠ k)
    (h : Takes us rest (f false) Q) : Takes us rest (Parser.accept k >>= f) Q :=
  look (fun hs => ⟨_, accept_of_ne (hs.kind ▸ hne), hs.seen⟩) h

lemma peek {f : Token → Parser α} (h : Takes (i :: us) rest (f i) Q) :
    Takes (i :: us) rest (Parser.peek >>= f) Q :=
  look (fun hs => ⟨_, by rw [peek_apply, hs.head], hs.seen⟩) h

lemma next {f : Bool → Parser α} (h : Takes us rest (f (nextKind (us ++ rest) = k)) Q) :
    Takes us rest (Parser.next k >>= f) Q :=
  look (fun hs => ⟨_, by rw [next_apply, hs.kind], hs.seen⟩) h

lemma kind {f : TokenKind → Parser α} (h : Takes us rest (f (nextKind (us ++ rest))) Q) :
    Takes us rest (Parser.kind >>= f) Q :=
  look (fun hs => ⟨_, by rw [kind_apply, hs.kind], hs.seen⟩) h

lemma rounds {f : Nat → Parser α} (h : ∀ n, us.length ≤ n → Takes us rest (f (n + 1)) Q) :
    Takes us rest (Parser.rounds >>= f) Q :=
  look (fun hs => ⟨_, by rw [rounds_apply, hs.tokens], hs⟩) (h _ (by rw [length_append]; omega))

lemma exhausted {f : Bool → Parser α} (h : Takes us rest (f false) Q) :
    Takes us rest (Parser.exhausted >>= f) Q :=
  look (fun hs => ⟨_, by simp [Parser.exhausted, get, hs.limit], hs⟩) h

lemma upToLast {span : Span} {f : Span → Parser α} (h : ∀ all, Takes us rest (f all) Q) :
    Takes us rest (Parser.upToLast span >>= f) Q :=
  fun n s hs => h _ n s hs

lemma attempt {f : Option γ → Parser α} (hp : Takes us (vs ++ rest) p R)
    (hf : ∀ c, R c → Takes vs rest (f (some c)) Q) :
    Takes (us ++ vs) rest (Parser.attempt p >>= f) Q := by
  refine bind (R := fun c => ∃ a, c = some a ∧ R a) (fun n s hs => ?_) fun c ⟨a, hc, ha⟩ => hc ▸ hf a ha
  obtain ⟨a, t, hps, ht, ha⟩ := hp n s hs
  exact ⟨some a, t, by rw [Parser.attempt, hps], ht, a, rfl, ha⟩

lemma built {e : Expr} {Q : Expr → Prop} (h : Q e) : Takes [] rest (Parser.built e) Q :=
  fun _ _ hs => ⟨e, _, rfl, ⟨hs.tokens, hs.errors, hs.limit⟩, h⟩

lemma builtStmt {u : Stmt} {Q : Stmt → Prop} (h : Q u) : Takes [] rest (Parser.builtStmt u) Q :=
  fun _ _ hs => ⟨u, _, rfl, ⟨hs.tokens, hs.errors, hs.limit⟩, h⟩

end Takes

/-! ## Expressions -/

/-- A loop came to the end of the phrase `us`: it goes on with the tree of the phrase, the tokens
`rest` left and rounds enough for them. -/
def Reaches (us rest : List Token) (x : Expr) (loop : Nat → Expr → Parser Expr)
    (p : Parser Expr) : Prop :=
  ∀ n s, At n (us ++ rest) s → ∃ m e t, p s = loop (m + 1) e t ∧ rest.length ≤ m ∧ At n rest t ∧
    e.bare = x

namespace Reaches

variable {p : Parser Expr} {loop : Nat → Expr → Parser Expr} {x y : Expr}

lemma of_takes (h : Takes us rest p (·.bare = x)) :
    Reaches us rest x loop (do let e ← p; loop (← rounds) e) := by
  intro n s hs
  obtain ⟨e, t, hp, ht, he⟩ := h n s hs
  rw [bind_of_some hp, bind_of_some (rounds_apply t)]
  exact ⟨_, e, t, rfl, Nat.le_of_eq (by rw [ht.tokens]), ht, he⟩

/-- One more round of the loop takes `vs`. -/
lemma step (h : Reaches us (vs ++ rest) x loop p) (hvs : vs ≠ [])
    (hround : ∀ {n m e t}, At n (vs ++ rest) t → e.bare = x →
      ∃ e' t', loop (m + 1) e t = loop m e' t' ∧ At n rest t' ∧ e'.bare = y) :
    Reaches (us ++ vs) rest y loop p := by
  intro n s hs
  rw [append_assoc] at hs
  obtain ⟨m, e, t, hr, hm, ht, he⟩ := h n s hs
  obtain ⟨e', t', hloop, ht', he'⟩ := hround (m := m) ht he
  have hpos := length_pos_iff.2 hvs
  rw [length_append] at hm
  obtain ⟨m, rfl⟩ : ∃ m', m = m' + 1 := ⟨m - 1, by omega⟩
  exact ⟨m, e', t', hr.trans hloop, by omega, ht', he'⟩

/-- The loop ends where its next round takes nothing. -/
lemma takes (h : Reaches us rest x loop p)
    (hend : ∀ m e, e.bare = x → Takes [] rest (loop (m + 1) e) (·.bare = x)) :
    Takes us rest p (·.bare = x) := by
  intro n s hs
  obtain ⟨m, e, t, hr, -, ht, he⟩ := h n s hs
  rw [hr]
  exact hend m e he n t ht

end Reaches

section Expressions

variable {nested : Parser Expr} {N : Nat}
  (hnested : ∀ {us rest : List Token} {x : Expr}, us.length < N → Derives 0 us x → Follow 0 rest →
    Takes us rest nested (·.bare = x))
include hnested

lemma takes_arguments {us : List Token} {args : List Expr} (h : DerivesArgs us args)
    (hrest : nextKind rest = .rparen) (n : Nat) (hn : us.length ≤ n) (hN : us.length < N) :
    Takes us rest (arguments nested (n + 1)) (bareArgs · = args) := by
  rw [arguments]
  refine .next ?_
  cases h with
  | nil =>
    rw [nil_append, hrest]
    exact .of_pure rfl
  | last hx =>
    have hclose : nextKind (us ++ rest) ≠ .rparen := by
      obtain ⟨i, vs, rfl, hi⟩ := hx.head_ne_rparen
      exact hi
    rw [decide_eq_false hclose]
    refine .bind_last (hnested hN hx (follow_of hrest (by decide))) fun e he => ?_
    refine .not_accept (by simp [hrest]) (.of_pure ?_)
    simp [bareArgs, he]
  | @more c xs ys _ _ hx hc hargs =>
    have hclose : nextKind (xs ++ c :: ys ++ rest) ≠ .rparen := by
      obtain ⟨i, vs, rfl, hi⟩ := hx.head_ne_rparen
      exact hi
    rw [decide_eq_false hclose]
    rw [length_append, length_cons] at hn hN
    obtain ⟨n, rfl⟩ : ∃ m, n = m + 1 := ⟨n - 1, by omega⟩
    have hcomma : nextKind (c :: ys ++ rest) = .comma := hc
    refine .bind (hnested (by omega) hx (follow_of hcomma (by decide))) fun e he => ?_
    refine .accept hc (by decide) ?_
    refine .bind_last (takes_arguments hargs hrest n (by omega) (by omega)) fun es hes => .of_pure ?_
    simp [bareArgs, he, hes]

lemma takes_primary {x : Expr} (h : Derives 8 us x) (hrest : nextKind rest ≠ .lparen)
    (hN : us.length ≤ N) : Takes us rest (primary nested) (·.bare = x) := by
  rw [primary]
  cases h with
  | @lit i hi =>
    refine .peek ?_
    rw [if_pos hi]
    have heof : i.kind ≠ .eof := fun h => by
      rw [h] at hi
      cases hi
    exact .advance heof (.built rfl)
  | @ident i hi =>
    refine .peek ?_
    rw [if_neg (by rw [hi]; decide), if_pos hi]
    exact .advance (by simp [hi]) (.not_accept hrest (.built rfl))
  | @call f o c ts args hf ho hargs hc =>
    refine .peek ?_
    rw [if_neg (by rw [hf]; decide), if_pos hf]
    simp only [length_cons, length_append] at hN
    refine .advance (by simp [hf]) (.accept ho (by decide) (.rounds fun n hn => ?_))
    rw [length_append] at hn
    have hclose : nextKind ([c] ++ rest) = .rparen := hc
    refine .bind (takes_arguments hnested hargs hclose n (by omega) (by omega)) fun es hes => ?_
    refine .expect hc (by decide) (.upToLast fun all => .built ?_)
    rw [Expr.bare, hes]
  | @group o c ts x ho hx hc =>
    refine .peek ?_
    rw [if_neg (by rw [ho]; decide), if_neg (by rw [ho]; decide), if_pos ho]
    simp only [length_cons, length_append] at hN
    have hclose : nextKind ([c] ++ rest) = .rparen := hc
    refine .advance (by simp [ho]) ?_
    refine .bind (hnested (by omega) hx (follow_of hclose (by decide))) fun e he => ?_
    refine .expect hc (by decide) (.upToLast fun all => .built ?_)
    rw [Expr.bare, he]
  | binary hx ht hy => exact absurd (kind_of_binary? ht).2 (by decide)
  | tighter hl hx => exact absurd hl (by decide)

lemma reaches_swizzles {us rest : List Token} {x : Expr} (h : Derives 7 us x)
    (hrest : nextKind rest ≠ .lparen) (hN : us.length ≤ N) :
    Reaches us rest x swizzles (do let e ← primary nested; swizzles (← rounds) e) := by
  match h with
  | .tighter _ hx => exact .of_takes (takes_primary hnested hx hrest hN)
  | .swizzle (d := d) (n := i) hx hd hi hlanes =>
    rw [length_append] at hN
    have hdot : nextKind ([d, i] ++ rest) ≠ .lparen := by
      change d.kind ≠ .lparen
      rw [hd]
      decide
    refine (reaches_swizzles hx hdot (by omega)).step (cons_ne_nil _ _) fun {n m e t} ht he => ?_
    have hexpect : expect .ident .swizzleAfterDot t.took = (some i, t.took.took) := by
      rw [expect_of_eq (ht.took.head ▸ hi) (by decide), ht.took.head]
    refine ⟨.swizzle (e.span.cover i.span) i.text i.span e,
      { t.took.took with exprs := t.took.took.exprs + 1 }, ?_, ?_, by rw [Expr.bare, he]⟩
    · rw [swizzles, bind_of_some (accept_of_eq (ht.head ▸ hd) (by decide)), if_pos rfl,
        bind_of_some hexpect, if_pos (isSwizzle_iff.2 hlanes)]
      rfl
    · have htook := ht.took.took
      exact ⟨htook.tokens, htook.errors, htook.limit⟩
  | .binary _ ht _ => exact absurd (kind_of_binary? ht).2 (by decide)

lemma takes_unary {us : List Token} {x : Expr} (h : Derives 6 us x)
    (hparen : nextKind rest ≠ .lparen) (hdot : nextKind rest ≠ .dot) (n : Nat)
    (hn : us.length ≤ n) (hN : us.length ≤ N) :
    Takes us rest (unary nested (n + 1)) (·.bare = x) := by
  rw [unary]
  refine .kind ?_
  cases h with
  | @unary i op ts _ hi hx =>
    have hop : unaryOp? (nextKind (i :: ts ++ rest)) = some op := unaryOp?_eq_some.2 hi
    rw [hop]
    rw [length_cons] at hn hN
    obtain ⟨n, rfl⟩ : ∃ m, n = m + 1 := ⟨n - 1, by omega⟩
    have heof : i.kind ≠ .eof := by rcases hi with ⟨h, -⟩ | ⟨h, -⟩ <;> rw [h] <;> decide
    refine .advance heof ?_
    refine .bind_last (takes_unary hx hparen hdot n (by omega) (by omega)) fun e he => .built ?_
    rw [Expr.bare, he]
  | tighter _ hx =>
    -- no operator stands in front of lanes
    have hop : unaryOp? (nextKind (us ++ rest)) = none := by
      obtain ⟨i, vs, rfl, hi⟩ := hx.exists_head
      change unaryOp? i.kind = none
      rcases hi with hi | hi | hi | ⟨hl, -⟩
      · cases hk : i.kind <;> first | rfl | (rw [hk] at hi; cases hi)
      · rw [hi]
        rfl
      · rw [hi]
        rfl
      · exact absurd hl (by decide)
    rw [hop]
    refine (reaches_swizzles hnested hx hparen hN).takes fun m e he => ?_
    rw [swizzles]
    exact .not_accept hdot (.of_pure he)
  | binary _ ht _ => exact absurd (kind_of_binary? ht).2 (by decide)

omit hnested in
lemma reaches_chain (hl : l < 6) {ops : List (TokenKind × BinaryOp)}
    (hops : ∀ {k op}, ops.lookup k = some op ↔ binary? k = some (l, op)) {operand : Parser Expr}
    (hoperand : ∀ {us rest : List Token} {x : Expr}, us.length ≤ N → Derives (l + 1) us x →
      Follow (l + 1) rest → Takes us rest operand (·.bare = x))
    {us rest : List Token} {x : Expr} (h : Derives l us x) (hrest : Follow (l + 1) rest)
    (hN : us.length ≤ N) : Reaches us rest x (chain ops operand) (level ops operand) := by
  induction hlen : us.length using Nat.strongRecOn generalizing us rest x with
  | _ k ih =>
    cases h with
    | tighter _ hx => exact .of_takes (hoperand hN hx hrest)
    | @binary _ i op xs ys _ _ hx hi hy =>
      rw [length_append, length_cons] at hN
      have hleft := ih xs.length (by simp [← hlen]) hx
        (follow_operator hi : Follow _ (i :: ys ++ rest)) (by omega) rfl
      refine hleft.step (cons_ne_nil _ _) fun {n m e t} ht he => ?_
      have heof : i.kind ≠ .eof := fun h => by
        rw [h] at hi
        cases hi
      obtain ⟨e', u, hright, hu, he'⟩ := hoperand (by omega) hy hrest n _ ht.took
      refine ⟨.binary (e.span.cover e'.span) op e e', { u with exprs := u.exprs + 1 }, ?_,
        ⟨hu.tokens, hu.errors, hu.limit⟩, by rw [Expr.bare, he, he']⟩
      have hadvance : advance t.seen = (some t.head, t.took) := by
        rw [advance_apply (by rw [head_seen, ht.head]; exact heof), head_seen, took_seen]
      rw [chain, bind_of_some (kind_apply t), ht.head, hops.2 hi]
      dsimp only
      rw [bind_of_some hadvance, bind_of_some hright]
      rfl
    | lit _ => exact absurd hl (by decide)
    | ident _ => exact absurd hl (by decide)
    | call _ _ _ _ => exact absurd hl (by decide)
    | group _ _ _ => exact absurd hl (by decide)
    | swizzle _ _ _ _ => exact absurd hl (by decide)
    | unary _ _ => exact absurd hl (by decide)

omit hnested in
lemma takes_level (hl : l < 6) {operand : Parser Expr}
    (hoperand : ∀ {us rest : List Token} {x : Expr}, us.length ≤ N → Derives (l + 1) us x →
      Follow (l + 1) rest → Takes us rest operand (·.bare = x))
    {us rest : List Token} {x : Expr} (hN : us.length ≤ N) (h : Derives l us x)
    (hrest : Follow l rest) : Takes us rest (level (levels.getD l []) operand) (·.bare = x) := by
  refine (reaches_chain hl (lookup_levels_eq_some hl) hoperand h (hrest.mono (Nat.le_succ l)) hN).takes
    fun m e he => ?_
  -- the token behind is no operator of this level
  have hend : (levels.getD l []).lookup (nextKind rest) = none := by
    rw [eq_none_iff_forall_ne_some]
    intro op hop
    exact absurd (hrest.looser ((lookup_levels_eq_some hl).1 hop)) (Nat.lt_irrefl l)
  rw [chain]
  refine .kind ?_
  rw [nil_append, hend]
  exact .of_pure he

lemma takes_exprOver {us rest : List Token} {x : Expr} (hN : us.length ≤ N) (h : Derives 0 us x)
    (hrest : Follow 0 rest) : Takes us rest (exprOver nested) (·.bare = x) := by
  have hunary {us rest : List Token} {x : Expr} (hN : us.length ≤ N) (h : Derives 6 us x)
      (hrest : Follow 6 rest) : Takes us rest (do unary nested (← rounds)) (·.bare = x) :=
    .rounds fun n hn => takes_unary hnested h hrest.lparen hrest.dot n hn hN
  exact takes_level (l := 0) (by decide) (takes_level (l := 1) (by decide)
    (takes_level (l := 2) (by decide) (takes_level (l := 3) (by decide)
      (takes_level (l := 4) (by decide) (takes_level (l := 5) (by decide) hunary))))) hN h hrest

end Expressions

lemma takes_exprTo (n : Nat) {us rest : List Token} {x : Expr} (hn : us.length < n)
    (h : Derives 0 us x) (hrest : Follow 0 rest) : Takes us rest (exprTo n) (·.bare = x) := by
  induction n generalizing us rest x with
  | zero => exact absurd hn (Nat.not_lt_zero _)
  | succ n ih => exact takes_exprOver ih (Nat.le_of_lt_succ hn) h hrest

variable {x : Expr}

lemma takes_expr (h : Derives 0 us x) (hrest : Follow 0 rest) : Takes us rest expr (·.bare = x) :=
  .rounds fun _ hn => takes_exprTo _ (Nat.lt_succ_of_le hn) h hrest

/-! ## Statements -/

variable {z : Token}

lemma takes_typeAfter {type : Option TypeName} (h : DerivesType k us type) (hk : k ≠ .eof)
    (hrest : nextKind rest ≠ k) :
    Takes us rest (typeAfter k) (fun t => t.map TypeName.bare = type) := by
  rw [typeAfter]
  cases h with
  | none => exact .not_accept hrest (.of_pure rfl)
  | some hm hi =>
    refine .accept hm hk ?_
    rw [if_pos rfl, typeName, bind_assoc]
    exact .expect hi (by decide) (.of_pure rfl)

lemma takes_finish {start : Span} {stmt : Span → Stmt} {Q : Stmt → Prop}
    (hz : z.kind = .semicolon) (h : ∀ all, Q (stmt all)) : Takes [z] rest (finish start stmt) Q :=
  .expect hz (by decide) (.upToLast fun all => .builtStmt (h all))

lemma takes_value (h : Derives 0 us x) (hz : z.kind = .semicolon) :
    Takes us ([z] ++ rest) expr (·.bare = x) := by
  have hend : nextKind ([z] ++ rest) = .semicolon := hz
  exact takes_expr h (follow_of hend (by decide))

lemma takes_condition {body : List Stmt} (h : Derives 0 us x) (hbody : DerivesBlock vs body) :
    Takes us (vs ++ rest) expr (·.bare = x) := by
  have hopen : nextKind (vs ++ rest) = .lbrace := by
    obtain ⟨ho, -, -⟩ := hbody
    exact ho
  exact takes_expr h (follow_of hopen (by decide))

lemma takes_letStmt {k n a : Token} {ts es : List Token} {type : Option TypeName} {e : Expr}
    (hk : k.kind = .kwLet) (hn : n.kind = .ident) (htype : DerivesType .colon ts type)
    (ha : a.kind = .assign) (he : Derives 0 es e) (hz : z.kind = .semicolon) :
    Takes (k :: n :: (ts ++ a :: (es ++ [z]))) rest letStmt
      (·.bare = .letVar .none n.text .none type e) := by
  rw [letStmt]
  refine .advance (by simp [hk]) (.expect hn (by decide) ?_)
  have hnext : nextKind (a :: (es ++ [z]) ++ rest) ≠ .colon := by
    change a.kind ≠ _
    simp [ha]
  refine .bind (takes_typeAfter htype (by decide) hnext) fun ty hty => .expect ha (by decide) ?_
  refine .bind (takes_value he hz) fun x hx => takes_finish hz fun all => ?_
  rw [Stmt.bare, hty, hx]

lemma takes_returnStmt {k : Token} {e : Expr} (hk : k.kind = .kwReturn) (he : Derives 0 us e)
    (hz : z.kind = .semicolon) :
    Takes (k :: (us ++ [z])) rest returnStmt (·.bare = .ret .none (some e)) := by
  rw [returnStmt]
  refine .advance (by simp [hk]) (.next ?_)
  have hnext : nextKind (us ++ [z] ++ rest) ≠ .semicolon := by
    obtain ⟨i, vs, rfl, hi⟩ := he.exists_head
    intro h
    change i.kind = _ at h
    simp [h, TokenKind.isLiteral] at hi
  rw [decide_eq_false hnext]
  have hmap : (some <$> expr : Parser (Option Expr)) = expr >>= fun e => pure (some e) := rfl
  change Takes _ rest ((some <$> expr) >>= _) _
  rw [hmap, bind_assoc]
  refine .bind (takes_value he hz) fun x hx => takes_finish hz fun all => ?_
  rw [Stmt.bare, map_some, hx]

lemma takes_bareReturn {k : Token} (hk : k.kind = .kwReturn) (hz : z.kind = .semicolon) :
    Takes [k, z] rest returnStmt (·.bare = .ret .none none) := by
  rw [returnStmt]
  refine .advance (by simp [hk]) (.next ?_)
  have hnext : nextKind ([z] ++ rest) = .semicolon := hz
  rw [decide_eq_true hnext]
  exact takes_finish hz fun all => rfl

lemma takes_assignment {n a : Token} {e : Expr} (hn : n.kind = .ident) (ha : a.kind = .assign)
    (he : Derives 0 us e) (hz : z.kind = .semicolon) :
    Takes (n :: a :: (us ++ [z])) rest simpleStmt (·.bare = .assign .none n.text .none e) := by
  rw [simpleStmt_eq]
  have hname : Derives 0 [n] (.ident .none n.text) := by
    iterate 8 refine .tighter (by decide) ?_
    exact .ident hn
  have hnext : nextKind (a :: (us ++ [z]) ++ rest) = .assign := ha
  have hhead := takes_expr hname (follow_of hnext (by decide))
  refine .bind hhead fun x hx => .next ?_
  rw [decide_eq_true hnext]
  -- only a name is built as a name
  cases x with
  | ident span name =>
    cases hx
    refine .advance (ha ▸ nofun) (.bind (takes_value he hz) fun y hy => takes_finish hz fun all => ?_)
    rw [Stmt.bare, hy]
  | _ => cases hx

lemma takes_callStmt {f : Bytes} {args : List Expr} (he : Derives 0 us (.call .none f .none args))
    (hz : z.kind = .semicolon) :
    Takes (us ++ [z]) rest simpleStmt (·.bare = .expr .none (.call .none f .none args)) := by
  rw [simpleStmt_eq]
  refine .bind (takes_value he hz) fun x hx => .next ?_
  cases x with
  | call span g gspan xs =>
    refine takes_finish hz fun all => ?_
    rw [Stmt.bare, hx]
  | _ => cases hx

lemma nextKind_body_ne {body : List Stmt} (h : DerivesBody us body)
    (hrest : nextKind rest ≠ .kwElse) : nextKind (us ++ rest) ≠ .kwElse := by
  cases h with
  | nil => exact hrest
  | cons ht =>
    obtain ⟨i, vs, rfl, -, -, hi⟩ := ht.exists_head
    exact hi

section Statements

variable {nested : Parser Stmt} {N : Nat}
  (hnested : ∀ {us rest : List Token} {u : Stmt}, us.length < N → DerivesStmt us u →
    nextKind rest ≠ .kwElse → Takes us rest nested (·.bare = u))
include hnested

lemma takes_statements {us : List Token} {body : List Stmt} (h : DerivesBody us body)
    (hrest : nextKind rest = .rbrace) (n : Nat) (hn : us.length ≤ n) (hN : us.length < N) :
    Takes us rest (statements nested (n + 1)) (bareBody · = body) := by
  rw [statements]
  refine .kind (.exhausted ?_)
  cases h with
  | nil =>
    rw [nil_append, hrest, if_pos (by simp)]
    exact .of_pure rfl
  | @cons xs ys _ _ hu hbody =>
    obtain ⟨i, vs, rfl, hbrace, heof, -⟩ := hu.exists_head
    rw [if_neg (by change ¬ (decide (i.kind = _) || decide (i.kind = _) || _) = true; simp [hbrace, heof])]
    rw [length_append, length_cons] at hn hN
    obtain ⟨n, rfl⟩ : ∃ m, n = m + 1 := ⟨n - 1, by omega⟩
    have hnext := nextKind_body_ne hbody (by simp [hrest] : nextKind rest ≠ .kwElse)
    refine .attempt (hnested (by rw [length_cons]; omega) hu hnext) fun u hu' => ?_
    refine .bind_last (takes_statements hbody hrest n (by omega) (by omega)) fun more hmore => ?_
    refine .of_pure ?_
    rw [bareBody, hu', hmore]

lemma takes_block {body : List Stmt} (h : DerivesBlock us body) (hN : us.length ≤ N) :
    Takes us rest (block nested) (bareBody · = body) := by
  rw [block]
  cases h with
  | @braces o c ts _ ho hbody hc =>
    simp only [length_cons, length_append] at hN
    refine .expect ho (by decide) (.rounds fun n hn => ?_)
    rw [length_append] at hn
    have hclose : nextKind ([c] ++ rest) = .rbrace := hc
    refine .bind (takes_statements hnested hbody hclose n (by omega) (by omega)) fun more hmore => ?_
    exact .expect hc (by decide) (.of_pure hmore)

lemma takes_elseBranch {body : List Stmt} (h : DerivesElse us body)
    (hrest : nextKind rest ≠ .kwElse) (hN : us.length ≤ N) :
    Takes us rest (elseBranch nested) (bareBody · = body) := by
  rw [elseBranch]
  cases h with
  | none => exact .not_accept hrest (.of_pure rfl)
  | @block k ts _ hk hbody =>
    rw [length_cons] at hN
    refine .accept hk (by decide) (.next ?_)
    have hnext : nextKind (ts ++ rest) ≠ .kwIf := by
      obtain ⟨ho, -, -⟩ := hbody
      intro h
      cases ho.symm.trans h
    rw [decide_eq_false hnext]
    exact takes_block hnested hbody (by omega)
  | @choice k i ts _ hk hi ht =>
    rw [length_cons] at hN
    refine .accept hk (by decide) (.next ?_)
    have hnext : nextKind (i :: ts ++ rest) = .kwIf := hi
    rw [decide_eq_true hnext]
    refine .bind_last (hnested hN ht hrest) fun x hx => .of_pure ?_
    rw [bareBody, bareBody, hx]

lemma takes_stmtOver {u : Stmt} (hN : us.length ≤ N) (h : DerivesStmt us u)
    (hrest : nextKind rest ≠ .kwElse) : Takes us rest (stmtOver nested) (·.bare = u) := by
  rw [stmtOver]
  refine .kind ?_
  cases h with
  | letVar hk hn htype ha he hz =>
    rw [cons_append, nextKind, headD_cons, hk]
    exact takes_letStmt hk hn htype ha he hz
  | assign hn ha he hz =>
    rw [cons_append, nextKind, headD_cons, hn]
    exact takes_assignment hn ha he hz
  | @ifElse _ _ _ _ c _ _ hk hc hbody hother =>
    simp only [length_cons, length_append] at hN
    rw [cons_append, nextKind, headD_cons, hk, append_assoc]
    dsimp only
    rw [ifStmt_eq]
    refine .advance (hk ▸ by decide) (.bind (R := (·.bare = c)) ?_ fun _ hc' => ?_)
    · rw [append_assoc]
      exact takes_condition hc hbody
    refine .bind (takes_block hnested hbody (by omega)) fun x hx => ?_
    refine .bind_last (takes_elseBranch hnested hother hrest (by omega)) fun y hy => ?_
    refine .upToLast fun all => .builtStmt ?_
    rw [Stmt.bare, hc', hx, hy]
  | whileDo hk hc hbody =>
    simp only [length_cons, length_append] at hN
    rw [cons_append, nextKind, headD_cons, hk]
    dsimp only
    rw [whileStmt]
    refine .advance (hk ▸ by decide) (.bind (takes_condition hc hbody) fun c hc' => ?_)
    refine .bind_last (takes_block hnested hbody (by omega)) fun x hx => ?_
    refine .upToLast fun all => .builtStmt ?_
    rw [Stmt.bare, hc', hx]
  | ret hk hz =>
    rw [cons_append, nextKind, headD_cons, hk]
    exact takes_bareReturn hk hz
  | retValue hk he hz =>
    rw [cons_append, nextKind, headD_cons, hk]
    exact takes_returnStmt hk he hz
  | breakLoop hk hz =>
    rw [cons_append, nextKind, headD_cons, hk]
    exact .advance (hk ▸ by decide) (takes_finish hz fun _ => rfl)
  | continueLoop hk hz =>
    rw [cons_append, nextKind, headD_cons, hk]
    exact .advance (hk ▸ by decide) (takes_finish hz fun _ => rfl)
  | call he hz =>
    have hsimple : Takes _ rest simpleStmt _ := takes_callStmt he hz
    -- the expression begins with none of the keywords
    obtain ⟨i, vs, rfl, hi⟩ := he.exists_head
    rw [cons_append, cons_append, nextKind, headD_cons]
    cases hk : i.kind <;> first | exact hsimple | simp [hk, TokenKind.isLiteral] at hi

end Statements

lemma takes_stmtTo (n : Nat) {us rest : List Token} {u : Stmt} (hn : us.length < n)
    (h : DerivesStmt us u) (hrest : nextKind rest ≠ .kwElse) :
    Takes us rest (stmtTo n) (·.bare = u) := by
  induction n generalizing us rest u with
  | zero => exact absurd hn (Nat.not_lt_zero _)
  | succ n ih => exact takes_stmtOver ih (Nat.le_of_lt_succ hn) h hrest

/-! ## Declarations -/

lemma takes_params {us : List Token} {ps : List Param} (h : DerivesParams us ps)
    (hrest : nextKind rest = .rparen) (n : Nat) (hn : us.length ≤ n) :
    Takes us rest (params (n + 1)) (fun xs => xs.map Param.bare = ps) := by
  induction h generalizing n with
  | nil =>
    rw [params]
    refine .next ?_
    rw [nil_append, hrest]
    exact .of_pure rfl
  | @last i ts type hi htype =>
    rw [params]
    refine .next ?_
    have hname : nextKind (i :: ts ++ rest) ≠ .rparen := by
      change i.kind ≠ _
      simp [hi]
    rw [decide_eq_false hname]
    refine .expect hi (by decide) ?_
    refine .bind_last (takes_typeAfter htype (by decide) (by simp [hrest])) fun ty hty => ?_
    refine .not_accept (by simp [hrest]) (.of_pure ?_)
    rw [map_singleton, Param.bare, hty]
  | @more i c ts vs type ps hi htype hc hps ih =>
    rw [params]
    simp only [length_cons, length_append] at hn
    obtain ⟨n, rfl⟩ : ∃ m, n = m + 1 := ⟨n - 1, by omega⟩
    refine .next ?_
    have hname : nextKind (i :: (ts ++ c :: vs) ++ rest) ≠ .rparen := by
      change i.kind ≠ _
      simp [hi]
    rw [decide_eq_false hname]
    have hcomma : nextKind (c :: vs ++ rest) ≠ .colon := by
      change c.kind ≠ _
      simp [hc]
    refine .expect hi (by decide) ?_
    refine .bind (takes_typeAfter htype (by decide) hcomma) fun ty hty => .accept hc (by decide) ?_
    refine .bind_last (ih n (by omega)) fun more hmore => .of_pure ?_
    rw [map_cons, Param.bare, hty, hmore]

lemma takes_fnDecl {k n o c : Token} {ps ts bs : List Token} {xs : List Param}
    {result : Option TypeName} {body : List Stmt} (hk : k.kind = .kwFn) (hn : n.kind = .ident)
    (ho : o.kind = .lparen) (hparams : DerivesParams ps xs) (hc : c.kind = .rparen)
    (hresult : DerivesType .arrow ts result) (hbody : DerivesBlock bs body) :
    Takes (k :: n :: o :: (ps ++ c :: (ts ++ bs))) rest fnDecl
      (·.bare = ⟨.none, n.text, .none, xs, result, body⟩) := by
  rw [fnDecl]
  refine .advance (by simp [hk]) (.expect hn (by decide) (.expect ho (by decide) (.rounds ?_)))
  intro m hm
  rw [length_append] at hm
  have hclose : nextKind (c :: (ts ++ bs) ++ rest) = .rparen := hc
  refine .bind (takes_params hparams hclose m (by omega)) fun xs hxs => .expect hc (by decide) ?_
  have hopen : nextKind (bs ++ rest) ≠ .arrow := by
    obtain ⟨ho, -, -⟩ := hbody
    intro h
    cases ho.symm.trans h
  refine .bind (takes_typeAfter hresult (by decide) hopen) fun ty hty => ?_
  refine .bind_last (takes_block (fun _ h hrest => .rounds fun _ hn =>
    takes_stmtTo _ (Nat.lt_succ_of_le hn) h hrest) hbody
    (Nat.le_refl _)) fun b hb => ?_
  refine .upToLast fun all => .of_pure ?_
  rw [FnDecl.bare, hxs, hty, hb]

lemma takes_constDecl {k n a : Token} {ts es : List Token} {type : Option TypeName} {e : Expr}
    (hk : k.kind = .kwConst) (hn : n.kind = .ident) (htype : DerivesType .colon ts type)
    (ha : a.kind = .assign) (he : Derives 0 es e) (hz : z.kind = .semicolon) :
    Takes (k :: n :: (ts ++ a :: (es ++ [z]))) rest constDecl
      (·.bare = ⟨.none, n.text, .none, type, e⟩) := by
  rw [constDecl]
  refine .advance (by simp [hk]) (.expect hn (by decide) ?_)
  have hnext : nextKind (a :: (es ++ [z]) ++ rest) ≠ .colon := by
    change a.kind ≠ _
    simp [ha]
  refine .bind (takes_typeAfter htype (by decide) hnext) fun ty hty => .expect ha (by decide) ?_
  refine .bind (takes_value he hz) fun x hx => .expect hz (by decide) ?_
  refine .upToLast fun all => .of_pure ?_
  rw [ConstDecl.bare, hty, hx]

lemma takes_item {i : Item} (h : DerivesItem us i) : Takes us rest item (·.bare = i) := by
  rw [item]
  refine .kind ?_
  cases h with
  | fn hk hn ho hparams hc hresult hbody =>
    rw [cons_append, nextKind, headD_cons, hk]
    change Takes _ rest (fnDecl >>= fun d => pure (Item.fn d)) _
    refine .bind_last (takes_fnDecl hk hn ho hparams hc hresult hbody) fun d hd => .of_pure ?_
    rw [Item.bare, hd]
  | const hk hn htype ha he hz =>
    rw [cons_append, nextKind, headD_cons, hk]
    change Takes _ rest (constDecl >>= fun d => pure (Item.const d)) _
    refine .bind_last (takes_constDecl hk hn htype ha he hz) fun d hd => .of_pure ?_
    rw [Item.bare, hd]

lemma takes_items {us : List Token} {is : List Item} (h : DerivesUnit us is)
    (hrest : nextKind rest = .eof) (n : Nat) (hn : us.length ≤ n) :
    Takes us rest (items (n + 1)) (fun xs => xs.map Item.bare = is) := by
  induction h generalizing n with
  | nil =>
    rw [items]
    refine .kind (.exhausted ?_)
    rw [nil_append, hrest, if_pos (by simp)]
    exact .of_pure rfl
  | @cons xs ys i is hi his ih =>
    rw [items]
    refine .kind (.exhausted ?_)
    obtain ⟨k, vs, rfl, hk⟩ := hi.exists_head
    rw [if_neg (by change ¬ (decide (k.kind = _) || _) = true; rcases hk with hk | hk <;> simp [hk])]
    rw [length_append, length_cons] at hn
    obtain ⟨n, rfl⟩ : ∃ m, n = m + 1 := ⟨n - 1, by omega⟩
    refine .attempt (takes_item hi) fun x hx => ?_
    refine .bind_last (ih n (by omega)) fun more hmore => .of_pure ?_
    rw [map_cons, hx, hmore]

end Parser

lemma parse_of_derivesUnit {lexemes : List Lexeme} {is : List Item} {ts : List Token} {z : Token}
    (htokens : lexemes.map (·.token) = ts ++ [z]) (hz : z.kind = .eof) (h : DerivesUnit ts is) :
    (parse lexemes 0).errors = 0 ∧ (parse lexemes 0).module.items.map Item.bare = is := by
  let s : ParseState := { rest := lexemes, maxErrors := 0 }
  have hs : s.seen.tokens = ts ++ [z] := (ParseState.tokens_seen s).trans htokens
  have hrounds : ts.length ≤ s.seen.tokens.length := by
    rw [hs, List.length_append]
    omega
  have hrest : nextKind [z] = .eof := hz
  obtain ⟨xs, u, hread, hu, hxs⟩ := Parser.takes_items h hrest _ hrounds 0 s.seen
    ⟨hs, ParseState.errors_seen s, ParseState.maxErrors_seen s⟩
  rw [parse, Parser.module_of_items hread]
  exact ⟨hu.errors, hxs⟩

end VecLang.Syntax
