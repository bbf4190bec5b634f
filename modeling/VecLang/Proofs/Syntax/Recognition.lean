import VecLang.Proofs.Syntax.Completeness

/-!
# The parser recognises the grammar

Parsing reports no error exactly for the texts of the grammar, and then builds the tree that the
grammar has for them (`parse_iff_derives`). There is only one such tree. Each expression in it was
derived from a run of the tokens, which reading the expression from left to right gives back.
-/

namespace VecLang.Syntax

open List

/-! ## The expressions of a tree -/

mutual

def Expr.parts : Expr → List Expr
  | .ident s n => [.ident s n]
  | .lit t => [.lit t]
  | .call s f fs args => .call s f fs args :: partsArgs args
  | .binary s op x y => .binary s op x y :: (x.parts ++ y.parts)
  | .unary s op x => .unary s op x :: x.parts
  | .group s x => .group s x :: x.parts
  | .swizzle s comps cs x => .swizzle s comps cs x :: x.parts

def partsArgs : List Expr → List Expr
  | [] => []
  | e :: es => e.parts ++ partsArgs es

end

mutual

def Stmt.exprs : Stmt → List Expr
  | .letVar _ _ _ _ e => e.parts
  | .assign _ _ _ e => e.parts
  | .ifElse _ c t e => c.parts ++ (exprsBody t ++ exprsBody e)
  | .whileDo _ c b => c.parts ++ exprsBody b
  | .ret _ e => (e.map Expr.parts).getD []
  | .breakLoop _ => []
  | .continueLoop _ => []
  | .expr _ e => e.parts

def exprsBody : List Stmt → List Expr
  | [] => []
  | t :: ts => t.exprs ++ exprsBody ts

end

def Item.exprs : Item → List Expr
  | .fn d => exprsBody d.body
  | .const d => d.value.parts

def DerivedIn (ts : List Token) (x : Expr) : Prop := ∃ l us, us <:+: ts ∧ Derives l us x

variable {ts : List Token}

lemma DerivedIn.mono {us : List Token} {x : Expr} (h : DerivedIn us x) (hsub : us <:+: ts) :
    DerivedIn ts x := by
  obtain ⟨l, vs, hvs, hx⟩ := h
  exact ⟨l, vs, hvs.trans hsub, hx⟩

lemma Derives.derivedIn {l : Nat} {x : Expr} (h : Derives l ts x) :
    DerivedIn ts x := ⟨l, ts, infix_refl ts, h⟩

mutual

lemma Derives.derivedIn_of_mem {l : Nat} {ts : List Token} {x y : Expr} :
    Derives l ts x → y ∈ x.parts → DerivedIn ts y
  | .lit ht, hy => mem_singleton.1 hy ▸ (Derives.lit ht).derivedIn
  | .ident ht, hy => mem_singleton.1 hy ▸ (Derives.ident ht).derivedIn
  | .call (f := f) (o := o) (c := c) hf ho hargs hc, hy => by
    rcases mem_cons.1 hy with rfl | hy
    · exact (Derives.call hf ho hargs hc).derivedIn
    · exact (hargs.derivedIn_of_mem hy).mono ⟨[f, o], [c], by simp⟩
  | .group (o := o) (c := c) ho hx hc, hy => by
    rcases mem_cons.1 hy with rfl | hy
    · exact (Derives.group ho hx hc).derivedIn
    · exact (hx.derivedIn_of_mem hy).mono ⟨[o], [c], by simp⟩
  | .swizzle hx hd hn hlanes, hy => by
    rcases mem_cons.1 hy with rfl | hy
    · exact (Derives.swizzle hx hd hn hlanes).derivedIn
    · exact (hx.derivedIn_of_mem hy).mono (prefix_append _ _).isInfix
  | .unary ht hx, hy => by
    rcases mem_cons.1 hy with rfl | hy
    · exact (Derives.unary ht hx).derivedIn
    · exact (hx.derivedIn_of_mem hy).mono (suffix_cons _ _).isInfix
  | .binary hx ht hz, hy => by
    rcases mem_cons.1 hy with rfl | hy
    · exact (Derives.binary hx ht hz).derivedIn
    · rcases mem_append.1 hy with hy | hy
      · exact (hx.derivedIn_of_mem hy).mono (prefix_append _ _).isInfix
      · exact (hz.derivedIn_of_mem hy).mono
          ((suffix_cons _ _).trans (suffix_append _ _)).isInfix
  | .tighter _ hx, hy => hx.derivedIn_of_mem hy

lemma DerivesArgs.derivedIn_of_mem {ts : List Token} {args : List Expr} {y : Expr} :
    DerivesArgs ts args → y ∈ partsArgs args → DerivedIn ts y
  | .nil, hy => nomatch hy
  | .last hx, hy => by
    rw [partsArgs, partsArgs, append_nil] at hy
    exact hx.derivedIn_of_mem hy
  | .more hx _ hargs, hy => by
    rcases mem_append.1 hy with hy | hy
    · exact (hx.derivedIn_of_mem hy).mono (prefix_append _ _).isInfix
    · exact (hargs.derivedIn_of_mem hy).mono
        ((suffix_cons _ _).trans (suffix_append _ _)).isInfix

end

mutual

lemma DerivesStmt.derivedIn_of_mem {ts : List Token} {t : Stmt} {y : Expr} :
    DerivesStmt ts t → y ∈ t.exprs → DerivedIn ts y
  | @DerivesStmt.letVar k n a z ts _ _ _ _ _ _ _ he _, hy =>
    (he.derivedIn_of_mem hy).mono ⟨k :: n :: (ts ++ [a]), [z], by simp⟩
  | .assign (n := n) (a := a) (z := z) _ _ he _, hy =>
    (he.derivedIn_of_mem hy).mono ⟨[n, a], [z], by simp⟩
  | @DerivesStmt.ifElse k cs ts us _ _ _ _ hc hbody hother, hy => by
    rcases mem_append.1 hy with hy | hy
    · exact (hc.derivedIn_of_mem hy).mono ⟨[k], ts ++ us, by simp⟩
    · rcases mem_append.1 hy with hy | hy
      · exact (hbody.derivedIn_of_mem hy).mono ⟨k :: cs, us, by simp⟩
      · exact (hother.derivedIn_of_mem hy).mono ⟨k :: (cs ++ ts), [], by simp⟩
  | @DerivesStmt.whileDo k cs ts _ _ _ hc hbody, hy => by
    rcases mem_append.1 hy with hy | hy
    · exact (hc.derivedIn_of_mem hy).mono ⟨[k], ts, by simp⟩
    · exact (hbody.derivedIn_of_mem hy).mono ⟨k :: cs, [], by simp⟩
  | .ret _ _, hy => nomatch hy
  | .retValue (k := k) (z := z) _ he _, hy =>
    (he.derivedIn_of_mem hy).mono ⟨[k], [z], by simp⟩
  | .breakLoop _ _, hy => nomatch hy
  | .continueLoop _ _, hy => nomatch hy
  | .call he _, hy => (he.derivedIn_of_mem hy).mono (prefix_append _ _).isInfix

lemma DerivesBlock.derivedIn_of_mem {ts : List Token} {body : List Stmt} {y : Expr} :
    DerivesBlock ts body → y ∈ exprsBody body → DerivedIn ts y
  | .braces (o := o) (c := c) _ hbody _, hy =>
    (hbody.derivedIn_of_mem hy).mono ⟨[o], [c], by simp⟩

lemma DerivesBody.derivedIn_of_mem {ts : List Token} {body : List Stmt} {y : Expr} :
    DerivesBody ts body → y ∈ exprsBody body → DerivedIn ts y
  | .nil, hy => nomatch hy
  | .cons ht hbody, hy => by
    rcases mem_append.1 hy with hy | hy
    · exact (ht.derivedIn_of_mem hy).mono (prefix_append _ _).isInfix
    · exact (hbody.derivedIn_of_mem hy).mono (suffix_append _ _).isInfix

lemma DerivesElse.derivedIn_of_mem {ts : List Token} {body : List Stmt} {y : Expr} :
    DerivesElse ts body → y ∈ exprsBody body → DerivedIn ts y
  | .none, hy => nomatch hy
  | .block _ hbody, hy => (hbody.derivedIn_of_mem hy).mono (suffix_cons _ _).isInfix
  | .choice _ _ ht, hy => by
    rw [exprsBody, exprsBody, append_nil] at hy
    exact (ht.derivedIn_of_mem hy).mono (suffix_cons _ _).isInfix

end

lemma DerivesItem.derivedIn_of_mem {i : Item} {y : Expr} (h : DerivesItem ts i)
    (hy : y ∈ i.exprs) : DerivedIn ts y := by
  cases h with
  | @fn k n o c ps us bs _ _ _ hk hn ho hparams hc hresult hbody =>
    exact (hbody.derivedIn_of_mem hy).mono ⟨k :: n :: o :: (ps ++ c :: us), [], by simp⟩
  | @const k n a z us es _ _ hk hn htype ha he hz =>
    exact (he.derivedIn_of_mem hy).mono ⟨k :: n :: (us ++ [a]), [z], by simp⟩

lemma DerivesUnit.derivedIn_of_mem {is : List Item} {i : Item} {y : Expr}
    (h : DerivesUnit ts is) (hi : i ∈ is) (hy : y ∈ i.exprs) : DerivedIn ts y := by
  induction h with
  | nil => cases hi
  | cons hitem _ ih =>
    rcases mem_cons.1 hi with rfl | hi
    · exact (hitem.derivedIn_of_mem hy).mono (prefix_append _ _).isInfix
    · exact (ih hi).mono (suffix_append _ _).isInfix

/-! ## Recognition -/

lemma length_diagnostics {lexemes : List Lexeme} (h : ∀ l ∈ lexemes, l.faults = [])
    (maxErrors : Nat) :
    (parse lexemes maxErrors).diagnostics.length = (parse lexemes maxErrors).errors := by
  obtain ⟨ds, hds, -, herrors, hclean⟩ := (Parser.goes Parser.module { rest := lexemes, maxErrors }).reports
  simp [parse, hds, herrors, countP_eq_length.2 (hclean h)]

/-- Parsing the tokens of a text up to its end reports no error exactly if the grammar derives them;
without faults of the tokens, exactly then nothing at all is reported. The declarations that are
built are then those of the derivation, but for their places, and each expression among them is
derived from a run of the tokens that its own tokens from left to right are, except for commas
behind last arguments. -/
theorem parse_iff_derives {lexemes : List Lexeme} {ts : List Token} {z : Token}
    (htokens : lexemes.map (·.token) = ts ++ [z]) (hz : z.kind = .eof)
    (hts : ∀ t ∈ ts, t.kind ≠ .eof) : ((parse lexemes 0).errors = 0 ↔ ∃ is, DerivesUnit ts is) ∧
    ((∀ l ∈ lexemes, l.faults = []) →
      ((parse lexemes 0).diagnostics = [] ↔ ∃ is, DerivesUnit ts is)) ∧
    ∀ is, DerivesUnit ts is → (parse lexemes 0).module.items.map Item.bare = is ∧
      ∀ i ∈ is, ∀ x ∈ i.exprs, ∃ l us, us <:+: ts ∧ Derives l us x ∧
        x.yield = withoutTrailing (us.map Token.said) := by
  have hiff : (parse lexemes 0).errors = 0 ↔ ∃ is, DerivesUnit ts is := by
    constructor
    · intro h
      exact ⟨_, derivesUnit_of_parse htokens hz hts h⟩
    · rintro ⟨is, his⟩
      exact (parse_of_derivesUnit htokens hz his).1
  refine ⟨hiff, fun hfaults => ?_, fun is his => ⟨(parse_of_derivesUnit htokens hz his).2, ?_⟩⟩
  · rw [← length_eq_zero_iff, length_diagnostics hfaults, hiff]
  · intro i hi x hx
    obtain ⟨l, us, hus, hderives⟩ := his.derivedIn_of_mem hi hx
    exact ⟨l, us, hus, hderives, hderives.yield_eq⟩

/-- Choices, commas behind last parameters and arguments, and operators of several levels. -/
def choices : List Lexeme :=
  Lexer.lexemes {} "fn f(a: int,) { if not a < 1 or b { g(-a.xy * 2 - 3 - c,); } else if c { x = (1); } }"

def choiceTokens : List Token := (choices.map (·.token)).dropLast

theorem parse_iff_derives_choices : ∃ z : Token, choices.map (·.token) = choiceTokens ++ [z] ∧
    z.kind = .eof ∧ (∀ t ∈ choiceTokens, t.kind ≠ .eof) ∧ (parse choices 0).errors = 0 ∧
    ∃ is, DerivesUnit choiceTokens is ∧ (parse choices 0).module.items.map Item.bare = is := by
  have htokens : choices.map (·.token) = choiceTokens ++ [⟨.eof, ⟨0, 85, 85⟩, []⟩] := by
    decide +kernel
  have hts : ∀ t ∈ choiceTokens, t.kind ≠ .eof := by decide +kernel
  have herrors : (parse choices 0).errors = 0 := by decide +kernel
  obtain ⟨hiff, -, htree⟩ := parse_iff_derives htokens rfl hts
  obtain ⟨is, his⟩ := hiff.1 herrors
  exact ⟨_, htokens, rfl, hts, herrors, is, his, (htree is his).1⟩

end VecLang.Syntax
