import Mathlib.Tactic.Lemma
import VecLang.Syntax.Parser

/-!
# The grammar

The grammar of the language as relations between runs of tokens and trees. A tree of the grammar has
no places: two texts with the same tokens have the same tree.

The operators bind in this order, the loosest first, and those between operands group to the left:

| level | form |
|---|---|
| 0 | `or` |
| 1 | `and` |
| 2 | `==` `!=` |
| 3 | `<` `<=` `>` `>=` |
| 4 | `+` `-` |
| 5 | `*` `/` |
| 6 | `-` and `not` in front of an operand |
| 7 | lanes behind an operand |
| 8 | literals, names, calls, parentheses |

Reading an expression tree from left to right gives back the tokens it was derived from, but for
commas behind the last argument of a call.
-/

namespace VecLang

open List

def Token.bare (t : Token) : Token := { t with span := .none }

def Token.said (t : Token) : TokenKind × Bytes :=
  (t.kind, if t.kind = .ident ∨ t.kind.isLiteral then t.text else [])

namespace Syntax

/-! ## Trees without places -/

mutual

def Expr.bare : Expr → Expr
  | .ident _ n => .ident .none n
  | .lit t => .lit t.bare
  | .call _ f _ args => .call .none f .none (bareArgs args)
  | .binary _ op x y => .binary .none op x.bare y.bare
  | .unary _ op x => .unary .none op x.bare
  | .group _ x => .group .none x.bare
  | .swizzle _ comps _ x => .swizzle .none comps .none x.bare

def bareArgs : List Expr → List Expr
  | [] => []
  | e :: es => e.bare :: bareArgs es

end

def TypeName.bare (t : TypeName) : TypeName := { t with span := .none }

mutual

def Stmt.bare : Stmt → Stmt
  | .letVar _ n _ ty e => .letVar .none n .none (ty.map TypeName.bare) e.bare
  | .assign _ n _ e => .assign .none n .none e.bare
  | .ifElse _ c t e => .ifElse .none c.bare (bareBody t) (bareBody e)
  | .whileDo _ c b => .whileDo .none c.bare (bareBody b)
  | .ret _ e => .ret .none (e.map Expr.bare)
  | .breakLoop _ => .breakLoop .none
  | .continueLoop _ => .continueLoop .none
  | .expr _ e => .expr .none e.bare

def bareBody : List Stmt → List Stmt
  | [] => []
  | t :: ts => t.bare :: bareBody ts

end

def Param.bare (p : Param) : Param := { p with span := .none, type := p.type.map TypeName.bare }

def FnDecl.bare (d : FnDecl) : FnDecl where
  span := .none
  name := d.name
  nameSpan := .none
  params := d.params.map Param.bare
  result := d.result.map TypeName.bare
  body := bareBody d.body

def ConstDecl.bare (d : ConstDecl) : ConstDecl where
  span := .none
  name := d.name
  nameSpan := .none
  type := d.type.map TypeName.bare
  value := d.value.bare

def Item.bare : Item → Item
  | .fn d => .fn d.bare
  | .const d => .const d.bare

/-! ## Expressions -/

def binary? : TokenKind → Option (Nat × BinaryOp)
  | .kwOr => some (0, .or)
  | .kwAnd => some (1, .and)
  | .eqEq => some (2, .eq)
  | .bangEq => some (2, .ne)
  | .lt => some (3, .lt)
  | .ltEq => some (3, .le)
  | .gt => some (3, .gt)
  | .gtEq => some (3, .ge)
  | .plus => some (4, .add)
  | .minus => some (4, .sub)
  | .star => some (5, .mul)
  | .slash => some (5, .div)
  | _ => none

/-- A text that names one to four of the lanes `x`, `y`, `z` and `w`. -/
def Lanes (b : Bytes) : Prop := 1 ≤ b.length ∧ b.length ≤ 4 ∧ ∀ c ∈ b, c ∈ Bytes.ofString "xyzw"

mutual

inductive Derives : Nat → List Token → Expr → Prop
  | lit {t : Token} (ht : t.kind.isLiteral) : Derives 8 [t] (.lit t.bare)
  | ident {t : Token} (ht : t.kind = .ident) : Derives 8 [t] (.ident .none t.text)
  | call {f o c : Token} {ts : List Token} {args : List Expr} (hf : f.kind = .ident)
      (ho : o.kind = .lparen) (hargs : DerivesArgs ts args) (hc : c.kind = .rparen) :
      Derives 8 (f :: o :: (ts ++ [c])) (.call .none f.text .none args)
  | group {o c : Token} {ts : List Token} {x : Expr} (ho : o.kind = .lparen)
      (hx : Derives 0 ts x) (hc : c.kind = .rparen) :
      Derives 8 (o :: (ts ++ [c])) (.group .none x)
  | swizzle {d n : Token} {ts : List Token} {x : Expr} (hx : Derives 7 ts x) (hd : d.kind = .dot)
      (hn : n.kind = .ident) (hlanes : Lanes n.text) :
      Derives 7 (ts ++ [d, n]) (.swizzle .none n.text .none x)
  | unary {t : Token} {op : UnaryOp} {ts : List Token} {x : Expr}
      (ht : t.kind = .minus ∧ op = .neg ∨ t.kind = .kwNot ∧ op = .not) (hx : Derives 6 ts x) :
      Derives 6 (t :: ts) (.unary .none op x)
  | binary {l : Nat} {t : Token} {op : BinaryOp} {xs ys : List Token} {x y : Expr}
      (hx : Derives l xs x) (ht : binary? t.kind = some (l, op)) (hy : Derives (l + 1) ys y) :
      Derives l (xs ++ t :: ys) (.binary .none op x y)
  | tighter {l : Nat} {ts : List Token} {x : Expr} (hl : l < 8) (hx : Derives (l + 1) ts x) :
      Derives l ts x

inductive DerivesArgs : List Token → List Expr → Prop
  | nil : DerivesArgs [] []
  | last {ts : List Token} {x : Expr} (hx : Derives 0 ts x) : DerivesArgs ts [x]
  | more {t : Token} {xs ys : List Token} {x : Expr} {args : List Expr} (hx : Derives 0 xs x)
      (ht : t.kind = .comma) (hargs : DerivesArgs ys args) : DerivesArgs (xs ++ t :: ys) (x :: args)

end

/-! ## Statements -/

inductive DerivesType (k : TokenKind) : List Token → Option TypeName → Prop
  | none : DerivesType k [] none
  | some {m t : Token} (hm : m.kind = k) (ht : t.kind = .ident) :
      DerivesType k [m, t] (some ⟨t.text, .none⟩)

mutual

inductive DerivesStmt : List Token → Stmt → Prop
  | letVar {k n a z : Token} {ts es : List Token} {type : Option TypeName} {e : Expr}
      (hk : k.kind = .kwLet) (hn : n.kind = .ident) (htype : DerivesType .colon ts type)
      (ha : a.kind = .assign) (he : Derives 0 es e) (hz : z.kind = .semicolon) :
      DerivesStmt (k :: n :: (ts ++ a :: (es ++ [z]))) (.letVar .none n.text .none type e)
  | assign {n a z : Token} {es : List Token} {e : Expr} (hn : n.kind = .ident)
      (ha : a.kind = .assign) (he : Derives 0 es e) (hz : z.kind = .semicolon) :
      DerivesStmt (n :: a :: (es ++ [z])) (.assign .none n.text .none e)
  | ifElse {k : Token} {cs ts us : List Token} {c : Expr} {body other : List Stmt}
      (hk : k.kind = .kwIf) (hc : Derives 0 cs c) (hbody : DerivesBlock ts body)
      (hother : DerivesElse us other) :
      DerivesStmt (k :: (cs ++ ts ++ us)) (.ifElse .none c body other)
  | whileDo {k : Token} {cs ts : List Token} {c : Expr} {body : List Stmt}
      (hk : k.kind = .kwWhile) (hc : Derives 0 cs c) (hbody : DerivesBlock ts body) :
      DerivesStmt (k :: (cs ++ ts)) (.whileDo .none c body)
  | ret {k z : Token} (hk : k.kind = .kwReturn) (hz : z.kind = .semicolon) :
      DerivesStmt [k, z] (.ret .none none)
  | retValue {k z : Token} {es : List Token} {e : Expr} (hk : k.kind = .kwReturn)
      (he : Derives 0 es e) (hz : z.kind = .semicolon) :
      DerivesStmt (k :: (es ++ [z])) (.ret .none (some e))
  | breakLoop {k z : Token} (hk : k.kind = .kwBreak) (hz : z.kind = .semicolon) :
      DerivesStmt [k, z] (.breakLoop .none)
  | continueLoop {k z : Token} (hk : k.kind = .kwContinue) (hz : z.kind = .semicolon) :
      DerivesStmt [k, z] (.continueLoop .none)
  | call {z : Token} {es : List Token} {f : Bytes} {args : List Expr}
      (he : Derives 0 es (.call .none f .none args)) (hz : z.kind = .semicolon) :
      DerivesStmt (es ++ [z]) (.expr .none (.call .none f .none args))

inductive DerivesBlock : List Token → List Stmt → Prop
  | braces {o c : Token} {ts : List Token} {body : List Stmt} (ho : o.kind = .lbrace)
      (hbody : DerivesBody ts body) (hc : c.kind = .rbrace) : DerivesBlock (o :: (ts ++ [c])) body

inductive DerivesBody : List Token → List Stmt → Prop
  | nil : DerivesBody [] []
  | cons {xs ys : List Token} {t : Stmt} {body : List Stmt} (ht : DerivesStmt xs t)
      (hbody : DerivesBody ys body) : DerivesBody (xs ++ ys) (t :: body)

inductive DerivesElse : List Token → List Stmt → Prop
  | none : DerivesElse [] []
  | block {k : Token} {ts : List Token} {body : List Stmt} (hk : k.kind = .kwElse)
      (hbody : DerivesBlock ts body) : DerivesElse (k :: ts) body
  | choice {k i : Token} {ts : List Token} {t : Stmt} (hk : k.kind = .kwElse)
      (hi : i.kind = .kwIf) (ht : DerivesStmt (i :: ts) t) : DerivesElse (k :: i :: ts) [t]

end

/-! ## Declarations -/

inductive DerivesParams : List Token → List Param → Prop
  | nil : DerivesParams [] []
  | last {n : Token} {ts : List Token} {type : Option TypeName} (hn : n.kind = .ident)
      (htype : DerivesType .colon ts type) : DerivesParams (n :: ts) [⟨n.text, .none, type⟩]
  | more {n t : Token} {ts us : List Token} {type : Option TypeName} {ps : List Param}
      (hn : n.kind = .ident) (htype : DerivesType .colon ts type) (ht : t.kind = .comma)
      (hps : DerivesParams us ps) :
      DerivesParams (n :: (ts ++ t :: us)) (⟨n.text, .none, type⟩ :: ps)

inductive DerivesItem : List Token → Item → Prop
  | fn {k n o c : Token} {ps ts bs : List Token} {params : List Param}
      {result : Option TypeName} {body : List Stmt} (hk : k.kind = .kwFn) (hn : n.kind = .ident)
      (ho : o.kind = .lparen) (hparams : DerivesParams ps params) (hc : c.kind = .rparen)
      (hresult : DerivesType .arrow ts result) (hbody : DerivesBlock bs body) :
      DerivesItem (k :: n :: o :: (ps ++ c :: (ts ++ bs)))
        (.fn ⟨.none, n.text, .none, params, result, body⟩)
  | const {k n a z : Token} {ts es : List Token} {type : Option TypeName} {e : Expr}
      (hk : k.kind = .kwConst) (hn : n.kind = .ident) (htype : DerivesType .colon ts type)
      (ha : a.kind = .assign) (he : Derives 0 es e) (hz : z.kind = .semicolon) :
      DerivesItem (k :: n :: (ts ++ a :: (es ++ [z]))) (.const ⟨.none, n.text, .none, type, e⟩)

inductive DerivesUnit : List Token → List Item → Prop
  | nil : DerivesUnit [] []
  | cons {xs ys : List Token} {i : Item} {is : List Item} (hi : DerivesItem xs i)
      (his : DerivesUnit ys is) : DerivesUnit (xs ++ ys) (i :: is)

/-! ## How phrases begin -/

/-- An expression begins with an operand or, below the level of lanes, with an operator in front of
one. -/
lemma Derives.exists_head {l : Nat} {ts : List Token} {x : Expr} :
    Derives l ts x → ∃ t us, ts = t :: us ∧ (t.kind.isLiteral ∨ t.kind = .ident ∨ t.kind = .lparen ∨
        l ≤ 6 ∧ (t.kind = .minus ∨ t.kind = .kwNot))
  | .lit ht => ⟨_, _, rfl, .inl ht⟩
  | .ident ht => ⟨_, _, rfl, .inr (.inl ht)⟩
  | .call hf _ _ _ => ⟨_, _, rfl, .inr (.inl hf)⟩
  | .group ho _ _ => ⟨_, _, rfl, .inr (.inr (.inl ho))⟩
  | .swizzle hx _ _ _ => by
    obtain ⟨t, us, rfl, ht⟩ := hx.exists_head
    exact ⟨t, _, rfl, ht⟩
  | .unary ht _ => ⟨_, _, rfl, .inr (.inr (.inr ⟨Nat.le_refl 6, ht.imp (·.1) (·.1)⟩))⟩
  | .binary hx _ _ => by
    obtain ⟨t, us, rfl, ht⟩ := hx.exists_head
    exact ⟨t, _, rfl, ht⟩
  | .tighter _ hx => by
    obtain ⟨t, us, rfl, ht⟩ := hx.exists_head
    exact ⟨t, us, rfl, ht.imp_right (.imp_right (.imp_right fun h => ⟨by omega, h.2⟩))⟩

variable {l : Nat} {ts : List Token}

lemma Derives.head_ne_rparen {x : Expr} (h : Derives l ts x) :
    ∃ t us, ts = t :: us ∧ t.kind ≠ .rparen := by
  obtain ⟨t, us, rfl, ht⟩ := h.exists_head
  refine ⟨t, us, rfl, fun hk => ?_⟩
  simp [hk, TokenKind.isLiteral] at ht

lemma DerivesArgs.head_ne_rparen {args : List Expr} :
    DerivesArgs ts args → ts = [] ∧ args = [] ∨ args ≠ [] ∧ ∃ t us, ts = t :: us ∧ t.kind ≠ .rparen
  | .nil => .inl ⟨rfl, rfl⟩
  | .last hx => .inr ⟨cons_ne_nil _ _, hx.head_ne_rparen⟩
  | .more hx _ _ => by
    obtain ⟨t, us, rfl, ht⟩ := hx.head_ne_rparen
    exact .inr ⟨cons_ne_nil _ _, t, _, rfl, ht⟩

lemma Derives.eq_singleton {l : Nat} {ts : List Token} {x : Expr} {n : Bytes}
    (h : Derives l ts x) (hx : x = .ident .none n) :
    ∃ t, ts = [t] ∧ t.kind = .ident ∧ t.text = n := by
  match h with
  | .ident ht => exact ⟨_, rfl, ht, (Expr.ident.inj hx).2⟩
  | .tighter _ h => exact h.eq_singleton hx
  | .lit _ => cases hx
  | .call _ _ _ _ => cases hx
  | .group _ _ _ => cases hx
  | .swizzle _ _ _ _ => cases hx
  | .unary _ _ => cases hx
  | .binary _ _ _ => cases hx

/-- A statement begins neither with a closing brace, nor with the second branch of a choice, nor with
the end of the text. -/
lemma DerivesStmt.exists_head {t : Stmt} (h : DerivesStmt ts t) :
    ∃ i us, ts = i :: us ∧ i.kind ≠ .rbrace ∧ i.kind ≠ .eof ∧ i.kind ≠ .kwElse := by
  have hkind {k : TokenKind} {i : Token} {us : List Token} (hi : i.kind = k)
      (hk : k ≠ .rbrace ∧ k ≠ .eof ∧ k ≠ .kwElse) :
      ∃ i' us', i :: us = i' :: us' ∧ i'.kind ≠ .rbrace ∧ i'.kind ≠ .eof ∧ i'.kind ≠ .kwElse :=
    ⟨i, us, rfl, hi ▸ hk⟩
  cases h with
  | letVar hk => exact hkind hk (by decide)
  | assign hn => exact hkind hn (by decide)
  | ifElse hk => exact hkind hk (by decide)
  | whileDo hk => exact hkind hk (by decide)
  | ret hk => exact hkind hk (by decide)
  | retValue hk => exact hkind hk (by decide)
  | breakLoop hk => exact hkind hk (by decide)
  | continueLoop hk => exact hkind hk (by decide)
  | call he =>
    obtain ⟨i, us, rfl, hi⟩ := he.exists_head
    refine ⟨i, _, rfl, ?_, ?_, ?_⟩ <;> (intro hk; simp [hk, TokenKind.isLiteral] at hi)

lemma DerivesItem.exists_head {i : Item} (h : DerivesItem ts i) :
    ∃ k us, ts = k :: us ∧ (k.kind = .kwFn ∨ k.kind = .kwConst) := by
  cases h with
  | fn hk => exact ⟨_, _, rfl, .inl hk⟩
  | const hk => exact ⟨_, _, rfl, .inr hk⟩

/-! ## Reading a tree back -/

def binaryKind : BinaryOp → TokenKind
  | .invalid => .invalid
  | .add => .plus
  | .sub => .minus
  | .mul => .star
  | .div => .slash
  | .lt => .lt
  | .le => .ltEq
  | .gt => .gt
  | .ge => .gtEq
  | .eq => .eqEq
  | .ne => .bangEq
  | .and => .kwAnd
  | .or => .kwOr

def unaryKind : UnaryOp → TokenKind
  | .invalid => .invalid
  | .neg => .minus
  | .not => .kwNot

mutual

def Expr.yield : Expr → List (TokenKind × Bytes)
  | .ident _ n => [(.ident, n)]
  | .lit t => [t.said]
  | .call _ f _ args => (.ident, f) :: (.lparen, []) :: (yieldArgs args ++ [(.rparen, [])])
  | .binary _ op x y => x.yield ++ (binaryKind op, []) :: y.yield
  | .unary _ op x => (unaryKind op, []) :: x.yield
  | .group _ x => (.lparen, []) :: (x.yield ++ [(.rparen, [])])
  | .swizzle _ comps _ x => x.yield ++ [(.dot, []), (.ident, comps)]

/-- The tokens of arguments from left to right, with a comma between any two. -/
def yieldArgs : List Expr → List (TokenKind × Bytes)
  | [] => []
  | [x] => x.yield
  | x :: y :: args => x.yield ++ (.comma, []) :: yieldArgs (y :: args)

end

def withoutTrailing : List (TokenKind × Bytes) → List (TokenKind × Bytes)
  | [] => []
  | t :: ts =>
    if t.1 = .comma ∧ ts.head?.map (·.1) = some .rparen then withoutTrailing ts
    else t :: withoutTrailing ts

variable {k : TokenKind}

lemma withoutTrailing_cons {b : Bytes} {ts : List (TokenKind × Bytes)}
    (hk : k ≠ .comma) : withoutTrailing ((k, b) :: ts) = (k, b) :: withoutTrailing ts := by
  rw [withoutTrailing, if_neg fun h => hk h.1]

variable {t : Token}

lemma said_eq (hk : t.kind = k) (hident : k ≠ .ident)
    (hlit : k.isLiteral = false) : t.said = (k, []) := by
  simp [Token.said, hk, hident, hlit]

lemma said_ident (ht : t.kind = .ident) : t.said = (.ident, t.text) := by
  simp [Token.said, ht]

lemma kind_of_binary? {op : BinaryOp} (h : binary? k = some (l, op)) :
    k = binaryKind op ∧ l < 6 := by
  cases k <;> simp [binary?] at h <;> (obtain ⟨rfl, rfl⟩ := h; exact ⟨rfl, by decide⟩)

lemma said_of_binary? {op : BinaryOp} (h : binary? t.kind = some (l, op)) :
    t.said = (binaryKind op, []) ∧ binaryKind op ≠ .comma := by
  obtain ⟨hk, -⟩ := kind_of_binary? h
  refine ⟨said_eq hk ?_ ?_, ?_⟩ <;> cases op <;> decide

mutual

lemma Derives.withoutTrailing_append {l : Nat} {ts : List Token} {x : Expr} :
    Derives l ts x → ∀ zs, withoutTrailing (ts.map Token.said ++ zs) = x.yield ++ withoutTrailing zs
  | .lit (t := t) ht, zs => by
    have hne : t.kind ≠ .comma := fun h => by
      rw [h] at ht
      cases ht
    exact withoutTrailing_cons hne
  | .ident ht, zs => by
    rw [map_singleton, said_ident ht]
    exact withoutTrailing_cons (by decide)
  | .call hf ho hargs hc, zs => by
    simp only [map_cons, map_append, map_nil, cons_append, append_assoc,
      said_ident hf, said_eq ho (by decide) rfl, said_eq hc (by decide) rfl, Expr.yield]
    rw [withoutTrailing_cons (by decide), withoutTrailing_cons (by decide), nil_append, nil_append,
      hargs.withoutTrailing_append]
  | .group ho hx hc, zs => by
    simp only [map_cons, map_append, map_nil, cons_append, append_assoc,
      said_eq ho (by decide) rfl, said_eq hc (by decide) rfl, Expr.yield]
    rw [withoutTrailing_cons (by decide), hx.withoutTrailing_append, nil_append, nil_append,
      withoutTrailing_cons (by decide)]
  | .swizzle hx hd hn _, zs => by
    simp only [map_cons, map_append, map_nil, cons_append, append_assoc,
      said_ident hn, said_eq hd (by decide) rfl, Expr.yield]
    rw [hx.withoutTrailing_append, withoutTrailing_cons (by decide), withoutTrailing_cons (by decide),
      nil_append, nil_append]
  | .unary ht hx, zs => by
    have hsaid : ∀ {t : Token} {op : UnaryOp},
        t.kind = .minus ∧ op = .neg ∨ t.kind = .kwNot ∧ op = .not → t.said = (unaryKind op, []) := by
      rintro t op (⟨hk, rfl⟩ | ⟨hk, rfl⟩)
      · exact said_eq hk (by decide) rfl
      · exact said_eq hk (by decide) rfl
    rw [map_cons, hsaid ht, cons_append, withoutTrailing_cons, hx.withoutTrailing_append]
    · rfl
    · obtain ⟨-, rfl⟩ | ⟨-, rfl⟩ := ht <;> exact nofun
  | .binary hx ht hy, zs => by
    obtain ⟨hsaid, hne⟩ := said_of_binary? ht
    simp only [map_cons, map_append, cons_append, append_assoc, hsaid, Expr.yield]
    rw [hx.withoutTrailing_append, withoutTrailing_cons hne, hy.withoutTrailing_append]
  | .tighter _ hx, zs => hx.withoutTrailing_append zs

lemma DerivesArgs.withoutTrailing_append {ts : List Token} {args : List Expr} :
    DerivesArgs ts args → ∀ zs, withoutTrailing (ts.map Token.said ++ (.rparen, []) :: zs) =
      yieldArgs args ++ (.rparen, []) :: withoutTrailing zs
  | .nil, zs => withoutTrailing_cons (by decide)
  | .last hx, zs => by
    rw [hx.withoutTrailing_append, withoutTrailing_cons (by decide), yieldArgs]
  | .more hx ht hargs, zs => by
    simp only [map_cons, map_append, cons_append, append_assoc, said_eq ht (by decide) rfl]
    have ih := hargs.withoutTrailing_append zs
    rw [hx.withoutTrailing_append, withoutTrailing]
    -- The comma goes exactly if it is the last one.
    rcases hargs.head_ne_rparen with ⟨rfl, rfl⟩ | ⟨hne, t, us, rfl, hk⟩
    · rw [if_pos ⟨rfl, rfl⟩]
      exact congrArg _ ih
    · rw [if_neg fun h => hk (Option.some.inj h.2), ih]
      obtain ⟨y, ys, rfl⟩ := exists_cons_of_ne_nil hne
      simp [yieldArgs]

end

/-- Reading the tree of an expression from left to right gives the tokens it was derived from, but
for commas behind last arguments. -/
lemma Derives.yield_eq {x : Expr} (h : Derives l ts x) :
    x.yield = withoutTrailing (ts.map Token.said) := by
  simpa [withoutTrailing] using (h.withoutTrailing_append []).symm

end Syntax

end VecLang
