import VecLang.Proofs.Typing.Verdicts

/-!
# Reading types off

In a state in which every variable of the program has come down to one type, every operand has:
the operands that are not variables of the program are results of products and quotients, and
each of these got a verdict, which ties its type to those of its operands. So types can be read
off all expressions. What is read off is the expression that was sketched, and it follows the
typing rules.
-/

namespace VecLang.Typing

open ConstraintSets Stateful Stmt Option Resolved TypeVar Typed
open List hiding span

variable {table : SymbolTable} {types : VarId → Ty} {s t : InferState} {o l r : Operand}
  {τ σ : Assignment}

def memberOf (ty : Ty) : Member := if ty = .invalid then none else some ty

variable {a b : Ty}

lemma memberOf_inj (h : memberOf a = memberOf b) : a = b := by
  revert h
  cases a <;> cases b <;> decide

variable {ty : Ty}

lemma memberOf_of_ne (h : ty ≠ .invalid) : memberOf ty = some ty := if_neg h

structure Fixed (s : InferState) (o : Operand) (ty : Ty) : Prop where
  sound : o.Sound s
  eq : ∀ τ, s.Solves τ → o.at τ = memberOf ty

/-- The set of types that consists of one. -/
lemma Fixed.type? (h : Fixed s o ty) (hs : Solid table s) :
    o.type? s.sets = some (if ty = .invalid then .none else .exact ty) := by
  obtain ⟨tv, htv, hmem⟩ := h.sound.exists_type hs
  obtain ⟨σ, hσ⟩ := hs.exists_solves
  rw [htv]
  refine congrArg some (eq_of_mem_iff fun m => ?_)
  have hm : m ∈ tv.members ↔ m = memberOf ty := by
    rw [hmem]
    constructor
    · rintro ⟨τ, hτ, rfl⟩
      exact h.eq τ hτ
    · rintro rfl
      exact ⟨σ, hσ, h.eq σ hσ⟩
  rw [hm]
  cases ty <;> exact mem_singleton.symm

lemma Fixed.concreteType {span : Span} (h : Fixed s o ty) (hs : Solid table s) :
    concreteType span o s = .ok (ty, s) := by
  rw [Typing.concreteType, bind_of_eq_ok (typeOf_of_some (h.type? hs))]
  cases ty <;> rfl

lemma fixed_exact (h : ty ≠ .invalid) : Fixed s (.known (.exact ty)) ty where
  sound := sound_exact h
  eq τ _ := by rw [Operand.at_known (members_exact_eq h), memberOf_of_ne h]

lemma fixed_resultVar (f : Fun) : Fixed s (.known f.resultVar) f.result := by
  unfold Fun.resultVar
  by_cases h : f.result = .invalid
  · rw [if_pos h, h]
    exact ⟨⟨none, rfl⟩, fun _ _ => rfl⟩
  · rw [if_neg h]
    exact fixed_exact h

/-! ## Classes of types -/

lemma eq_of_mem_exact (h : memberOf a ∈ (TypeVar.exact b).members) : a = b := by
  revert h
  cases a <;> cases b <;> decide

lemma result?_of_mem_linear (h : memberOf ty ∈ linear.members) :
    ty ≠ .invalid ∧ UnaryOp.neg.result? ty = some ty := by
  revert h
  cases ty <;> decide

lemma lt_four_of_maxLane {lanes : List Nat} (h : ∀ l ∈ lanes, l < 4) : maxLane lanes < 4 := by
  have main : ∀ (ls : List Nat) (a : Nat), a < 4 → (∀ l ∈ ls, l < 4) → ls.foldl max a < 4 := by
    intro ls
    induction ls with
    | nil => exact fun a ha _ => ha
    | cons l ls ih =>
      intro a ha hls
      have hl := hls l mem_cons_self
      exact ih (max a l) (by omega) fun k hk => hls k (mem_cons_of_mem _ hk)
  exact main lanes 0 (by decide) h

lemma isVector_of_mem_operandClass {n : Nat} (hn : n < 4)
    (h : memberOf ty ∈ (Swizzle.operandClass n).members) : ty.isVector = true ∧ n < ty.lanes := by
  have cases4 : n = 0 ∨ n = 1 ∨ n = 2 ∨ n = 3 := by omega
  revert h
  rcases cases4 with rfl | rfl | rfl | rfl <;> cases ty <;> decide

lemma eq_result_of_mem_resultVar {f : Fun} (h : memberOf ty ∈ f.resultVar.members) :
    ty = f.result := by
  unfold Fun.resultVar at h
  by_cases hr : f.result = .invalid
  · rw [if_pos hr] at h
    rw [hr]
    revert h
    cases ty <;> decide
  · rw [if_neg hr] at h
    exact eq_of_mem_exact h

/-! ## Operators -/

instance (op : BinaryOp) (l r : Member) : Decidable (Demanded op l r) :=
  inferInstanceAs (Decidable ( if op.isLogic then l = some .bool ∧ r = some .bool
    else if op.isRel then l = r ∧ l ∈ (if op.isOrdering then scalar else .linear).members
    else if op = .mul ∨ op = .div then True
    else l = r ∧ l ∈ linear.members))

lemma mem_tyAll (ty : Ty) : ty ∈ Ty.all := by
  cases ty <;> decide

lemma mem_binaryAll (op : BinaryOp) : op ∈ BinaryOp.all := by
  cases op <;> decide

variable {op : BinaryOp}

/-- The operator takes values of these types to values of the type `ty`, and scales a vector or
not. -/
structure Suits (op : BinaryOp) (a b ty : Ty) (scaling : Bool) : Prop where
  left : a ≠ .invalid
  right : b ≠ .invalid
  result : op.result? a b = some ty
  scaling : op.isScaling a b = scaling

instance (op : BinaryOp) (a b ty : Ty) (scaling : Bool) : Decidable (Suits op a b ty scaling) :=
  decidable_of_iff (a ≠ .invalid ∧ b ≠ .invalid ∧ op.result? a b = some ty ∧
    op.isScaling a b = scaling) ⟨fun ⟨h1, h2, h3, h4⟩ => ⟨h1, h2, h3, h4⟩,
      fun ⟨h1, h2, h3, h4⟩ => ⟨h1, h2, h3, h4⟩⟩

lemma suits_of_demanded (hop : op ≠ .invalid)
    (hmul : ¬ (op = .mul ∨ op = .div)) (h : Demanded op (memberOf a) (memberOf b)) :
    Suits op a b (if op.isLogic || op.isRel then .bool else a) false ∧
      (op.isLogic = false → a = b) := by
  have table : ∀ op ∈ BinaryOp.all, ∀ a ∈ Ty.all, ∀ b ∈ Ty.all, op ≠ .invalid →
      ¬ (op = .mul ∨ op = .div) → Demanded op (memberOf a) (memberOf b) →
      Suits op a b (if op.isLogic || op.isRel then .bool else a) false ∧
        (op.isLogic = false → a = b) := by
    decide +kernel
  exact table op (mem_binaryAll op) a (mem_tyAll a) b (mem_tyAll b) hop hmul h

lemma suits_of_scaleLeft (hop : op = .mul ∨ op = .div)
    (ha : memberOf a ∈ vec.members) (hb : memberOf b ∈ (TypeVar.exact .real).members) :
    Suits op a b a true := by
  rcases hop with rfl | rfl <;> revert ha hb <;> cases a <;> cases b <;> decide

lemma suits_of_scaleRight (hb : memberOf b ∈ vec.members)
    (ha : memberOf a ∈ (TypeVar.exact .real).members) : Suits .mul a b b true := by
  revert ha hb
  cases a <;> cases b <;> decide

lemma suits_of_plain (hop : op = .mul ∨ op = .div) (ha : memberOf a ∈ number.members) :
    Suits op a a a false := by
  rcases hop with rfl | rfl <;> revert ha <;> cases a <;> decide

/-- An operation that waited got a verdict, and it is noted down exactly if it scales a vector. -/
def Ruled (s : InferState) (p : Pending) : Prop :=
  Placed s p ∧ ∃ v : Verdict, (∀ τ, s.Solves τ → v.Met τ p) ∧ (p.result ∈ s.scaled ↔ v ≠ .plain)

lemma Ruled.exists_fixed {p : Pending} (h : Ruled s p) (hσ : s.Solves σ)
    (hop : p.op = .mul ∨ p.op = .div) (ha : Fixed s p.left a) (hb : Fixed s p.right b) :
    ∃ ty, Fixed s (.anchored p.result) ty ∧ Suits p.op a b ty (s.scaled.contains p.result) := by
  obtain ⟨⟨-, -, hres⟩, v, hv, hnoted⟩ := h
  have hmet := hv σ hσ
  cases v with
  | scaleLeft =>
    refine ⟨a, ⟨hres, fun τ hτ => (hv τ hτ).2.1.trans (ha.eq τ hτ)⟩, ?_⟩
    rw [contains_iff_mem.2 (hnoted.2 nofun)]
    exact suits_of_scaleLeft hop (ha.eq σ hσ ▸ hmet.1) (hb.eq σ hσ ▸ hmet.2.2)
  | scaleRight =>
    refine ⟨b, ⟨hres, fun τ hτ => (hv τ hτ).2.2.1.trans (hb.eq τ hτ)⟩, ?_⟩
    rw [hmet.1, contains_iff_mem.2 (hnoted.2 nofun)]
    exact suits_of_scaleRight (hb.eq σ hσ ▸ hmet.2.1) (ha.eq σ hσ ▸ hmet.2.2.2)
  | plain =>
    obtain rfl : a = b := by
      refine memberOf_inj ?_
      rw [← ha.eq σ hσ, ← hb.eq σ hσ]
      exact hmet.1
    refine ⟨a, ⟨hres, fun τ hτ => (hv τ hτ).2.1.trans (ha.eq τ hτ)⟩, ?_⟩
    rw [Bool.eq_false_iff.2 fun hm => hnoted.1 (contains_iff_mem.1 hm) rfl]
    exact suits_of_plain hop (ha.eq σ hσ ▸ hmet.2.2)

/-! ## Expressions -/

/-- A state in which all operations that waited got verdicts and all variables of the program
have one type. -/
structure Closed (table : SymbolTable) (types : VarId → Ty) (s : InferState) : Prop where
  solid : Solid table s
  ruled : ∀ p ∈ s.pending, Ruled s p
  fixed : ∀ v, table.Has v → types v ≠ .invalid ∧ Fixed s (.anchored v) (types v)

lemma Closed.declared (hc : Closed table types s) {v : VarId} {var : Var}
    (hvar : table.var? v = some var) (hd : var.declared ≠ .invalid) : types v = var.declared := by
  obtain ⟨σ, hσ⟩ := hc.solid.exists_solves
  obtain ⟨hne, hfix⟩ := hc.fixed v ⟨var, hvar⟩
  have heq := hfix.eq σ hσ
  rw [memberOf_of_ne hne] at heq
  exact Option.some.inj (heq.symm.trans (eq_declared hc.solid hfix.sound hvar hd hσ))

lemma exists_fixed_resultOperand (hc : Closed table types s) (hσ : s.Solves σ) {span : Span}
    {x y : Sketch} {k : VarId} (hop : op ≠ .invalid)
    (hprod : ∀ p ∈ product span op x y (resultOperand op x.operand y.operand k).1, p ∈ s.pending)
    (hd : Demanded op (x.operand.at σ) (y.operand.at σ))
    (ha : Fixed s x.operand a) (hb : Fixed s y.operand b) :
    ∃ ty flag, Fixed s (resultOperand op x.operand y.operand k).1 ty ∧
      scales (resultOperand op x.operand y.operand k).1 s = .ok (flag, s) ∧
      Suits op a b ty ((decide (op = .mul) || decide (op = .div)) && flag) := by
  by_cases hmul : op = .mul ∨ op = .div
  · have hno : (op.isLogic || op.isRel) = false := by rcases hmul with rfl | rfl <;> rfl
    have hres : resultOperand op x.operand y.operand k = (.anchored k, k + 1) := by
      rw [resultOperand, hno, if_neg nofun, if_pos hmul]
    have hmul' : (decide (op = .mul) || decide (op = .div)) = true := by simpa using hmul
    rw [hres, product, if_pos hmul] at hprod
    rw [hres, hmul']
    obtain ⟨ty, hfix, hfits⟩ := (hc.ruled _ (hprod _ mem_cons_self)).exists_fixed hσ hmul ha hb
    exact ⟨ty, _, hfix, rfl, hfits⟩
  · rw [ha.eq σ hσ, hb.eq σ hσ] at hd
    obtain ⟨hfits, hsame⟩ := suits_of_demanded hop hmul hd
    have hmul' : (decide (op = .mul) || decide (op = .div)) = false := by simpa using hmul
    obtain ⟨flag, hflag⟩ : ∃ flag,
        scales (resultOperand op x.operand y.operand k).1 s = .ok (flag, s) := by
      cases (resultOperand op x.operand y.operand k).1 with
      | known tv => exact ⟨_, rfl⟩
      | anchored v => exact ⟨_, rfl⟩
    refine ⟨_, flag, ?_, hflag, by rwa [hmul', Bool.false_and]⟩
    unfold resultOperand
    split
    · exact fixed_exact (by decide)
    · rename_i hno
      rw [Bool.or_eq_true, not_or] at hno
      obtain rfl := hsame (Bool.not_eq_true _ ▸ hno.1)
      refine ⟨ha.sound.joined hb.sound, fun τ hτ => ?_⟩
      rw [Operand.at_joined ((ha.eq τ hτ).trans (hb.eq τ hτ).symm)]
      exact ha.eq τ hτ

structure Built (table : SymbolTable) (types : VarId → Ty) (s : InferState) (x : Sketch)
    (b : Typed.Expr) : Prop where
  ok : build x s = .ok (b, s)
  erase : b.erase = x.erase
  fixed : Fixed s x.operand b.ty
  wellTyped : b.WellTyped table types (Declared table)

/-- Only a call can have no value, and then its sketch says so. -/
lemma Built.operand_of_void {e : Resolved.Expr} {k : VarId} {b : Typed.Expr}
    (h : Built table types s (sketched table e k).1 b) (hty : b.ty = .invalid) :
    (sketched table e k).1.operand = .known .none := by
  have herase := h.erase
  obtain ⟨span, callee, args, rfl⟩ := h.wellTyped.exists_call hty
  rw [erase_sketched] at herase
  subst herase
  obtain ⟨f, hf, hres, -⟩ := h.wellTyped
  have hinv : f.result = .invalid := hres.symm.trans hty
  simp only [Expr.erase, sketched, Sketch.operand, hf, map_some, getD_some, Fun.resultVar,
    if_pos hinv]

mutual

lemma exists_build (hc : Closed table types s) (hσ : s.Solves σ) (e : Resolved.Expr)
    (hwf : e.WellFormed table table.Has) {k : VarId}
    (hprod : ∀ p ∈ (sketched table e k).1.products, p ∈ s.pending)
    (hagree : (sketched table e k).1.Agrees table False σ) :
    ∃ b, Built table types s (sketched table e k).1 b := by
  match e with
  | .lit span v =>
    refine ⟨.lit v.ty span v, ?_, rfl, fixed_exact hwf.ty_ne, rfl, hwf.canonical⟩
    rfl
  | .var span id =>
    obtain ⟨hne, hfix⟩ := hc.fixed id hwf
    rw [sketched]
    refine ⟨.var (types id) span id, ?_, rfl, hfix, rfl, hne⟩
    rw [build, bind_of_eq_ok (hfix.concreteType hc.solid)]
    rfl
  | .unary span op e =>
    rw [sketched] at hprod hagree ⊢
    obtain ⟨b, hb⟩ := exists_build hc hσ e hwf.2 hprod hagree.1
    have hin := hagree.2
    rw [hb.fixed.eq σ hσ] at hin
    refine ⟨.unary b.ty span op b, ?_, by rw [Expr.erase, hb.erase, Sketch.erase], hb.fixed,
      hb.wellTyped, ?_⟩
    · rw [build, bind_of_eq_ok (hb.fixed.concreteType hc.solid), bind_of_eq_ok hb.ok]
      rfl
    cases op with
    | invalid => exact absurd rfl hwf.1
    | neg => exact result?_of_mem_linear hin
    | not =>
      rw [eq_of_mem_exact hin]
      decide
  | .binary span op e f =>
    rw [sketched] at hprod hagree ⊢
    dsimp only at hprod hagree ⊢
    simp only [Sketch.products, mem_append, or_imp, forall_and] at hprod
    obtain ⟨⟨hpe, hpf⟩, hpo⟩ := hprod
    obtain ⟨a, ha⟩ := exists_build hc hσ e hwf.2.1 hpe hagree.1
    obtain ⟨b, hb⟩ := exists_build hc hσ f hwf.2.2 hpf hagree.2.1
    obtain ⟨ty, flag, hfix, hflag, hfits⟩ :=
      exists_fixed_resultOperand hc hσ hwf.1 hpo hagree.2.2 ha.fixed hb.fixed
    let scaling := (decide (op = .mul) || decide (op = .div)) && flag
    refine ⟨.binary ty span op (if scaling then ty else a.ty) scaling a b, ?_,
      by rw [Expr.erase, ha.erase, hb.erase, Sketch.erase], hfix, ha.wellTyped, hb.wellTyped,
      ⟨hfits.left, hfits.right⟩, hfits.result, hfits.scaling.symm, rfl⟩
    rw [build, bind_of_eq_ok (hfix.concreteType hc.solid), bind_of_eq_ok ha.ok,
      bind_of_eq_ok hb.ok, bind_of_eq_ok hflag, buildBinary, if_pos hfits.result]
    rfl
  | .call span callee args =>
    obtain ⟨⟨f, hf, hlen⟩, hwfs⟩ := hwf
    rw [sketched] at hprod hagree ⊢
    dsimp only at hprod hagree ⊢
    obtain ⟨bs, hbs, herase, hwt⟩ := exists_buildArgs hc hσ args f.params hlen hwfs hprod (hagree f hf)
    simp only [hf, map_some, getD_some]
    have hfix : Fixed s (.known f.resultVar) f.result := fixed_resultVar f
    refine ⟨.call f.result span callee bs, ?_, by rw [Expr.erase, herase, Sketch.erase], hfix,
      f, hf, rfl, hwt⟩
    rw [build, bind_of_eq_ok (hfix.concreteType hc.solid), bind_of_eq_ok hbs]
    rfl
  | .pack span ty elems =>
    obtain ⟨hcons, hlen, hwfs⟩ := hwf
    rw [sketched] at hprod hagree ⊢
    dsimp only at hprod hagree ⊢
    obtain ⟨bs, hbs, herase, hwt⟩ := exists_buildElems hc hσ elems hwfs hprod hagree
    have hne : ty ≠ .invalid := by
      rintro rfl
      exact absurd hcons (by decide)
    refine ⟨.pack ty span bs, ?_, by rw [Expr.erase, herase, Sketch.erase], fixed_exact hne, hcons,
      ?_, hwt⟩
    · rw [build, bind_of_eq_ok hbs]
      rfl
    · rw [← hlen, ← length_eraseAll, herase, erase_sketchedAll]
  | .swizzle span lanes e =>
    obtain ⟨hsome, hlanes, hwfe⟩ := hwf
    rw [sketched] at hprod hagree ⊢
    dsimp only at hprod hagree ⊢
    obtain ⟨b, hb⟩ := exists_build hc hσ e hwfe hprod hagree.1
    obtain ⟨ty, hty⟩ := isSome_iff_exists.1 hsome
    simp only [hty, getD_some]
    have hne : ty ≠ .invalid := by
      rintro rfl
      exact swizzle_result?_ne_invalid hty
    have hfix : Fixed s (.known (.exact ty)) ty := fixed_exact hne
    have hin := hagree.2
    rw [hb.fixed.eq σ hσ] at hin
    obtain ⟨hvec, hlt⟩ := isVector_of_mem_operandClass (lt_four_of_maxLane hlanes) hin
    refine ⟨.swizzle ty span lanes b, ?_, by rw [Expr.erase, hb.erase, Sketch.erase], hfix,
      hb.wellTyped, hvec, hlt, hty⟩
    rw [build, bind_of_eq_ok (hfix.concreteType hc.solid), bind_of_eq_ok hb.ok]
    rfl

lemma exists_buildArgs (hc : Closed table types s) (hσ : s.Solves σ) (es : List Resolved.Expr)
    (ps : List VarId) (hlen : es.length = ps.length)
    (hwf : AllWellFormed table table.Has es) {k : VarId}
    (hprod : ∀ p ∈ productsAll (sketchedAll table es k).1, p ∈ s.pending)
    (hagree : ArgsAgree table False σ (sketchedAll table es k).1 ps) :
    ∃ bs, buildList (sketchedAll table es k).1 s = .ok (bs, s) ∧
      eraseAll bs = eraseSketches (sketchedAll table es k).1 ∧
      ArgsWellTyped table types (Declared table) bs ps := by
  match es, ps with
  | [], [] =>
    exact ⟨[], rfl, rfl, rfl⟩
  | e :: es, p :: ps =>
    rw [sketchedAll] at hprod hagree ⊢
    dsimp only at hprod hagree ⊢
    simp only [productsAll, mem_append, or_imp, forall_and] at hprod
    obtain ⟨b, hb⟩ := exists_build hc hσ e hwf.1 hprod.1 hagree.1
    obtain ⟨bs, hbs, herase, hwt⟩ :=
      exists_buildArgs hc hσ es ps (Nat.succ.inj hlen) hwf.2 hprod.2 hagree.2.2
    rw [buildList, bind_of_eq_ok hb.ok, bind_of_eq_ok hbs]
    refine ⟨_, rfl, by rw [eraseAll, hb.erase, herase, eraseSketches], hb.wellTyped,
      fun var hvar => ?_, hwt⟩
    obtain ⟨hne, hfix⟩ := hc.fixed p ⟨var, hvar⟩
    -- the argument has the type of its parameter wherever that was demanded
    have hsame (h : Stated table p ∨ (sketched table e k).1.operand = .known .none) :
        b.ty = types p := by
      refine memberOf_inj ?_
      rw [← hb.fixed.eq σ hσ, hagree.2.1 (.inr h)]
      exact hfix.eq σ hσ
    refine ⟨fun hinv => hne ?_, fun hd => ?_⟩
    · rw [← hsame (.inr (hb.operand_of_void hinv)), hinv]
    · rw [hsame (.inl ⟨var, hvar, hd⟩), hc.declared hvar hd]

lemma exists_buildElems (hc : Closed table types s) (hσ : s.Solves σ) (es : List Resolved.Expr)
    (hwf : AllWellFormed table table.Has es)
    {k : VarId} (hprod : ∀ p ∈ productsAll (sketchedAll table es k).1, p ∈ s.pending)
    (hagree : ElemsAgree table False σ (sketchedAll table es k).1) :
    ∃ bs, buildList (sketchedAll table es k).1 s = .ok (bs, s) ∧
      eraseAll bs = eraseSketches (sketchedAll table es k).1 ∧
      ElemsWellTyped table types (Declared table) bs := by
  match es with
  | [] =>
    exact ⟨[], rfl, rfl, trivial⟩
  | e :: es =>
    rw [sketchedAll] at hprod hagree ⊢
    dsimp only at hprod hagree ⊢
    simp only [productsAll, mem_append, or_imp, forall_and] at hprod
    obtain ⟨b, hb⟩ := exists_build hc hσ e hwf.1 hprod.1 hagree.1
    obtain ⟨bs, hbs, herase, hwt⟩ := exists_buildElems hc hσ es hwf.2 hprod.2 hagree.2.2
    rw [buildList, bind_of_eq_ok hb.ok, bind_of_eq_ok hbs]
    refine ⟨_, rfl, by rw [eraseAll, hb.erase, herase, eraseSketches], hb.wellTyped,
      memberOf_inj ?_, hwt⟩
    exact (hb.fixed.eq σ hσ).symm.trans hagree.2.1

end

end VecLang.Typing
