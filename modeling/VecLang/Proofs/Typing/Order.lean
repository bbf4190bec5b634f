import VecLang.Proofs.Typing.Outcomes
import VecLang.Proofs.Typing.Renaming

/-!
# The order of functions

The assignments that are left after all operations of a program are settled (`Left`) are the same
for every order of its functions, up to the variables that stand for results, if the types of
arguments are evident (`left_perm`). Constants are settled first, all in one round. After that the
assignments that are left fall into independent parts, one for each function, and neighbours can
change places.
-/

namespace VecLang.Typing

open Stateful Stmt List Function Resolved Sketch

variable {table : SymbolTable} {K V : VarId → Prop} {S : Assignment → Prop} {τ σ : Assignment}

/-! ## Operations whose operands have one type -/

variable {o : Operand}

lemma Told.allVector_or (h : Told S o) : AllVector S o ∨ NoVector S o := by
  obtain ⟨m, hm⟩ := h
  by_cases hv : m ∈ TypeVar.vec.members
  · exact .inl fun τ hτ => by rwa [hm τ hτ]
  · exact .inr fun τ hτ => by rwa [hm τ hτ]

lemma Told.joined {l r : Operand} (hl : Told S l) (hr : Told S r) : Told S (l.joined r) := by
  cases l with
  | known tv => exact hr
  | anchored v => exact hl

variable {p : Pending}

lemma exists_judge (hl : Told S p.left) (hr : Told S p.right) : ∃ v, judge S p false = some v := by
  unfold judge
  rcases hl.allVector_or with hl | hl
  · exact ⟨_, if_pos (.inl hl)⟩
  rcases hr.allVector_or with hr | hr
  · by_cases hmul : p.op = .mul
    · split
      · exact ⟨_, rfl⟩
      · exact ⟨_, if_pos ⟨hmul, .inl hr⟩⟩
    · split
      · exact ⟨_, rfl⟩
      · rw [if_neg fun h => hmul h.1]
        exact ⟨_, if_pos (.inr (.inr ⟨hl, .inl hmul⟩))⟩
  · split
    · exact ⟨_, rfl⟩
    · split
      · exact ⟨_, rfl⟩
      · exact ⟨_, if_pos (.inr (.inr ⟨hl, .inr hr⟩))⟩

lemma Verdict.told_result (v : Verdict) (hl : Told S p.left)
    (hr : Told S p.right) : Told (fun τ => S τ ∧ v.Met τ p) (.anchored p.result) := by
  obtain ⟨l, hl⟩ := hl
  obtain ⟨r, hr⟩ := hr
  cases v with
  | scaleLeft => exact ⟨l, fun τ hτ => hτ.2.2.1.trans (hl τ hτ.1)⟩
  | scaleRight => exact ⟨r, fun τ hτ => hτ.2.2.2.1.trans (hr τ hτ.1)⟩
  | plain => exact ⟨l, fun τ hτ => hτ.2.2.1.trans (hl τ hτ.1)⟩

def AtOnce (S : Assignment → Prop) (ps : List Pending) : Prop := (roundOf S ps).1 = []

/-- What is left of `S` after the first round. -/
noncomputable abbrev After (S : Assignment → Prop) (ps : List Pending) : Assignment → Prop :=
  Kept S (roundOf S ps).2

lemma after_append (ps qs : List Pending) : After S (ps ++ qs) = After (After S ps) qs := by
  unfold After
  rw [roundOf_append, kept_kept]

lemma AtOnce.append {ps qs : List Pending} (hp : AtOnce S ps) (hq : AtOnce (After S ps) qs) :
    AtOnce S (ps ++ qs) := by
  unfold AtOnce at hp hq ⊢
  rw [roundOf_append, hp, hq]
  rfl

lemma Told.after (h : Told S o) (ps : List Pending) : Told (After S ps) o :=
  h.mono fun _ => And.left

lemma atOnce_singleton (hl : Told S p.left) (hr : Told S p.right) :
    AtOnce S [p] ∧ Told (After S [p]) (.anchored p.result) := by
  obtain ⟨v, hv⟩ := exists_judge hl hr
  have hround : roundOf S [p] = ([], [(p, v)]) := by simp only [roundOf, hv]
  unfold AtOnce After
  rw [hround, ← kept_cons, kept_nil]
  exact ⟨rfl, v.told_result hl hr⟩

mutual

lemma atOnce_products (e : Expr) {S : Assignment → Prop} {k : Nat}
    (hwf : e.WellFormed table V) (hV : ∀ v, V v → Told S (.anchored v)) :
    AtOnce S (sketched table e k).1.products ∧
      Told (After S (sketched table e k).1.products) (sketched table e k).1.operand := by
  have known (S : Assignment → Prop) (tv : TypeVar) : Told S (.known tv) := ⟨_, fun _ _ => rfl⟩
  match e with
  | .lit _ v => exact ⟨rfl, known _ _⟩
  | .var _ v => exact ⟨rfl, (hV v hwf).after []⟩
  | .unary _ _ x => exact atOnce_products x hwf.2 hV
  | .swizzle _ _ x => exact ⟨(atOnce_products x hwf.2.2 hV).1, known _ _⟩
  | .binary _ op x y =>
    simp only [sketched, sketched_snd, products, operand]
    obtain ⟨hx, htx⟩ := atOnce_products x hwf.2.1 hV
    obtain ⟨hy, hty⟩ := atOnce_products y hwf.2.2
      fun v hv => (hV v hv).after (sketched table x k).1.products
    have htx := htx.after (sketched table y (k + numProducts x)).1.products
    rw [← after_append] at htx hty
    by_cases h : op = .mul ∨ op = .div
    · rw [resultOperand_of_product h, product, if_pos h]
      obtain ⟨hlast, htold⟩ := atOnce_singleton (p := ⟨_, op, _, _, _, _, _⟩) htx hty
      rw [after_append]
      exact ⟨(hx.append hy).append hlast, htold⟩
    · have hnone (o : Operand) : product ‹_› op (sketched table x k).1
          (sketched table y (k + numProducts x)).1 o = [] := by
        unfold product
        split
        · rw [if_neg h]
        · rfl
      rw [hnone, append_nil, resultOperand_of_not h]
      refine ⟨hx.append hy, ?_⟩
      split
      · exact known _ _
      · exact htx.joined hty
  | .call _ _ es => exact ⟨atOnce_productsAll es hwf.2 hV, known _ _⟩
  | .pack _ _ es => exact ⟨atOnce_productsAll es hwf.2.2 hV, known _ _⟩

lemma atOnce_productsAll (es : List Expr) {S : Assignment → Prop} {k : Nat}
    (hwf : AllWellFormed table V es) (hV : ∀ v, V v → Told S (.anchored v)) :
    AtOnce S (productsAll (sketchedAll table es k).1) := by
  match es with
  | [] => rfl
  | e :: es =>
    simp only [sketchedAll, sketched_snd, productsAll]
    exact (atOnce_products e hwf.1 hV).1.append
      (atOnce_productsAll es hwf.2 fun v hv => (hV v hv).after _)

end

/-! ## Constants -/

def constSketches (table : SymbolTable) (cs : List Const) (k : Nat) : List ConstSketch :=
  (cs.mapM (sketchedConst table) k).1

/-- The sketches of the constants of a program, which stand before its functions. -/
abbrev constsOf (table : SymbolTable) (cs : List Const) : List ConstSketch :=
  constSketches table cs table.numVars

def constProducts (ks : List ConstSketch) : List Pending := ks.flatMap (·.value.products)

lemma constSketches_cons (c : Const) (cs : List Const) (k : Nat) : constSketches table (c :: cs) k =
      ⟨c.var, (sketched table c.value k).1, c.span⟩ ::
        constSketches table cs (k + numProducts c.value) := by
  simp only [constSketches, mapM_cons, run_bind, run_pure, sketchedConst, sketched_snd]

def constSize (cs : List Const) : Nat := (cs.map fun c => numProducts c.value).sum

lemma sketchedConsts_snd (cs : List Const) (k : Nat) :
    (cs.mapM (sketchedConst table) k).2 = k + constSize cs := by
  induction cs generalizing k with
  | nil => rfl
  | cons c cs ih =>
    simp only [mapM_cons, run_bind, run_pure, sketchedConst, sketched_snd, ih, constSize,
      map_cons, sum_cons, Nat.add_assoc]

variable {k : Nat}

lemma atOnce_consts (cs : List Const) {S : Assignment → Prop} {seen : List VarId}
    (hwf : ConstsWellFormed table seen cs)
    (hseen : ∀ v ∈ seen, Told S (.anchored v))
    (hS : ∀ τ, S τ → ∀ x ∈ constSketches table cs k, x.Agrees table True τ) :
    AtOnce S (constProducts (constSketches table cs k)) ∧
      ∀ c ∈ cs, Told (After S (constProducts (constSketches table cs k))) (.anchored c.var) := by
  induction cs generalizing S seen k with
  | nil => exact ⟨rfl, forall_mem_nil _⟩
  | cons c cs ih =>
    rw [constSketches_cons] at hS ⊢
    obtain ⟨hone, htold⟩ := atOnce_products c.value hwf.1 hseen
    have hvar : Told (After S (sketched table c.value k).1.products) (.anchored c.var) := by
      obtain ⟨m, hm⟩ := htold
      refine ⟨m, fun τ hτ => ?_⟩
      exact (hS τ hτ.1 _ mem_cons_self).2.2.trans (hm τ hτ)
    obtain ⟨hrest, hall⟩ := ih hwf.2 (forall_mem_cons.2 ⟨hvar, fun v hv => (hseen v hv).after _⟩)
      fun τ hτ x hx => hS τ hτ.1 x (mem_cons_of_mem _ hx)
    rw [constProducts, flatMap_cons, after_append]
    exact ⟨hone.append hrest, forall_mem_cons.2 ⟨hvar.after _, hall⟩⟩

lemma mem_constSketches (cs : List Const) {x : ConstSketch} (hx : x ∈ constSketches table cs k) :
    ∃ c ∈ cs, ∃ k' : Nat, x = ⟨c.var, (sketched table c.value k').1, c.span⟩ ∧ k ≤ k' ∧
      k' + numProducts c.value ≤ k + constSize cs := by
  induction cs generalizing k with
  | nil => cases hx
  | cons c cs ih =>
    rw [constSketches_cons] at hx
    rw [constSize, map_cons, sum_cons]
    rcases mem_cons.1 hx with rfl | hx
    · exact ⟨c, mem_cons_self, k, rfl, Nat.le_refl k, by omega⟩
    · obtain ⟨c', hc', k', rfl, hlo, hhi⟩ := ih hx
      rw [constSize] at hhi
      exact ⟨c', mem_cons_of_mem _ hc', k', rfl, by omega, by omega⟩

lemma mem_of_mem_log (ps : List Pending) {S : Assignment → Prop} {q : Pending × Verdict}
    (hq : q ∈ (roundOf S ps).2) : q.1 ∈ ps :=
  (roundOf_perm ps).subset (mem_append_right _ (mem_map_of_mem hq))

lemma Operand.Over.toLocal {P W : VarId → Prop} (h : o.Over P)
    (hP : ∀ v, P v → W v ∨ Told S (.anchored v)) : o.Local S W := by
  cases o with
  | known tv => trivial
  | anchored v => exact hP v h

/-! ## Functions at their places -/

def Owned (table : SymbolTable) (f : Func) (v : VarId) : Prop :=
  (∃ sym, table.fun? f.id = some sym ∧ v ∈ sym.params) ∨ v ∈ (letsAll f.body).map Prod.fst

abbrev Site := Func × Nat

/-- The variables of a function and those of its results. -/
def Site.Holds (table : SymbolTable) (x : Site) (v : VarId) : Prop :=
  Owned table x.1 v ∨ (x.2 ≤ v ∧ v < x.2 + size x.1.body)

def Site.owns (x : Site) (p : Pending) : Bool :=
  decide (x.2 ≤ p.result ∧ p.result < x.2 + size x.1.body)

def Site.sketch (table : SymbolTable) (x : Site) : FuncSketch :=
  ⟨x.1, (sketchedStmts table x.1.body x.2).1⟩

def Sol (table : SymbolTable) (ks : List ConstSketch) (xs : List Site) (τ : Assignment) : Prop :=
  τ.Proper ∧ ModuleAgrees table (ks, xs.map (Site.sketch table)) True τ

def siteProducts (table : SymbolTable) (xs : List Site) : List Pending :=
  xs.flatMap fun x => stmtProducts (x.sketch table).body

/-- The assignments that are left when all operations are settled. -/
noncomputable def Left (table : SymbolTable) (ks : List ConstSketch) (xs : List Site) :
    Assignment → Prop :=
  Kept (Sol table ks xs) (settleLog (Sol table ks xs) (constProducts ks ++ siteProducts table xs))

lemma over_of_fits {f : Func} {consts : List VarId} (hf : f.Fits table consts)
    (he : ∀ e ∈ exprsAll f.body, CallsEvident table K e) :
    Over table K (Owned table f) (fun v => Owned table f v ∨ v ∈ consts) f.body := by
  obtain ⟨lo, -, -, sym, hsym, -, -, hscoped⟩ := hf
  have hlets := map_fst_letsAll f.body hscoped
  have hover : AllObey (.over (Owned table f)
      fun e => e.WellFormed table fun v => Owned table f v ∨ v ∈ consts) f.body := by
    refine hscoped.over (fun {V e} hV he => ?_) f.body (fun v hv => .inl ⟨sym, hsym, hv⟩)
      fun v hlo hhi => .inr ?_
    · exact he.mono (fun _ _ => id) (fun v hv => hv.imp_left (hV v)) e
    · rw [hlets, mem_range'_1]
      exact ⟨hlo, hhi⟩
  refine AllObey.mono ?_ f.body (hover.and f.body ((allObey_all f.body).2 he))
  exact ⟨fun h => ⟨h.1.1, h.1.2, h.2⟩, id, fun h x hx => ⟨h.1 x hx, h.2 x hx⟩, id⟩

/-- Functions at places where they do not get in each other's way or in that of constants. -/
structure Laid (table : SymbolTable) (K : VarId → Prop) (cs : List Const)
    (xs : List Site) : Prop where
  consts : ConstsWellFormed table [] cs
  constsEvident : ∀ c ∈ cs, CallsEvident table K c.value
  params : ParamsGrounded table K
  fits : ∀ x ∈ xs, x.1.Fits table (cs.map (·.var))
  evident : ∀ x ∈ xs, ∀ e ∈ exprsAll x.1.body, CallsEvident table K e
  lets : ∀ x ∈ xs, ∀ b ∈ letsAll x.1.body, Grounds table K b
  apart : ∀ x ∈ xs, ∀ y ∈ xs, x = y ∨ ∀ v, x.Holds table v → ¬ y.Holds table v
  aside : ∀ x ∈ xs, ∀ v : Nat, x.Holds table v →
    v ∉ cs.map (·.var) ∧ (v < table.numVars ∨ table.numVars + constSize cs ≤ v)

variable {x y : Site} {ys : List Site}

namespace Laid

variable {cs : List Const} {xs : List Site}

/-- What is left when constants are settled. -/
noncomputable abbrev base (table : SymbolTable) (cs : List Const) (xs : List Site) :
    Assignment → Prop :=
  After (Sol table (constsOf table cs) xs)
    (constProducts (constsOf table cs))

lemma atOnce (h : Laid table K cs xs) : AtOnce (Sol table (constsOf table cs) xs)
      (constProducts (constsOf table cs)) ∧
      ∀ c ∈ cs, Told (base table cs xs) (.anchored c.var) :=
  atOnce_consts cs h.consts (forall_mem_nil _) fun _ hτ => hτ.2.2.1

lemma told_const (h : Laid table K cs xs) {v : VarId} (hv : v ∈ cs.map (·.var)) :
    Told (base table cs xs) (.anchored v) := by
  obtain ⟨c, hc, rfl⟩ := mem_map.1 hv
  exact h.atOnce.2 c hc

lemma told_param {id : FunId} {f : Fun} {p : VarId} (hf : table.fun? id = some f)
    (hp : p ∈ f.params) (hstated : Stated table p) : Told (base table cs xs) (.anchored p) := by
  obtain ⟨var, hvar, hd⟩ := hstated
  refine ⟨some var.declared, fun τ hτ => ?_⟩
  have hmem := hτ.1.2.1 f (Array.mem_toList_iff.2 (Array.mem_of_getElem? hf)) p hp var hvar
  rw [Var.seed, if_neg hd, members_exact_eq hd] at hmem
  exact mem_singleton.1 hmem

section

variable (h : Laid table K cs xs)
include h

lemma told_owned (hx : x ∈ xs) {v : VarId}
    (hv : Owned table x.1 v ∨ v ∈ cs.map (·.var)) (hK : K v) :
    Told (base table cs xs) (.anchored v) := by
  rcases hv with (⟨sym, hsym, hp⟩ | hlet) | hc
  · exact told_param hsym hp (h.params sym (Array.mem_of_getElem? hsym) v hp hK)
  · obtain ⟨b, hb, rfl⟩ := mem_map.1 hlet
    obtain ⟨lo, -, -, sym, hsym, -, -, hscoped⟩ := h.fits x hx
    refine told_letsAll x.1.body hscoped (h.lets x hx) (fun v hv hK => ?_)
      (fun τ hτ => hτ.1.2.2.2 _ (mem_map_of_mem hx) sym hsym) b hb hK
    rcases hv with hv | hv
    · exact told_param hsym hv (h.params sym (Array.mem_of_getElem? hsym) v hv hK)
    · exact h.told_const hv
  · exact h.told_const hc

lemma body_over (hx : x ∈ xs) :
    Over table K (Owned table x.1) (fun v => Owned table x.1 v ∨ v ∈ cs.map (·.var)) x.1.body :=
  over_of_fits (h.fits x hx) (h.evident x hx)

lemma products_over (hx : x ∈ xs) : ∀ p ∈ stmtProducts (x.sketch table).body,
      p.Over (fun v => x.Holds table v ∨ v ∈ cs.map (·.var))
        (fun v => x.2 ≤ v ∧ v < x.2 + size x.1.body) :=
  stmtProducts_over (h.body_over hx) (fun _ hv => hv.imp_left .inl)
    fun _ hlo hhi => ⟨.inl (.inr ⟨hlo, hhi⟩), hlo, hhi⟩

lemma wellFormed_const {c : Const} (hc : c ∈ cs) :
    c.value.WellFormed table (· ∈ cs.map (·.var)) :=
  wellFormed_of_consts h.consts (forall_mem_nil _) (fun _ hc => mem_map_of_mem hc) hc

lemma constProducts_over : ∀ p ∈ constProducts (constsOf table cs),
      p.Over (fun v : Nat => v ∈ cs.map (·.var) ∨
          (table.numVars ≤ v ∧ v < table.numVars + constSize cs))
        (fun v : Nat => table.numVars ≤ v ∧ v < table.numVars + constSize cs) := by
  intro p hp
  obtain ⟨k, hk, hp⟩ := mem_flatMap.1 hp
  obtain ⟨c, hc, k', rfl, hlo, hhi⟩ := mem_constSketches cs hk
  exact Typing.products_over c.value (h.wellFormed_const hc) (fun _ => .inl)
    (fun v hv hv' => ⟨.inr ⟨by omega, by omega⟩, by omega, by omega⟩) p hp

/-- The assignments that are left when constants are settled can be put together from what they
are on the variables of a function and what they are elsewhere. -/
lemma splits (hx : x ∈ xs) : Splits (x.Holds table) (base table cs xs) := by
  intro τ σ hτ hσ
  set ρ := mix (x.Holds table) τ σ
  obtain ⟨⟨hproper, hparams, hconsts, hfuncs⟩, hlog⟩ := hτ
  obtain ⟨⟨hproper', hparams', hconsts', hfuncs'⟩, hlog'⟩ := hσ
  have hτ : base table cs xs τ := ⟨⟨hproper, hparams, hconsts, hfuncs⟩, hlog⟩
  have hσ : base table cs xs σ := ⟨⟨hproper', hparams', hconsts', hfuncs'⟩, hlog'⟩
  have same {v : VarId} (hv : Told (base table cs xs) (.anchored v)) : τ v = σ v := by
    obtain ⟨m, hm⟩ := hv
    exact (hm τ hτ).trans (hm σ hσ).symm
  -- on every variable the mixture is one of the two
  have hmix (v : VarId) : ρ v = τ v ∨ ρ v = σ v := by
    by_cases hv : x.Holds table v
    · exact .inl (sameOn_mix v hv)
    · exact .inr (sameOn_mix_right v hv)
  have hconst {v : VarId} (hv : v ∈ cs.map (·.var)) : ρ v = σ v :=
    sameOn_mix_right v fun hx' => (h.aside x hx v hx').1 hv
  have htemp {v : Nat} (hlo : table.numVars ≤ v) (hhi : v < table.numVars + constSize cs) :
      ρ v = σ v :=
    sameOn_mix_right v fun hx' => by
      rcases (h.aside x hx v hx').2 with hv | hv <;> omega
  have hother {V : VarId → Prop} (hV : ∀ v, V v → ρ v = σ v)
      (hK : ∀ v, V v → K v → τ v = σ v) : Mixes table K V σ τ ρ :=
    ⟨hV, fun v hv hk => (hK v hv hk).symm, fun id f hf p hp =>
      ⟨(hmix p).symm, fun hs => (same (told_param hf hp hs)).symm⟩⟩
  refine ⟨⟨fun v => ?_, fun f hf p hp var hvar => ?_, fun k hk => ?_, fun k hk => ?_⟩, ?_⟩
  · rcases hmix v with hv | hv
    · exact hv ▸ hproper v
    · exact hv ▸ hproper' v
  · rcases hmix p with hv | hv
    · exact hv ▸ hparams f hf p hp var hvar
    · exact hv ▸ hparams' f hf p hp var hvar
  · obtain ⟨hadm, hagree, heq⟩ := hconsts' k hk
    have hagree' := (hconsts k hk).2.1
    obtain ⟨c, hc, k', rfl, hlo, hhi⟩ := mem_constSketches cs hk
    have hvar := hconst (mem_map_of_mem hc)
    have hwf := h.wellFormed_const hc
    have hk' : ∀ v : Nat, k' ≤ v → v < k' + numProducts c.value →
        ρ v = σ v := fun v hv hv' => htemp (by omega) (by omega)
    refine ⟨fun var hv => ?_, ?_, ?_⟩
    · rw [hvar]
      exact hadm var hv
    · exact agrees_mix c.value hwf (h.constsEvident c hc)
        (hother (fun v => hconst) fun v hv _ => same (h.told_const hv)) hk' hagree hagree'
    · rw [hvar, (operand_over c.value hwf (fun v => hconst) hk').at_eq fun _ => id]
      exact heq
  · obtain ⟨y, hy, rfl⟩ := mem_map.1 hk
    intro sym hsym
    have hagree := hfuncs _ (mem_map_of_mem hy) sym hsym
    have hagree' := hfuncs' _ (mem_map_of_mem hy) sym hsym
    rcases h.apart x hx y hy with rfl | hapart
    · have hown {v : VarId} (hv : Owned table x.1 v ∨ v ∈ cs.map (·.var)) :
          ρ v = τ v := by
        rcases hv with hv | hv
        · exact sameOn_mix v (.inl hv)
        · exact (hconst hv).trans (same (h.told_const hv)).symm
      refine obeys_mix (h.body_over hx) (fun v => .inl) ⟨fun v => hown, fun v hv hK => ?_,
        fun id f hf p hp => ?_⟩ (fun v hlo hhi => ?_) hagree hagree'
      · exact same (h.told_owned hx hv hK)
      · exact ⟨hmix p, fun hs => same (told_param hf hp hs)⟩
      · exact sameOn_mix v (.inr ⟨hlo, hhi⟩)
    · refine obeys_mix (h.body_over hy) (fun v => .inl) (hother (fun v hv => ?_) fun v hv hK => ?_)
        (fun v hlo hhi => ?_) hagree' hagree
      · rcases hv with hv | hv
        · exact sameOn_mix_right v fun hx' => hapart v hx' (.inl hv)
        · exact hconst hv
      · exact same (h.told_owned hy hv hK)
      · exact sameOn_mix_right v fun hx' => hapart v hx' (.inr ⟨hlo, hhi⟩)
  · intro q hq
    have hp := h.constProducts_over q.1 (mem_of_mem_log _ hq)
    refine (hlog' q hq).congr (S := fun _ => True) (W := fun v => ρ v = σ v)
      ?_ trivial trivial fun v hv => hv.symm
    refine ⟨hp.left.toLocal fun v hv => .inl ?_, hp.right.toLocal fun v hv => .inl ?_, .inl ?_⟩
    · exact hv.elim hconst fun hv => htemp hv.1 hv.2
    · exact hv.elim hconst fun hv => htemp hv.1 hv.2
    · exact htemp hp.result.1 hp.result.2

lemma owns_eq_true_iff (hx : x ∈ xs) (hy : y ∈ xs)
    (hp : p ∈ stmtProducts (y.sketch table).body) : x.owns p = true ↔ x = y := by
  have hresult := (h.products_over hy p hp).result
  rw [Site.owns, decide_eq_true_iff]
  constructor
  · intro hown
    exact (h.apart x hx y hy).resolve_right fun hapart => hapart p.result (.inr hown) (.inr hresult)
  · rintro rfl
    exact hresult

lemma parted (hx : x ∈ xs) (hys : ∀ y ∈ ys, y ∈ xs) :
    Parted x.owns (x.Holds table) (base table cs xs) (base table cs xs)
      (siteProducts table ys) := by
  intro p hp
  obtain ⟨y, hy, hp⟩ := mem_flatMap.1 hp
  have hover := h.products_over (hys y hy) p hp
  constructor
  · intro hown
    obtain rfl := (h.owns_eq_true_iff hx (hys y hy) hp).1 hown
    refine ⟨hover.left.toLocal fun v hv => ?_, hover.right.toLocal fun v hv => ?_,
      .inl (.inr hover.result)⟩
    · exact hv.imp_right h.told_const
    · exact hv.imp_right h.told_const
  · intro hown
    have hne : ¬ x = y := fun heq => by
      rw [(h.owns_eq_true_iff hx (hys y hy) hp).2 heq] at hown
      cases hown
    have hapart := (h.apart x hx y (hys y hy)).resolve_left hne
    have hout {v : VarId} (hv : y.Holds table v ∨ v ∈ cs.map (·.var)) : ¬ x.Holds table v :=
      fun hx' => hv.elim (hapart v hx') (h.aside x hx v hx').1
    exact ⟨hover.left.toLocal fun v hv => .inl (hout hv),
      hover.right.toLocal fun v hv => .inl (hout hv), .inl (hout (.inl (.inr hover.result)))⟩

lemma filter_owns (hx : x ∈ xs) (hy : y ∈ xs)
    (hne : x ≠ y) : (stmtProducts (y.sketch table).body).filter x.owns = [] := by
  refine filter_eq_nil_iff.2 fun p hp hown => ?_
  exact hne ((h.owns_eq_true_iff hx hy hp).1 hown)

lemma filter_not_owns (hx : x ∈ xs) :
    (stmtProducts (x.sketch table).body).filter (!x.owns ·) = [] := by
  refine filter_eq_nil_iff.2 fun p hp hown => ?_
  rw [(h.owns_eq_true_iff hx hx hp).2 rfl] at hown
  cases hown

lemma left_eq : Left table (constsOf table cs) xs =
      Kept (base table cs xs) (settleLog (base table cs xs) (siteProducts table xs)) := by
  unfold Left
  rw [settleLog_append h.atOnce.1, ← kept_kept]

end

end Laid

lemma sol_congr {ks : List ConstSketch} {xs : List Site} (h : ∀ x, x ∈ xs ↔ x ∈ ys) :
    Sol table ks xs = Sol table ks ys := by
  funext τ
  simp only [Sol, ModuleAgrees, forall_mem_map, h]

lemma flatMap_swap {α β : Type} {g : α → List β} {x y : α} (A B : List α)
    (h : g x = [] ∨ g y = []) : (A ++ x :: y :: B).flatMap g = (A ++ y :: x :: B).flatMap g := by
  simp only [flatMap_append, flatMap_cons]
  rcases h with h | h <;> simp [h]

lemma left_swap {cs : List Const} {A B : List Site} (h : Laid table K cs (A ++ x :: y :: B))
    (hne : ∃ τ, Left table (constsOf table cs) (A ++ x :: y :: B) τ) :
    Left table (constsOf table cs) (A ++ y :: x :: B) =
      Left table (constsOf table cs) (A ++ x :: y :: B) := by
  by_cases heq : x = y
  · rw [heq]
  have hperm : (A ++ y :: x :: B).Perm (A ++ x :: y :: B) := (List.Perm.swap x y B).append_left A
  have hsol : Sol table (constsOf table cs) (A ++ y :: x :: B) =
      Sol table (constsOf table cs) (A ++ x :: y :: B) :=
    sol_congr fun _ => hperm.mem_iff
  have hx : x ∈ A ++ x :: y :: B := mem_append_right _ mem_cons_self
  have hy : y ∈ A ++ x :: y :: B := mem_append_right _ (mem_cons_of_mem _ mem_cons_self)
  have hleft : Left table (constsOf table cs) (A ++ y :: x :: B) =
      Kept (Laid.base table cs (A ++ x :: y :: B))
        (settleLog (Laid.base table cs (A ++ x :: y :: B)) (siteProducts table (A ++ y :: x :: B))) := by
    unfold Left
    rw [hsol, settleLog_append h.atOnce.1, ← kept_kept]
  rw [h.left_eq] at hne ⊢
  rw [hleft]
  refine kept_settleLog_congr (h.splits hx) (h.parted hx fun _ => id)
    (h.parted hx fun z hz => hperm.mem_iff.1 hz) ?_ ?_ hne
  · simp only [siteProducts, filter_flatMap]
    exact flatMap_swap A B (.inr (h.filter_owns hx hy heq))
  · simp only [siteProducts, filter_flatMap]
    exact flatMap_swap A B (.inl (h.filter_not_owns hx))

/-! ## Other places -/

def places : Nat → List Func → List Site
  | _, [] => []
  | k, f :: fs => (f, k) :: places (k + size f.body) fs

def sizeAll (fs : List Func) : Nat := (fs.map fun f => size f.body).sum

lemma places_append (k : Nat) (fs gs : List Func) :
    places k (fs ++ gs) = places k fs ++ places (k + sizeAll fs) gs := by
  induction fs generalizing k with
  | nil => rfl
  | cons f fs ih =>
    rw [cons_append, places, places, ih, sizeAll, sizeAll, map_cons, sum_cons, Nat.add_assoc]
    rfl

lemma sketchedFuncs_eq (fs : List Func) (k : Nat) :
    (fs.mapM (sketchedFunc table) k).1 = (places k fs).map (Site.sketch table) := by
  induction fs generalizing k with
  | nil => rfl
  | cons f fs ih =>
    simp only [mapM_cons, run_bind, run_pure, sketchedFunc, sketchedStmts_snd, ih, places,
      map_cons, Site.sketch]

lemma mem_places {fs : List Func} (hx : x ∈ places k fs) :
    x.1 ∈ fs ∧ k ≤ x.2 ∧ x.2 + size x.1.body ≤ k + sizeAll fs := by
  induction fs generalizing k with
  | nil => cases hx
  | cons f fs ih =>
    rw [sizeAll, map_cons, sum_cons]
    rcases mem_cons.1 hx with rfl | hx
    · exact ⟨mem_cons_self, Nat.le_refl _, by dsimp only; omega⟩
    · obtain ⟨hmem, hlo, hhi⟩ := ih hx
      rw [sizeAll] at hhi
      exact ⟨mem_cons_of_mem _ hmem, by omega, by omega⟩

structure Orderly (table : SymbolTable) (K : VarId → Prop) (cs : List Const)
    (fs : List Func) : Prop where
  consts : ConstsWellFormed table [] cs
  constsEvident : ∀ c ∈ cs, CallsEvident table K c.value
  constsHas : ∀ c ∈ cs, c.var < table.numVars
  params : ParamsGrounded table K
  paramsHas : ∀ id f, table.fun? id = some f → ∀ p ∈ f.params, p < table.numVars
  fits : ∀ f ∈ fs, f.Fits table (cs.map (·.var))
  evident : ∀ f ∈ fs, ∀ e ∈ exprsAll f.body, CallsEvident table K e
  lets : ∀ f ∈ fs, ∀ b ∈ letsAll f.body, Grounds table K b
  apart : fs.Pairwise fun f g => ∀ v, Owned table f v → ¬ Owned table g v
  aside : ∀ f ∈ fs, ∀ v, Owned table f v → v ∉ cs.map (·.var) ∧ v < table.numVars

namespace Orderly

variable {cs : List Const} {fs gs : List Func}

lemma perm (h : Orderly table K cs fs) (hp : fs.Perm gs) : Orderly table K cs gs where
  consts := h.consts
  constsEvident := h.constsEvident
  constsHas := h.constsHas
  params := h.params
  paramsHas := h.paramsHas
  fits f hf := h.fits f (hp.mem_iff.2 hf)
  evident f hf := h.evident f (hp.mem_iff.2 hf)
  lets f hf := h.lets f (hp.mem_iff.2 hf)
  apart := (hp.pairwise_iff fun {_ _} h v hv hv' => h v hv' hv).1 h.apart
  aside f hf := h.aside f (hp.mem_iff.2 hf)

lemma apart_places (fs : List Func)
    (happart : fs.Pairwise fun f g => ∀ v, Owned table f v → ¬ Owned table g v)
    (howned : ∀ f ∈ fs, ∀ v, Owned table f v → v < table.numVars) (hk : table.numVars ≤ k) :
    (places k fs).Pairwise fun x y => ∀ v, x.Holds table v → ¬ y.Holds table v := by
  induction fs generalizing k with
  | nil => exact .nil
  | cons f fs ih =>
    obtain ⟨hf, hfs⟩ := pairwise_cons.1 happart
    refine pairwise_cons.2 ⟨fun y hy v hv hv' => ?_, ih hfs
      (fun g hg => howned g (mem_cons_of_mem _ hg)) (Nat.le_add_right_of_le hk)⟩
    obtain ⟨hmem, hlo, -⟩ := mem_places hy
    have hle : table.numVars ≤ y.2 := by omega
    rcases hv with hv | hv <;> rcases hv' with hv' | hv'
    · exact hf y.1 hmem v hv hv'
    · have := howned f mem_cons_self v hv
      exact absurd this (Nat.not_lt.2 (Nat.le_trans hle hv'.1))
    · have := howned y.1 (mem_cons_of_mem _ hmem) v hv'
      exact absurd this (Nat.not_lt.2 (Nat.le_trans hk hv.1))
    · exact absurd (Nat.lt_of_lt_of_le hv.2 hlo) (Nat.not_lt.2 hv'.1)

lemma laid (h : Orderly table K cs fs) :
    Laid table K cs (places (table.numVars + constSize cs) fs) where
  consts := h.consts
  constsEvident := h.constsEvident
  params := h.params
  fits x hx := h.fits x.1 (mem_places hx).1
  evident x hx := h.evident x.1 (mem_places hx).1
  lets x hx := h.lets x.1 (mem_places hx).1
  apart x hx y hy := by
    by_cases heq : x = y
    · exact .inl heq
    · have hpair := apart_places fs h.apart (fun f hf v hv => (h.aside f hf v hv).2)
        (Nat.le_add_right table.numVars (constSize cs))
      have : Std.Symm fun x y : Site => ∀ v, x.Holds table v → ¬ y.Holds table v :=
        ⟨fun _ _ h v hv hv' => h v hv' hv⟩
      exact .inr (hpair.forall hx hy heq)
  aside x hx v hv := by
    obtain ⟨hmem, hlo, -⟩ := mem_places hx
    rcases hv with hv | hv
    · obtain ⟨hc, hlt⟩ := h.aside x.1 hmem v hv
      exact ⟨hc, .inl hlt⟩
    · refine ⟨fun hc => ?_, .inr (Nat.le_trans hlo hv.1)⟩
      obtain ⟨c, hc', rfl⟩ := mem_map.1 hc
      exact absurd (h.constsHas c hc') (Nat.not_lt.2
        (Nat.le_trans (Nat.le_add_right _ _) (Nat.le_trans hlo hv.1)))

end Orderly

section Rename

variable {π π' : VarId → VarId} {cs : List Const}

/-- The renaming takes the numbers of a function at one place to those at another. -/
def Moves (π : VarId → VarId) (x y : Site) : Prop :=
  y.1 = x.1 ∧ ∀ i < size x.1.body, π (x.2 + i) = y.2 + i

lemma map_eq_of_forall₂ {α β γ : Type} {R : α → β → Prop} {f : α → γ} {g : β → γ} {xs : List α}
    {ys : List β} (h : List.Forall₂ R xs ys) (hfg : ∀ x ∈ xs, ∀ y, R x y → g y = f x) :
    ys.map g = xs.map f := by
  induction h with
  | nil => rfl
  | cons hxy _ ih =>
    rw [map_cons, map_cons, hfg _ mem_cons_self _ hxy, ih fun x hx => hfg x (mem_cons_of_mem _ hx)]

lemma constSketches_rename (hwf : ConstsWellFormed table [] cs)
    (hcs : ∀ c ∈ cs, π c.var = c.var) (hk : ∀ v : Nat, v < k + constSize cs → π v = v) :
    ∀ x ∈ constSketches table cs k, x.value.rename π = x.value ∧ π x.var = x.var := by
  intro x hx
  obtain ⟨c, hc, k', rfl, -, hhi⟩ := mem_constSketches cs hx
  have hwf : c.value.WellFormed table (fun v => π v = v) :=
    wellFormed_of_consts hwf (forall_mem_nil _) hcs hc
  exact ⟨(sketched_rename c.value hwf (fun _ => id) fun i hi => hk _ (by omega)).symm, hcs c hc⟩

lemma sketch_of_moves (hx : Over table K (Owned table x.1)
      (fun v => Owned table x.1 v ∨ v ∈ cs.map (·.var)) x.1.body)
    (hV : ∀ v, Owned table x.1 v ∨ v ∈ cs.map (·.var) → π v = v) (hm : Moves π x y) :
    y.sketch table = ⟨x.1, mapList (rename π) (x.sketch table).body⟩ := by
  rw [Site.sketch, hm.1, sketchedStmts_rename hx hV hm.2]
  rfl

lemma left_rename {xs : List Site} (hxs : Laid table K cs xs)
    (hπ : LeftInverse π' π) (hπ' : RightInverse π' π) (hP : FixesParams table π)
    (hown : ∀ x ∈ xs, ∀ v, Owned table x.1 v → π v = v) (hcs : ∀ c ∈ cs, π c.var = c.var)
    (hk : ∀ v : Nat, v < table.numVars + constSize cs → π v = v)
    (hmoves : List.Forall₂ (Moves π) xs ys) :
    Left table (constsOf table cs) ys =
      fun τ => Left table (constsOf table cs) xs (τ ∘ π) := by
  have hconsts := constSketches_rename hxs.consts hcs hk
  have hV {x : Site} (hx : x ∈ xs) (v : VarId) (hv : Owned table x.1 v ∨ v ∈ cs.map (·.var)) :
      π v = v := by
    rcases hv with hv | hv
    · exact hown x hx v hv
    · obtain ⟨c, hc, rfl⟩ := mem_map.1 hv
      exact hcs c hc
  have hsketch : ys.map (Site.sketch table) = xs.map fun x =>
      (⟨x.1, mapList (rename π) (x.sketch table).body⟩ : FuncSketch) :=
    map_eq_of_forall₂ hmoves fun x hx y hm => sketch_of_moves (hxs.body_over hx) (hV hx) hm
  have hsol : Sol table (constsOf table cs) ys =
      fun τ => Sol table (constsOf table cs) xs (τ ∘ π) := by
    funext τ
    unfold Sol ModuleAgrees
    rw [hsketch]
    refine propext (and_congr ?_ (and_congr ?_ (and_congr ?_ ?_)))
    · refine ⟨fun h v => h (π v), fun h v => ?_⟩
      have hv := h (π' v)
      rwa [comp, hπ'] at hv
    · refine forall₂_congr fun f hf => forall₂_congr fun p hp => ?_
      obtain ⟨id, hid⟩ := Array.getElem?_of_mem (Array.mem_toList_iff.1 hf)
      simp only [Admits, comp, hP id f hid p hp]
    · refine forall₂_congr fun x hx => ?_
      obtain ⟨hvalue, hvar⟩ := hconsts x hx
      have hagree : (x.value.rename π).Agrees table True τ ↔ x.value.Agrees table True (τ ∘ π) :=
        agrees_rename hP x.value
      have hat : x.value.operand.at τ = x.value.operand.at (τ ∘ π) := by
        rw [← Operand.at_rename, ← operand_rename, hvalue]
      rw [hvalue] at hagree
      simp only [ConstSketch.Agrees, agreement, Admits, hagree, hat]
      simp only [comp, hvar]
    · simp only [forall_mem_map]
      refine forall₂_congr fun x hx => forall₂_congr fun sym hsym => ?_
      exact agreement_rename hP (rooted_of_over (hxs.body_over hx) x.2) (hown x hx)
  have hconstProducts : (constProducts (constsOf table cs)).map
      (Pending.rename π) = constProducts (constsOf table cs) := by
    unfold constProducts
    rw [map_flatMap]
    refine flatMap_congr fun x hx => ?_
    rw [← products_rename, (hconsts x hx).1]
  have hproducts : siteProducts table ys = (siteProducts table xs).map (Pending.rename π) := by
    have hmap (zs : List Site) : siteProducts table zs =
        (zs.map (Site.sketch table)).flatMap fun k => stmtProducts k.body := by
      rw [flatMap_map]
      rfl
    rw [hmap, hsketch, flatMap_map, siteProducts, map_flatMap]
    refine flatMap_congr fun x _ => stmtProducts_rename _
  unfold Left
  rw [hsol, hproducts]
  nth_rewrite 1 [← hconstProducts]
  rw [← map_append, kept_settleLog_rename hπ]

end Rename

/-! ## Any order -/

section Perm

variable {cs : List Const}

/-- What is left of a program. -/
noncomputable abbrev LeftOf (table : SymbolTable) (cs : List Const)
    (fs : List Func) : Assignment → Prop :=
  Left table (constsOf table cs) (places (table.numVars + constSize cs) fs)

lemma Moves.refl_of_fixes {π : VarId → VarId}
    (h : ∀ v : Nat, x.2 ≤ v → v < x.2 + size x.1.body → π v = v) : Moves π x x :=
  ⟨rfl, fun _ hi => h _ (Nat.le_add_right _ _) (Nat.add_lt_add_left hi _)⟩

lemma left_neighbours {l r : List Func} {f g : Func}
    (h : Orderly table K cs (l ++ f :: g :: r)) {τ : Assignment}
    (hτ : LeftOf table cs (l ++ f :: g :: r) τ) :
    ∃ σ, LeftOf table cs (l ++ g :: f :: r) σ ∧ ∀ v < table.numVars, τ v = σ v := by
  have hlaid := h.laid
  have hown (x : Site) (hx : x ∈ places (table.numVars + constSize cs) (l ++ f :: g :: r))
      (v : VarId) (hv : Owned table x.1 v) : v < table.numVars :=
    (h.aside x.1 (mem_places hx).1 v hv).2
  unfold LeftOf at hτ ⊢
  simp only [places_append, places] at hlaid hown hτ ⊢
  rw [Nat.add_right_comm _ (size g.body)]
  generalize hk : table.numVars + constSize cs + sizeAll l = k at hlaid hown hτ ⊢
  have hbefore {x : Site} (hx : x ∈ places (table.numVars + constSize cs) l) :
      x.2 + size x.1.body ≤ k := hk ▸ (mem_places hx).2.2
  have hafter {x : Site} (hx : x ∈ places (k + size f.body + size g.body) r) :
      k + size f.body + size g.body ≤ x.2 := (mem_places hx).2.1
  generalize places (table.numVars + constSize cs) l = A at hlaid hown hτ hbefore ⊢
  generalize places (k + size f.body + size g.body) r = B at hlaid hown hτ hafter ⊢
  -- first in the order of the places, then with the numbers of the other places
  have hswap := left_swap hlaid ⟨τ, hτ⟩
  have hmem : ∀ x, x ∈ A ++ (g, k + size f.body) :: (f, k) :: B ↔
      x ∈ A ++ (f, k) :: (g, k + size f.body) :: B :=
    fun _ => ((List.Perm.swap _ _ B).append_left A).mem_iff
  have hlaid' : Laid table K cs (A ++ (g, k + size f.body) :: (f, k) :: B) :=
    ⟨hlaid.consts, hlaid.constsEvident, hlaid.params, fun x hx => hlaid.fits x ((hmem x).1 hx),
      fun x hx => hlaid.evident x ((hmem x).1 hx), fun x hx => hlaid.lets x ((hmem x).1 hx),
      fun x hx y hy => hlaid.apart x ((hmem x).1 hx) y ((hmem y).1 hy),
      fun x hx => hlaid.aside x ((hmem x).1 hx)⟩
  have hreal {v : Nat} (hv : v < table.numVars) :
      swapBlocks k (size f.body) (size g.body) v = v := swapBlocks_of_lt (by omega)
  have hmoves : List.Forall₂ (Moves (swapBlocks k (size f.body) (size g.body)))
      (A ++ (g, k + size f.body) :: (f, k) :: B)
      (A ++ (g, k) :: (f, k + size g.body) :: B) := by
    refine rel_append (forall₂_same.2 fun x hx => ?_) (.cons ?_ (.cons ?_
      (forall₂_same.2 fun x hx => ?_)))
    · exact .refl_of_fixes fun v _ hhi => swapBlocks_of_lt (Nat.lt_of_lt_of_le hhi (hbefore hx))
    · exact ⟨rfl, fun i hi => swapBlocks_second hi⟩
    · exact ⟨rfl, fun i hi => swapBlocks_first hi⟩
    · exact .refl_of_fixes fun v hlo _ => swapBlocks_of_ge (Nat.le_trans (hafter hx) hlo)
  have hrename := left_rename hlaid' (leftInverse_swapBlocks k (size f.body) (size g.body))
    (leftInverse_swapBlocks k (size g.body) (size f.body))
    (fun id sym hsym p hp => hreal (h.paramsHas id sym hsym p hp))
    (fun x hx v hv => hreal (hown x ((hmem x).1 hx) v hv))
    (fun c hc => hreal (h.constsHas c hc)) (fun v hv => swapBlocks_of_lt (by omega)) hmoves
  refine ⟨τ ∘ swapBlocks k (size g.body) (size f.body), ?_, fun v hv => ?_⟩
  · rw [hrename, hswap]
    dsimp only
    rw [comp_assoc, (leftInverse_swapBlocks k _ _).comp_eq_id, comp_id]
    exact hτ
  · rw [comp, swapBlocks_of_lt]
    omega

lemma left_perm {fs gs : List Func} (hp : fs.Perm gs) (h : Orderly table K cs fs)
    {τ : Assignment} (hτ : LeftOf table cs fs τ) :
    ∃ σ, LeftOf table cs gs σ ∧ ∀ v < table.numVars, τ v = σ v := by
  suffices main : ∀ l, Orderly table K cs (l ++ fs) → ∀ τ, LeftOf table cs (l ++ fs) τ →
      ∃ σ, LeftOf table cs (l ++ gs) σ ∧ ∀ v < table.numVars, τ v = σ v from main [] h τ hτ
  clear h hτ τ
  induction hp with
  | nil => exact fun l _ τ hτ => ⟨τ, hτ, fun _ _ => rfl⟩
  | cons f hp ih =>
    intro l h τ hτ
    rw [append_cons] at h hτ ⊢
    exact ih (l ++ [f]) h τ hτ
  | swap f g fs => exact fun l h τ hτ => left_neighbours h hτ
  | trans hp _ ih ih' =>
    intro l h τ hτ
    obtain ⟨σ, hσ, hsame⟩ := ih l h τ hτ
    obtain ⟨ρ, hρ, hsame'⟩ := ih' l (h.perm (hp.append_left l)) σ hσ
    exact ⟨ρ, hρ, fun v hv => (hsame v hv).trans (hsame' v hv)⟩

end Perm

end VecLang.Typing
