import VecLang.Proofs.Typing.Confluence

/-!
# What the demands of an expression are about

The sketch of an expression is about the variables of the expression and about as many further
variables as it has products and quotients. The demands of a body are about the variables of its
function alone, if the types of arguments are evident or those of parameters are declared: two
assignments that agree with a body can be mixed (`agrees_mix`).
-/

namespace VecLang.Typing

open Stateful Stmt List Resolved

variable {table : SymbolTable} {V P Q : VarId → Prop} {τ : Assignment}

/-! ## How many products there are -/

mutual

def numProducts : Expr → Nat
  | .lit _ _ => 0
  | .var _ _ => 0
  | .unary _ _ x => numProducts x
  | .binary _ op x y => numProducts x + numProducts y + if op = .mul ∨ op = .div then 1 else 0
  | .call _ _ args => numProductsAll args
  | .pack _ _ elems => numProductsAll elems
  | .swizzle _ _ x => numProducts x

def numProductsAll : List Expr → Nat
  | [] => 0
  | x :: xs => numProducts x + numProductsAll xs

end

lemma resultOperand_of_product {op : BinaryOp} (h : op = .mul ∨ op = .div) (l r : Operand)
    (k : Nat) : resultOperand op l r k = (.anchored k, k + 1) := by
  rcases h with rfl | rfl <;> rfl

lemma resultOperand_of_not {op : BinaryOp} (h : ¬ (op = .mul ∨ op = .div)) (l r : Operand)
    (k : Nat) : resultOperand op l r k =
      (if op.isLogic || op.isRel then .known (.exact .bool) else l.joined r, k) := by
  unfold resultOperand
  rw [if_neg h]
  split <;> rfl

mutual

lemma sketched_snd (e : Expr) (k : VarId) : (sketched table e k).2 = k + numProducts e := by
  match e with
  | .lit _ _ | .var _ _ => rfl
  | .unary _ _ x | .swizzle _ _ x => exact sketched_snd x k
  | .binary _ op x y =>
    simp only [sketched, numProducts, sketched_snd x, sketched_snd y]
    by_cases h : op = .mul ∨ op = .div
    · rw [resultOperand_of_product h, if_pos h]
      simp only [Nat.add_assoc]
    · rw [resultOperand_of_not h, if_neg h]
      simp only [Nat.add_assoc, Nat.add_zero]
  | .call _ _ es | .pack _ _ es => exact sketchedAll_snd es k

lemma sketchedAll_snd (es : List Expr) (k : VarId) :
    (sketchedAll table es k).2 = k + numProductsAll es := by
  match es with
  | [] => rfl
  | e :: es =>
    simp only [sketchedAll, numProductsAll, sketched_snd e, sketchedAll_snd es, Nat.add_assoc]

end

/-! ## Which variables there are -/

/-- The operand is about a variable of `P`, if it is about a variable. -/
def Operand.Over (P : VarId → Prop) : Operand → Prop
  | .known _ => True
  | .anchored v => P v

lemma Operand.Over.joined {l r : Operand} (hl : l.Over P) (hr : r.Over P) :
    (l.joined r).Over P := by
  cases l with
  | known tv => exact hr
  | anchored v => exact hl

lemma Operand.Over.at_eq {o : Operand} {σ : Assignment} (h : o.Over P)
    (hP : ∀ v, P v → τ v = σ v) : o.at τ = o.at σ := by
  cases o with
  | known tv => rfl
  | anchored v => exact hP v h

/-- The operands of an operation are about variables of `P`, and its result is one of `Q`. -/
structure Pending.Over (P Q : VarId → Prop) (p : Pending) : Prop where
  left : p.left.Over P
  right : p.right.Over P
  result : Q p.result

lemma operand_over (e : Expr) {k : Nat} (hwf : e.WellFormed table V)
    (hV : ∀ v, V v → P v) (hk : ∀ v : Nat, k ≤ v → v < k + numProducts e → P v) :
    (sketched table e k).1.operand.Over P := by
  match e with
  | .lit _ _ | .call _ _ _ | .pack _ _ _ | .swizzle _ _ _ => trivial
  | .var _ v => exact hV v hwf
  | .unary _ _ x => exact operand_over x hwf.2 hV hk
  | .binary _ op x y =>
    rw [numProducts] at hk
    simp only [sketched, sketched_snd, Sketch.operand]
    by_cases h : op = .mul ∨ op = .div
    · rw [resultOperand_of_product h]
      rw [if_pos h] at hk
      exact hk _ (by omega) (by omega)
    · rw [resultOperand_of_not h]
      rw [if_neg h] at hk
      split
      · trivial
      · refine (operand_over x hwf.2.1 hV fun v hlo hhi => ?_).joined
          (operand_over y hwf.2.2 hV fun v hlo hhi => ?_)
        · exact hk v hlo (by omega)
        · exact hk v (by omega) (by omega)

mutual

lemma products_over (e : Expr) {k : Nat} (hwf : e.WellFormed table V)
    (hV : ∀ v, V v → P v) (hk : ∀ v : Nat, k ≤ v → v < k + numProducts e → P v ∧ Q v) :
    ∀ p ∈ (sketched table e k).1.products, p.Over P Q := by
  match e with
  | .lit _ _ | .var _ _ => exact forall_mem_nil _
  | .unary _ _ x => exact products_over x hwf.2 hV hk
  | .swizzle _ _ x => exact products_over x hwf.2.2 hV hk
  | .binary _ op x y =>
    rw [numProducts] at hk
    simp only [sketched, sketched_snd, Sketch.products]
    have hx : ∀ v : Nat, k ≤ v → v < k + numProducts x → P v ∧ Q v :=
      fun v hlo hhi => hk v hlo (by omega)
    have hy : ∀ v : Nat, k + numProducts x ≤ v → v < k + numProducts x + numProducts y →
        P v ∧ Q v :=
      fun v hlo hhi => hk v (by omega) (by omega)
    refine forall_mem_append.2 ⟨forall_mem_append.2
      ⟨products_over x hwf.2.1 hV hx, products_over y hwf.2.2 hV hy⟩, ?_⟩
    by_cases h : op = .mul ∨ op = .div
    · rw [resultOperand_of_product h, product, if_pos h]
      rw [if_pos h] at hk
      exact forall_mem_singleton.2
        ⟨operand_over x hwf.2.1 hV fun v hlo hhi => (hx v hlo hhi).1,
          operand_over y hwf.2.2 hV fun v hlo hhi => (hy v hlo hhi).1,
          (hk (k + numProducts x + numProducts y) (by omega) (by omega)).2⟩
    · unfold product
      split
      · rw [if_neg h]
        exact forall_mem_nil _
      · exact forall_mem_nil _
  | .call _ _ es => exact productsAll_over es hwf.2 hV hk
  | .pack _ _ es => exact productsAll_over es hwf.2.2 hV hk

lemma productsAll_over (es : List Expr) {k : Nat}
    (hwf : AllWellFormed table V es) (hV : ∀ v, V v → P v)
    (hk : ∀ v : Nat, k ≤ v → v < k + numProductsAll es → P v ∧ Q v) :
    ∀ p ∈ productsAll (sketchedAll table es k).1, p.Over P Q := by
  match es with
  | [] => exact forall_mem_nil _
  | e :: es =>
    rw [numProductsAll] at hk
    simp only [sketchedAll, sketched_snd, productsAll]
    refine forall_mem_append.2 ⟨products_over e hwf.1 hV fun v hlo hhi => ?_,
      productsAll_over es hwf.2 hV fun v hlo hhi => ?_⟩
    · exact hk v hlo (by omega)
    · exact hk v (by omega) (by omega)

end

/-! ## Mixing assignments -/

variable {k : Nat}

section Mix

variable {K : VarId → Prop} {σ ρ : Assignment}

/-- What is demanded of `ρ` to agree with what `τ` and `σ` agree with: it is `τ` on the variables
`V`, it is one of them on each parameter, and those two give the same types to the variables of
`K` and to parameters with declared types. -/
structure Mixes (table : SymbolTable) (K V : VarId → Prop) (τ σ ρ : Assignment) : Prop where
  own : ∀ v, V v → ρ v = τ v
  told : ∀ v, V v → K v → τ v = σ v
  param : ∀ id f, table.fun? id = some f → ∀ p ∈ f.params,
    (ρ p = τ p ∨ ρ p = σ p) ∧ (Stated table p → τ p = σ p)

lemma Mixes.at_eq (h : Mixes table K V τ σ ρ) {e : Expr}
    (hwf : e.WellFormed table V) (he : Evident K e)
    (hτ : (sketched table e k).1.Agrees table True τ)
    (hσ : (sketched table e k).1.Agrees table True σ) :
    (sketched table e k).1.operand.at τ = (sketched table e k).1.operand.at σ := by
  have hboth (ρ : Assignment) (hρ : ρ = τ ∨ ρ = σ) :
      (sketched table e k).1.Agrees table True ρ := by
    rcases hρ with rfl | rfl
    · exact hτ
    · exact hσ
  have htold (v : VarId) (hv : V v) (hK : K v) : Told (fun ρ => ρ = τ ∨ ρ = σ) (.anchored v) := by
    refine ⟨τ v, ?_⟩
    rintro _ (rfl | rfl)
    · rfl
    · exact (h.told v hv hK).symm
  obtain ⟨m, hm⟩ := told_of_evident e hwf he htold hboth
  rw [hm τ (.inl rfl), hm σ (.inr rfl)]

mutual

lemma agrees_mix (e : Expr) {k : Nat} (hwf : e.WellFormed table V)
    (he : CallsEvident table K e) (h : Mixes table K V τ σ ρ)
    (hk : ∀ v : Nat, k ≤ v → v < k + numProducts e → ρ v = τ v)
    (hτ : (sketched table e k).1.Agrees table True τ)
    (hσ : (sketched table e k).1.Agrees table True σ) :
    (sketched table e k).1.Agrees table True ρ := by
  match e with
  | .lit _ _ | .var _ _ => trivial
  | .unary _ op x =>
    have heq := (operand_over x hwf.2 h.own hk).at_eq fun _ => id
    exact ⟨agrees_mix x hwf.2 he h hk hτ.1 hσ.1, heq ▸ hτ.2⟩
  | .swizzle _ lanes x =>
    have heq := (operand_over x hwf.2.2 h.own hk).at_eq fun _ => id
    exact ⟨agrees_mix x hwf.2.2 he h hk hτ.1 hσ.1, heq ▸ hτ.2⟩
  | .binary _ op x y =>
    rw [numProducts] at hk
    simp only [sketched, sketched_snd, Sketch.Agrees] at hτ hσ ⊢
    have hx : ∀ v : Nat, k ≤ v → v < k + numProducts x → ρ v = τ v :=
      fun v hlo hhi => hk v hlo (by omega)
    have hy : ∀ v : Nat, k + numProducts x ≤ v → v < k + numProducts x + numProducts y → ρ v = τ v :=
      fun v hlo hhi => hk v (by omega) (by omega)
    rw [(operand_over x hwf.2.1 h.own hx).at_eq fun _ => id,
      (operand_over y hwf.2.2 h.own hy).at_eq fun _ => id]
    exact ⟨agrees_mix x hwf.2.1 he.1 h hx hτ.1 hσ.1, agrees_mix y hwf.2.2 he.2 h hy hτ.2.1 hσ.2.1,
      hτ.2.2⟩
  | .call _ callee es =>
    obtain ⟨⟨f, hf, hlen⟩, hwfs⟩ := hwf
    intro f' hf'
    obtain rfl := Option.some.inj (hf.symm.trans hf')
    exact argsAgree_mix es f.params hwfs (he f hf) h (h.param callee f hf) hk (hτ f hf) (hσ f hf)
  | .pack _ _ es => exact elemsAgree_mix es hwf.2.2 he h hk hτ hσ

lemma argsAgree_mix (es : List Expr) (ps : List VarId) {k : Nat}
    (hwf : AllWellFormed table V es) (he : ArgsEvident table K es ps)
    (h : Mixes table K V τ σ ρ)
    (hps : ∀ p ∈ ps, (ρ p = τ p ∨ ρ p = σ p) ∧ (Stated table p → τ p = σ p))
    (hk : ∀ v : Nat, k ≤ v → v < k + numProductsAll es → ρ v = τ v)
    (hτ : ArgsAgree table True τ (sketchedAll table es k).1 ps)
    (hσ : ArgsAgree table True σ (sketchedAll table es k).1 ps) :
    ArgsAgree table True ρ (sketchedAll table es k).1 ps := by
  match es, ps with
  | [], _ => trivial
  | e :: es, [] => trivial
  | e :: es, p :: ps =>
    rw [numProductsAll] at hk
    simp only [sketchedAll, sketched_snd, ArgsAgree, true_or, true_imp_iff] at hτ hσ ⊢
    have hhead : ∀ v : Nat, k ≤ v → v < k + numProducts e → ρ v = τ v :=
      fun v hlo hhi => hk v hlo (by omega)
    refine ⟨agrees_mix e hwf.1 he.1 h hhead hτ.1 hσ.1, ?_, argsAgree_mix es ps hwf.2 he.2.2 h
      (fun q hq => hps q (mem_cons_of_mem _ hq)) (fun v hlo hhi => hk v (by omega) (by omega))
      hτ.2.2 hσ.2.2⟩
    rw [(operand_over e hwf.1 h.own hhead).at_eq fun _ => id]
    obtain ⟨hp | hp, hdeclared⟩ := hps p mem_cons_self
    · exact hτ.2.1.trans hp.symm
    -- the parameter has its type from the other assignment
    · rcases he.2.1 with hev | hstated
      · exact ((h.at_eq hwf.1 hev hτ.1 hσ.1).trans hσ.2.1).trans hp.symm
      · exact (hτ.2.1.trans (hdeclared hstated)).trans hp.symm

lemma elemsAgree_mix (es : List Expr) {k : Nat}
    (hwf : AllWellFormed table V es) (he : AllCallsEvident table K es)
    (h : Mixes table K V τ σ ρ) (hk : ∀ v : Nat, k ≤ v → v < k + numProductsAll es → ρ v = τ v)
    (hτ : ElemsAgree table True τ (sketchedAll table es k).1)
    (hσ : ElemsAgree table True σ (sketchedAll table es k).1) :
    ElemsAgree table True ρ (sketchedAll table es k).1 := by
  match es with
  | [] => trivial
  | e :: es =>
    rw [numProductsAll] at hk
    simp only [sketchedAll, sketched_snd, ElemsAgree] at hτ hσ ⊢
    have hhead : ∀ v : Nat, k ≤ v → v < k + numProducts e → ρ v = τ v :=
      fun v hlo hhi => hk v hlo (by omega)
    rw [(operand_over e hwf.1 h.own hhead).at_eq fun _ => id]
    exact ⟨agrees_mix e hwf.1 he.1 h hhead hτ.1 hσ.1, hτ.2.1, elemsAgree_mix es hwf.2 he.2 h
      (fun v hlo hhi => hk v (by omega) (by omega)) hτ.2.2 hσ.2.2⟩

end

/-! ## Bodies -/

def size (ts : List Resolved.Stmt) : Nat := ((exprsAll ts).map numProducts).sum

lemma sketchedStmts_snd (ts : List Resolved.Stmt) (k : Nat) :
    (sketchedStmts table ts k).2 = k + size ts :=
  mapListM_snd sketched_snd ts k

/-- The sketch of an expression over `V` with evident calls, whose products and quotients are
numbered from `lo` on and before `hi`. -/
def Rooted (table : SymbolTable) (K V : VarId → Prop) (lo hi : Nat) (x : Sketch) : Prop :=
  ∃ (e : Expr) (k : Nat), x = (sketched table e k).1 ∧ e.WellFormed table V ∧
    CallsEvident table K e ∧ lo ≤ k ∧ k + numProducts e ≤ hi

/-- Statements over `V` that assign to variables of `W` only. -/
def Over (table : SymbolTable) (K W V : VarId → Prop) (ts : List Resolved.Stmt) : Prop :=
  AllObey (.over W fun e => e.WellFormed table V ∧ CallsEvident table K e) ts

variable {W : VarId → Prop} {ts : List Resolved.Stmt}

lemma rooted_of_over (h : Over table K W V ts)
    (k : Nat) : AllObey (.over W (Rooted table K V k (k + size ts))) (sketchedStmts table ts k).1 := by
  refine obeys_mapListM sketched_snd ?_ ts (Nat.le_refl k) (Nat.le_refl _) h
  refine ⟨?_, ?_, fun _ x hx => (nomatch hx), ?_, ?_⟩
  · exact fun hlo hhi he => ⟨he.1, _, _, rfl, he.2.1, he.2.2, hlo, hhi⟩
  · exact fun hlo hhi he => ⟨_, _, rfl, he.1, he.2, hlo, hhi⟩
  · rintro e k hlo hhi he _ ⟨rfl⟩
    exact ⟨e, k, rfl, (he e rfl).1, (he e rfl).2, hlo, hhi⟩
  · exact fun hlo hhi he => ⟨_, _, rfl, he.1, he.2, hlo, hhi⟩

namespace Rooted

variable {lo hi : Nat} {x : Sketch}

lemma operand_over (h : Rooted table K V lo hi x) (hV : ∀ v, V v → P v)
    (hk : ∀ v : Nat, lo ≤ v → v < hi → P v) : x.operand.Over P := by
  obtain ⟨e, k, rfl, hwf, -, hlo, hhi⟩ := h
  exact Typing.operand_over e hwf hV fun v hv hv' => hk v (by omega) (by omega)

lemma products_over (h : Rooted table K V lo hi x) (hV : ∀ v, V v → P v)
    (hk : ∀ v : Nat, lo ≤ v → v < hi → P v ∧ Q v) : ∀ p ∈ x.products, p.Over P Q := by
  obtain ⟨e, k, rfl, hwf, -, hlo, hhi⟩ := h
  exact Typing.products_over e hwf hV fun v hv hv' => hk v (by omega) (by omega)

lemma agrees_mix (h : Rooted table K V lo hi x) (hm : Mixes table K V τ σ ρ)
    (hk : ∀ v : Nat, lo ≤ v → v < hi → ρ v = τ v) (hτ : x.Agrees table True τ)
    (hσ : x.Agrees table True σ) : x.Agrees table True ρ := by
  obtain ⟨e, k, rfl, hwf, he, hlo, hhi⟩ := h
  exact Typing.agrees_mix e hwf he hm (fun v hv hv' => hk v (by omega) (by omega)) hτ hσ

end Rooted

lemma stmtProducts_over (h : Over table K W V ts) (hV : ∀ v, V v → P v)
    (hk : ∀ v : Nat, k ≤ v → v < k + size ts → P v ∧ Q v) :
    ∀ p ∈ stmtProducts (sketchedStmts table ts k).1, p.Over P Q := by
  intro p hp
  obtain ⟨x, hx, hp⟩ := mem_flatMap.1 hp
  have hall : AllObey (.all (Rooted table K V k (k + size ts))) (sketchedStmts table ts k).1 := by
    refine (rooted_of_over h k).mono ?_ _
    exact ⟨fun h => h.2, id, id, id⟩
  exact ((allObey_all _).1 hall x hx).products_over hV hk p hp

lemma obeys_mix {result : TypeVar}
    (h : Over table K W V ts) (hW : ∀ v, W v → V v) (hm : Mixes table K V τ σ ρ)
    (hk : ∀ v : Nat, k ≤ v → v < k + size ts → ρ v = τ v)
    (hτ : AllObey (agreement table result True τ) (sketchedStmts table ts k).1)
    (hσ : AllObey (agreement table result True σ) (sketchedStmts table ts k).1) :
    AllObey (agreement table result True ρ) (sketchedStmts table ts k).1 := by
  refine ((rooted_of_over h k).and _ (hτ.and _ hσ)).mono ⟨?_, ?_, ?_, ?_⟩ _
  · rintro v x ⟨⟨hv, hx⟩, ⟨hadm, hagree, heq⟩, -, hagree', -⟩
    refine ⟨fun var hvar => ?_, hx.agrees_mix hm hk hagree hagree', ?_⟩
    · rw [hm.own v (hW v hv)]
      exact hadm var hvar
    · rw [hm.own v (hW v hv), (hx.operand_over hm.own hk).at_eq fun _ => id]
      exact heq
  · rintro x ⟨hx, hagree, hagree'⟩
    exact hx.agrees_mix hm hk hagree hagree'
  · rintro (_ | x) ⟨hx, hagree, hagree'⟩
    · exact hagree
    · refine ⟨(hx x rfl).agrees_mix hm hk hagree.1 hagree'.1, ?_⟩
      rw [((hx x rfl).operand_over hm.own hk).at_eq fun _ => id]
      exact hagree.2
  · rintro x ⟨hx, hagree, hagree'⟩
    refine ⟨hx.agrees_mix hm hk hagree.1 hagree'.1, ?_⟩
    rw [(hx.operand_over hm.own hk).at_eq fun _ => id]
    exact hagree.2

end Mix

/-! ## Variables with evident types -/

section Lets

variable {K : VarId → Prop} {S : Assignment → Prop} {consts : List VarId} {result : TypeVar}

/-- All assignments that agree with a variable of an evident type and its value give it the same
type. -/
lemma told_of_grounds {e : Expr} {v : VarId} (he : e.WellFormed table V)
    (hV : ∀ w, V w → K w → Told S (.anchored w))
    (hS : ∀ τ, S τ → (agreement table result True τ).bind v (sketched table e k).1)
    (hb : Grounds table K (v, e)) (hK : K v) : Told S (.anchored v) := by
  rcases hb hK with ⟨var, hvar, hd⟩ | hev
  · refine ⟨some var.declared, fun τ hτ => ?_⟩
    have hmem := (hS τ hτ).1 var hvar
    rw [Var.seed, if_neg hd, members_exact_eq hd] at hmem
    exact mem_singleton.1 hmem
  · obtain ⟨m, hm⟩ := told_of_evident e he hev hV fun τ hτ => (hS τ hτ).2.1
    exact ⟨m, fun τ hτ => (hS τ hτ).2.2.trans (hm τ hτ)⟩

mutual

lemma told_lets (c : Resolved.Stmt) {inLoop : Bool} {vs : List VarId} {lo : VarId} {k : Nat}
    (hc : Scoped (Visible table consts) inLoop vs lo c)
    (hb : ∀ b ∈ c.lets, Grounds table K b)
    (hvs : ∀ v, v ∈ vs ∨ v ∈ consts → K v → Told S (.anchored v))
    (hS : ∀ τ, S τ → (sketchedStmt table c k).1.Obeys (agreement table result True τ)) :
    ∀ b ∈ c.lets, K b.1 → Told S (.anchored b.1) := by
  match c with
  | .letVar _ v e =>
    refine forall_mem_singleton.2 fun hK => ?_
    exact told_of_grounds hc.1 hvs hS (hb (v, e) mem_cons_self) hK
  | .assign _ _ _ | .expr _ _ | .ret _ _ | .breakLoop _ | .continueLoop _ =>
    exact forall_mem_nil _
  | .ifElse _ e ts none | .whileDo _ e ts =>
    exact told_letsAll ts hc.2 hb hvs fun τ hτ => (hS τ hτ).2
  | .ifElse _ e ts (some us) =>
    obtain ⟨hts, hus⟩ := forall_mem_append.1 hb
    exact forall_mem_append.2 ⟨told_letsAll ts hc.2.1 hts hvs fun τ hτ => (hS τ hτ).2.1,
      told_letsAll us hc.2.2 hus hvs fun τ hτ => (hS τ hτ).2.2⟩

/-- The variables of a body whose types are to be evident have the same types in all assignments
that agree. -/
lemma told_letsAll (cs : List Resolved.Stmt) {inLoop : Bool} {vs : List VarId} {lo : VarId}
    {k : Nat} (hcs : AllScoped (Visible table consts) inLoop vs lo cs)
    (hb : ∀ b ∈ letsAll cs, Grounds table K b)
    (hvs : ∀ v, v ∈ vs ∨ v ∈ consts → K v → Told S (.anchored v))
    (hS : ∀ τ, S τ → AllObey (agreement table result True τ) (sketchedStmts table cs k).1) :
    ∀ b ∈ letsAll cs, K b.1 → Told S (.anchored b.1) := by
  match cs with
  | [] => exact forall_mem_nil _
  | c :: cs =>
    obtain ⟨hbc, hbcs⟩ := forall_mem_append.1 hb
    have hhead := told_lets c hcs.1 hbc hvs fun τ hτ => (hS τ hτ).1
    refine forall_mem_append.2 ⟨hhead, told_letsAll cs hcs.2 hbcs (fun v hv hK => ?_)
      fun τ hτ => (hS τ hτ).2⟩
    rw [mem_append, or_assoc] at hv
    rcases hv with hv | hv
    · cases c with
      | letVar _ w e =>
        obtain rfl := mem_singleton.1 hv
        exact hhead (v, e) mem_cons_self hK
      | _ => cases hv
    · exact hvs v hv hK

end

end Lets

end VecLang.Typing
