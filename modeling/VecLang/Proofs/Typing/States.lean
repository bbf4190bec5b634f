import VecLang.Typing.Infer
import VecLang.Proofs.Stateful
import VecLang.Proofs.Typing.Sets

/-!
# The state of inference

What holds of the state of inference at any time (`Sane`), and what its steps do to the sets of
variables.
-/

namespace VecLang.Typing

open ConstraintSets Stateful List Option InferState

def Operand.type? (cs : ConstraintSets) : Operand → Option TypeVar
  | .known tv => some tv
  | .anchored v => cs.typeOfVar? v

variable {s : InferState}

structure Sane (table : SymbolTable) (s : InferState) : Prop where
  indexed : s.sets.Indexed
  /-- A variable never gets a type that its declaration does not admit. -/
  seeded : ∀ {v i var}, s.sets.of? v = some i → table.var? v = some var →
    (s.sets.typeOf i).Refines var.seed
  /-- The next variable for a result has no set yet. -/
  below : ∀ {v i}, s.sets.of? v = some i → v < s.nextTemp
  /-- Variables for results are no variables of the program. -/
  base : table.numVars ≤ s.nextTemp
  /-- What is not settled yet is a product or quotient with a result of its own. -/
  waiting : ∀ p ∈ s.pending, (p.op = .mul ∨ p.op = .div) ∧ p.result < s.nextTemp
  /-- No two of them share a result. -/
  distinct : s.pending.Pairwise fun p q => p.result ≠ q.result

variable {cs : ConstraintSets}

lemma Sane.narrow {table : SymbolTable}
    (hs : Sane table s) (hd : cs.Indexed) (hn : s.sets.Narrows cs)
    (hold : ∀ {v j}, cs.of? v = some j → ∃ i, s.sets.of? v = some i) :
    Sane table { s with sets := cs } where
  indexed := hd
  seeded {v j var} hv hvar := by
    obtain ⟨i, hi⟩ := hold hv
    obtain ⟨k, hk, hr⟩ := hn hi
    obtain rfl : j = k := Option.some.inj (hv.symm.trans hk)
    exact hr.trans (hs.seeded hi hvar)
  below hv := by
    obtain ⟨i, hi⟩ := hold hv
    exact hs.below hi
  base := hs.base
  waiting := hs.waiting
  distinct := hs.distinct

variable {v : VarId}

lemma lt_numVars_of_var? {table : SymbolTable} {var : Var}
    (h : table.var? v = some var) : v < table.numVars := by
  unfold SymbolTable.var? at h
  split at h
  · cases h
  · obtain ⟨hlt, -⟩ := Array.getElem?_eq_some_iff.1 h
    refine Nat.lt_succ_of_le ?_
    omega

/-! ## Types of operands -/

variable {i : SetId} {c : TypeVar}

variable {t : InferState} {o : Operand} {tv : TypeVar}

lemma type?_anchored (h : cs.of? v = some i) :
    (Operand.anchored v).type? cs = some (cs.typeOf i) := by
  simp [Operand.type?, typeOfVar?, h]

lemma setOf_of_some (h : s.sets.of? v = some i) : setOf v s = .ok (i, s) := by
  rw [setOf, Stateful.get_bind, h]
  rfl

lemma typeOf_of_some (h : o.type? s.sets = some tv) : typeOf o s = .ok (tv, s) := by
  cases o with
  | known tv' =>
    cases h
    rfl
  | anchored v =>
    obtain ⟨i, hi, rfl⟩ := map_eq_some_iff.1 h
    rw [typeOf, bind_of_eq_ok (setOf_of_some hi)]
    rfl

/-! ## Steps -/

variable {table : SymbolTable}

lemma Sane.add (hs : Sane table s) {seed : TypeVar} {n : VarId}
    (hseed : ∀ var, table.var? v = some var → seed.Refines var.seed) (hv : v < n)
    (hn : s.nextTemp ≤ n) :
    Sane table { s with sets := (s.sets.add v seed).1, nextTemp := n } where
  indexed := indexed_add hs.indexed
  seeded {w j var} hw hvar := by
    change ((s.sets.add v seed).1.typeOf j).Refines _
    -- the only new variable is `v`, and its set has the seed for type
    rcases of?_add_cases hw with hold | ⟨hnone, rfl, rfl⟩
    · rw [typeOf_add_of_lt (holds_of_of? hs.indexed hold).lt]
      exact hs.seeded hold hvar
    · rw [typeOf_add_size hnone]
      exact hseed var hvar
  below hw := by
    rcases of?_add_cases hw with hold | ⟨-, rfl, -⟩
    · exact Nat.lt_of_lt_of_le (hs.below hold) hn
    · exact hv
  base := Nat.le_trans hs.base hn
  waiting p hp := ⟨(hs.waiting p hp).1, Nat.lt_of_lt_of_le (hs.waiting p hp).2 hn⟩
  distinct := hs.distinct

lemma Sane.constrain (hs : Sane table s) {p : ConstraintSets × TypeVar}
    (h : s.sets.constrain? i tv = some p) :
    Sane table { s with sets := p.1 } :=
  hs.narrow (indexed_constrain hs.indexed h) (narrows_constrain hs.indexed h)
    fun hw => ⟨_, (of?_constrain h).symm.trans hw⟩

lemma Sane.postpone (hs : Sane table s) {p : Pending} (hop : p.op = .mul ∨ p.op = .div)
    (hres : p.result = s.nextTemp) : Sane table { s with
      sets := (s.sets.add s.nextTemp .unknown).1
      nextTemp := s.nextTemp + 1
      pending := p :: s.pending } := by
  have hadd : Sane table { s with
      sets := (s.sets.add s.nextTemp .unknown).1, nextTemp := s.nextTemp + 1 } := by
    refine hs.add (fun var hvar => ?_) (Nat.lt_succ_self _) (Nat.le_succ _)
    -- the table has no variable of that number
    exact absurd hs.base (Nat.not_le.2 (lt_numVars_of_var? hvar))
  refine ⟨hadd.indexed, hadd.seeded, hadd.below, hadd.base, forall_mem_cons.2 ⟨⟨hop, ?_⟩, ?_⟩,
    pairwise_cons.2 ⟨fun q hq => ?_, hs.distinct⟩⟩
  · exact hres ▸ Nat.lt_succ_self _
  · exact hadd.waiting
  · exact hres ▸ Nat.ne_of_gt (hs.waiting q hq).2

lemma Sane.enter (hs : Sane table s) {var : Var} (hvar : table.var? v = some var) :
    Sane table { s with sets := (s.sets.add v var.seed).1 } := by
  refine hs.add (fun var' hvar' => ?_) (Nat.lt_of_lt_of_le (lt_numVars_of_var? hvar) hs.base)
    (Nat.le_refl _)
  obtain rfl : var = var' := Option.some.inj (hvar.symm.trans hvar')
  exact .refl _

def Entered (s : InferState) (v : VarId) : Prop := ∃ i, s.sets.of? v = some i

lemma Entered.mono (h : Entered s v) (hx : s.sets.Narrows t.sets) : Entered t v := by
  obtain ⟨i, hi⟩ := h
  obtain ⟨j, hj, -⟩ := hx hi
  exact ⟨j, hj⟩

lemma entered_add (s : InferState) (v : VarId) (seed : TypeVar) :
    ∃ i, (s.sets.add v seed).1.of? v = some i :=
  of?_add_self.imp fun _ => And.left

end VecLang.Typing
