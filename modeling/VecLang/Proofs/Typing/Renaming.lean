import VecLang.Proofs.Typing.Locality

/-!
# Other variables for results

The variables that stand for the results of products and quotients are numbered in the order in
which the functions of a program stand. Sketches that are made with other numbers are the same up
to a renaming (`sketched_rename`), and so are the verdicts (`kept_settleLog_rename`).
-/

namespace VecLang.Typing

open Function Sketch
open List hiding span

open Stateful Stmt

variable {table : SymbolTable} {V : VarId → Prop} {τ : Assignment} {π π' : VarId → VarId}

/-! ## Sketches -/

def Operand.rename (π : VarId → VarId) : Operand → Operand
  | .known tv => .known tv
  | .anchored v => .anchored (π v)

def Pending.rename (π : VarId → VarId) (p : Pending) : Pending :=
  { p with left := p.left.rename π, right := p.right.rename π, result := π p.result }

mutual

def Sketch.rename (π : VarId → VarId) : Sketch → Sketch
  | .lit span v => .lit span v
  | .var span v => .var span (π v)
  | .unary span op x o => .unary span op (x.rename π) (o.rename π)
  | .binary span op x y o => .binary span op (x.rename π) (y.rename π) (o.rename π)
  | .call span callee args o => .call span callee (renameAll π args) (o.rename π)
  | .pack span ty elems => .pack span ty (renameAll π elems)
  | .swizzle span lanes x o => .swizzle span lanes (x.rename π) (o.rename π)

def renameAll (π : VarId → VarId) : List Sketch → List Sketch
  | [] => []
  | x :: xs => x.rename π :: renameAll π xs

end

lemma Operand.at_rename (o : Operand) : (o.rename π).at τ = o.at (τ ∘ π) := by
  cases o <;> rfl

lemma Operand.rename_eq_known {o : Operand} {tv : TypeVar} :
    o.rename π = .known tv ↔ o = .known tv := by
  cases o <;> simp [rename]

lemma Operand.rename_joined (l r : Operand) :
    (l.joined r).rename π = (l.rename π).joined (r.rename π) := by
  cases l <;> rfl

lemma Sketch.operand_rename (x : Sketch) : (x.rename π).operand = x.operand.rename π := by
  cases x <;> rfl

lemma Sketch.span_rename (x : Sketch) : (x.rename π).erase.span = x.erase.span := by
  cases x <;> rfl

lemma product_rename (span : Span) (op : BinaryOp) (x y : Sketch) (o : Operand) :
    product span op (x.rename π) (y.rename π) (o.rename π) =
      (product span op x y o).map (Pending.rename π) := by
  cases o with
  | known tv => rfl
  | anchored v =>
    rw [Operand.rename, product, product]
    split
    · rw [span_rename, span_rename, operand_rename, operand_rename]
      rfl
    · rfl

mutual

lemma Sketch.products_rename (x : Sketch) :
    (x.rename π).products = x.products.map (Pending.rename π) := by
  match x with
  | .lit _ _ | .var _ _ => rfl
  | .unary _ _ x _ | .swizzle _ _ x _ => exact x.products_rename
  | .binary span op x y o =>
    simp only [rename, products, x.products_rename, y.products_rename, product_rename, map_append]
  | .call _ _ xs _ | .pack _ _ xs => exact productsAll_rename xs

lemma productsAll_rename (xs : List Sketch) :
    productsAll (renameAll π xs) = (productsAll xs).map (Pending.rename π) := by
  match xs with
  | [] => rfl
  | x :: xs =>
    simp only [renameAll, productsAll, x.products_rename, productsAll_rename xs, map_append]

end

def FixesParams (table : SymbolTable) (π : VarId → VarId) : Prop :=
  ∀ id f, table.fun? id = some f → ∀ p ∈ f.params, π p = p

mutual

lemma Sketch.agrees_rename {strict : Prop} (hP : FixesParams table π) (x : Sketch) :
    (x.rename π).Agrees table strict τ ↔ x.Agrees table strict (τ ∘ π) := by
  match x with
  | .lit _ _ | .var _ _ => rfl
  | .unary _ _ x _ | .swizzle _ _ x _ =>
    simp only [rename, Agrees, x.agrees_rename hP, operand_rename, Operand.at_rename]
  | .binary _ _ x y _ =>
    simp only [rename, Agrees, x.agrees_rename hP, y.agrees_rename hP, operand_rename,
      Operand.at_rename]
  | .call _ callee xs _ =>
    exact forall_congr' fun f => forall_congr' fun hf =>
      argsAgree_rename hP xs f.params fun p hp => hP callee f hf p hp
  | .pack _ _ xs => exact elemsAgree_rename hP xs

lemma argsAgree_rename {strict : Prop} (hP : FixesParams table π) (xs : List Sketch)
    (ps : List VarId) (hps : ∀ p ∈ ps, π p = p) :
    ArgsAgree table strict τ (renameAll π xs) ps ↔ ArgsAgree table strict (τ ∘ π) xs ps := by
  match xs, ps with
  | [], _ => exact .rfl
  | _ :: _, [] => exact .rfl
  | x :: xs, p :: ps =>
    obtain ⟨hp, hps⟩ := forall_mem_cons.1 hps
    simp only [renameAll, ArgsAgree, x.agrees_rename hP, argsAgree_rename hP xs ps hps,
      operand_rename, Operand.at_rename, Operand.rename_eq_known, comp, hp]

lemma elemsAgree_rename {strict : Prop} (hP : FixesParams table π) (xs : List Sketch) :
    ElemsAgree table strict τ (renameAll π xs) ↔ ElemsAgree table strict (τ ∘ π) xs := by
  match xs with
  | [] => exact .rfl
  | x :: xs =>
    simp only [renameAll, ElemsAgree, x.agrees_rename hP, elemsAgree_rename hP xs,
      operand_rename, Operand.at_rename]

end

mutual

lemma sketched_rename (e : Resolved.Expr) {k k' : Nat} (hwf : e.WellFormed table V)
    (hV : ∀ v, V v → π v = v) (hk : ∀ i < numProducts e, π (k + i) = k' + i) :
    (sketched table e k').1 = (sketched table e k).1.rename π := by
  match e with
  | .lit _ _ => rfl
  | .var span v => simp only [sketched, rename, hV v hwf]
  | .unary _ _ x =>
    simp only [sketched, rename, sketched_rename x hwf.2 hV hk, operand_rename]
  | .swizzle _ _ x =>
    simp only [sketched, rename, sketched_rename x hwf.2.2 hV hk, Operand.rename]
  | .binary _ op x y =>
    rw [numProducts] at hk
    have hx := sketched_rename x hwf.2.1 hV fun i hi => hk i (by omega)
    have hy : (sketched table y (k' + numProducts x)).1 =
        (sketched table y (k + numProducts x)).1.rename π := by
      refine sketched_rename y hwf.2.2 hV fun i hi => ?_
      have h := hk (numProducts x + i) (by omega)
      rwa [← Nat.add_assoc, ← Nat.add_assoc] at h
    simp only [sketched, sketched_snd, rename, hx, hy, operand_rename]
    by_cases h : op = .mul ∨ op = .div
    · have hlast := hk (numProducts x + numProducts y) (by rw [if_pos h]; omega)
      rw [← Nat.add_assoc, ← Nat.add_assoc] at hlast
      rw [resultOperand_of_product h, resultOperand_of_product h, Operand.rename, hlast]
    · rw [resultOperand_of_not h, resultOperand_of_not h]
      split
      · rfl
      · rw [Operand.rename_joined]
  | .call _ _ es =>
    simp only [sketched, rename, sketchedAll_rename es hwf.2 hV hk, Operand.rename]
  | .pack _ _ es => simp only [sketched, rename, sketchedAll_rename es hwf.2.2 hV hk]

lemma sketchedAll_rename (es : List Resolved.Expr) {k k' : Nat}
    (hwf : Resolved.AllWellFormed table V es) (hV : ∀ v, V v → π v = v)
    (hk : ∀ i < numProductsAll es, π (k + i) = k' + i) :
    (sketchedAll table es k').1 = renameAll π (sketchedAll table es k).1 := by
  match es with
  | [] => rfl
  | e :: es =>
    rw [numProductsAll] at hk
    have he := sketched_rename e hwf.1 hV fun i hi => hk i (by omega)
    have hes : (sketchedAll table es (k' + numProducts e)).1 =
        renameAll π (sketchedAll table es (k + numProducts e)).1 := by
      refine sketchedAll_rename es hwf.2 hV fun i hi => ?_
      have h := hk (numProducts e + i) (by omega)
      rwa [← Nat.add_assoc, ← Nat.add_assoc] at h
    simp only [sketchedAll, sketched_snd, renameAll, he, hes]

end

/-! ## Bodies -/

section Bodies

variable {K W : VarId → Prop} {ts : List Resolved.Stmt} {k k' : Nat}

lemma sketchedStmts_rename (h : Over table K W V ts) (hV : ∀ v, V v → π v = v)
    (hk : ∀ i < size ts, π (k + i) = k' + i) :
    (sketchedStmts table ts k').1 = mapList (rename π) (sketchedStmts table ts k).1 := by
  have hwf : AllObey (.all fun e => e.WellFormed table V) ts := by
    refine AllObey.mono ?_ ts h
    exact ⟨fun h => h.2.1, fun h => h.1, fun h x hx => (h x hx).1, fun h => h.1⟩
  refine mapListM_shift sketched_snd ts (Nat.le_of_eq (Nat.zero_add _)) ?_
  intro e he i hi
  refine sketched_rename e ((allObey_all ts).1 hwf e he) hV fun j hj => ?_
  have h := hk (i + j) (by unfold size; omega)
  rwa [← Nat.add_assoc, ← Nat.add_assoc] at h

lemma stmtProducts_rename (xs : List (Stmt Sketch)) :
    stmtProducts (mapList (rename π) xs) = (stmtProducts xs).map (Pending.rename π) := by
  unfold stmtProducts
  rw [exprsAll_mapList, flatMap_map, map_flatMap]
  exact congrArg (List.flatMap · _) (funext products_rename)

lemma agreement_rename {strict : Prop} {result : TypeVar} (hP : FixesParams table π)
    {Q : Sketch → Prop} {xs : List (Stmt Sketch)} (hxs : AllObey (.over W Q) xs)
    (hW : ∀ v, W v → π v = v) :
    AllObey (agreement table result strict τ) (mapList (rename π) xs) ↔
      AllObey (agreement table result strict (τ ∘ π)) xs := by
  have hbind {v : VarId} (hv : W v) (x : Sketch) :
      (agreement table result strict τ).bind v (x.rename π) ↔
        (agreement table result strict (τ ∘ π)).bind v x := by
    simp only [agreement, Admits, x.agrees_rename hP, operand_rename, Operand.at_rename,
      comp, hW v hv]
  have hret (e : Option Sketch) : (agreement table result strict τ).ret (e.map (rename π)) ↔
      (agreement table result strict (τ ∘ π)).ret e := by
    cases e with
    | none => rfl
    | some x =>
      simp only [agreement, Option.map_some, x.agrees_rename hP, operand_rename, Operand.at_rename]
  have hvalue (x : Sketch) : (agreement table result strict τ).value (x.rename π) ↔
      (agreement table result strict (τ ∘ π)).value x := x.agrees_rename hP
  have hcond (x : Sketch) : (agreement table result strict τ).cond (x.rename π) ↔
      (agreement table result strict (τ ∘ π)).cond x := by
    simp only [agreement, x.agrees_rename hP, operand_rename, Operand.at_rename]
  rw [allObey_mapList]
  constructor
  · refine fun h => (hxs.and xs h).mono ⟨?_, ?_, ?_, ?_⟩ xs
    · exact fun h => (hbind h.1.1 _).1 h.2
    · exact fun h => (hvalue _).1 h.2
    · exact fun h => (hret _).1 h.2
    · exact fun h => (hcond _).1 h.2
  · refine fun h => (hxs.and xs h).mono ⟨?_, ?_, ?_, ?_⟩ xs
    · exact fun h => (hbind h.1.1 _).2 h.2
    · exact fun h => (hvalue _).2 h.2
    · exact fun h => (hret _).2 h.2
    · exact fun h => (hcond _).2 h.2

end Bodies

/-! ## Verdicts -/

section Verdicts

variable {S : Assignment → Prop} {p : Pending}

lemma Verdict.met_rename {v : Verdict} : v.Met τ (p.rename π) ↔ v.Met (τ ∘ π) p := by
  cases v <;> simp only [Met, Pending.rename, Operand.at_rename, comp]

lemma allMet_rename {log : List (Pending × Verdict)} :
    AllMet τ (log.map fun x => (x.1.rename π, x.2)) ↔ AllMet (τ ∘ π) log := by
  simp only [AllMet, forall_mem_map, Verdict.met_rename]

lemma kept_rename {log : List (Pending × Verdict)} :
    Kept (fun τ => S (τ ∘ π)) (log.map fun x => (x.1.rename π, x.2)) =
      fun τ => Kept S log (τ ∘ π) :=
  funext fun _ => propext (and_congr_right fun _ => allMet_rename)

section

variable (hπ : LeftInverse π' π)
include hπ

lemma forall_comp_iff {Q : Assignment → Prop} : (∀ τ : Assignment, Q (τ ∘ π)) ↔ ∀ τ, Q τ := by
  refine ⟨fun h τ => ?_, fun h τ => h _⟩
  have hτ := h (τ ∘ π')
  rwa [comp_assoc, hπ.comp_eq_id, comp_id] at hτ

lemma allVector_rename (o : Operand) :
    AllVector (fun τ => S (τ ∘ π)) (o.rename π) ↔ AllVector S o := by
  simp only [AllVector, Operand.at_rename]
  exact forall_comp_iff hπ (Q := fun τ => S τ → o.at τ ∈ TypeVar.vec.members)

lemma noVector_rename (o : Operand) :
    NoVector (fun τ => S (τ ∘ π)) (o.rename π) ↔ NoVector S o := by
  simp only [NoVector, Operand.at_rename]
  exact forall_comp_iff hπ (Q := fun τ => S τ → o.at τ ∉ TypeVar.vec.members)

lemma judge_rename (p : Pending) (force : Bool) :
    judge (fun τ => S (τ ∘ π)) (p.rename π) force = judge S p force := by
  have hall := fun o => propext (allVector_rename (S := S) hπ o)
  have hno := fun o => propext (noVector_rename (S := S) hπ o)
  have hresult : Operand.anchored (p.rename π).result = (Operand.anchored p.result).rename π := rfl
  unfold judge
  rw [hresult, show (p.rename π).left = p.left.rename π from rfl,
    show (p.rename π).right = p.right.rename π from rfl, show (p.rename π).op = p.op from rfl]
  rw [hall, hall, hall, hno, hno, hno]

lemma roundOf_rename (ps : List Pending) {S : Assignment → Prop} :
    roundOf (fun τ => S (τ ∘ π)) (ps.map (Pending.rename π)) =
      ((roundOf S ps).1.map (Pending.rename π),
        (roundOf S ps).2.map fun x => (x.1.rename π, x.2)) := by
  induction ps generalizing S with
  | nil => rfl
  | cons p ps ih =>
    rw [map_cons, roundOf, roundOf, judge_rename hπ]
    cases judge S p false with
    | none => simp only [ih, map_cons]
    | some v => simp only [Verdict.met_rename, ih (S := fun τ => S τ ∧ v.Met τ p), map_cons]

lemma verdicts_rename (n : Nat) (ps : List Pending) {S : Assignment → Prop} :
    verdicts n (fun τ => S (τ ∘ π)) (ps.map (Pending.rename π)) =
      (verdicts n S ps).map fun x => (x.1.rename π, x.2) := by
  induction n generalizing ps S with
  | zero => rfl
  | succ n ih =>
    rw [verdicts, verdicts, roundOf_rename hπ]
    generalize roundOf S ps = r
    obtain ⟨rest, log⟩ := r
    dsimp only
    rw [kept_rename, length_map, length_map, ih]
    split
    · rw [map_append]
    · cases rest with
      | nil => rfl
      | cons p rest =>
        have hlog : log.map (fun x => (x.1.rename π, x.2)) ++
            [(p.rename π, (judge (Kept S log) p true).getD .plain)] =
            (log ++ [(p, (judge (Kept S log) p true).getD .plain)]).map
              fun x => (x.1.rename π, x.2) := by
          rw [map_append]
          rfl
        simp only [map_cons]
        rw [judge_rename hπ, hlog, kept_rename, ih, ← map_append]

lemma kept_settleLog_rename (ps : List Pending) :
    Kept (fun τ => S (τ ∘ π)) (settleLog (fun τ => S (τ ∘ π)) (ps.map (Pending.rename π))) =
      fun τ => Kept S (settleLog S ps) (τ ∘ π) := by
  rw [settleLog, length_map, verdicts_rename hπ, kept_rename]
  rfl

end

end Verdicts

/-! ## Neighbours that change places -/

def swapBlocks (k a b v : Nat) : Nat :=
  if v < k then v else if v < k + a then v + b else if v < k + a + b then v - a else v

lemma leftInverse_swapBlocks (k a b : Nat) : LeftInverse (swapBlocks k b a) (swapBlocks k a b) := by
  intro v
  unfold swapBlocks
  split_ifs <;> omega

section SwapBlocks

variable {k a b : Nat}

lemma swapBlocks_of_lt {v : Nat} (h : v < k) : swapBlocks k a b v = v := if_pos h

lemma swapBlocks_of_ge {v : Nat} (h : k + a + b ≤ v) : swapBlocks k a b v = v := by
  unfold swapBlocks
  rw [if_neg (by omega), if_neg (by omega), if_neg (by omega)]

lemma swapBlocks_first {i : Nat} (h : i < a) : swapBlocks k a b (k + i) = k + b + i := by
  unfold swapBlocks
  rw [if_neg (by omega), if_pos (by omega)]
  omega

lemma swapBlocks_second {i : Nat} (h : i < b) : swapBlocks k a b (k + a + i) = k + i := by
  unfold swapBlocks
  rw [if_neg (by omega), if_neg (by omega), if_pos (by omega)]
  omega

end SwapBlocks

end VecLang.Typing
