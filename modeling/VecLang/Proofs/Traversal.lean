import Mathlib
import VecLang.Proofs.Statements

/-!
# The expressions of statements

Statements are walked from left to right by all stages of the compiler. Here are the expressions
that such a walk meets, in order (`exprs`), and what is known of a walk from what is known of each
expression.
-/

namespace VecLang.Stateful

lemma run_bind {σ α β : Type} (x : StateM σ α) (f : α → StateM σ β) (k : σ) :
    (x >>= f) k = f (x k).1 (x k).2 := rfl

lemma run_pure {σ α : Type} (a : α) (k : σ) : (pure a : StateM σ α) k = (a, k) := rfl

end VecLang.Stateful

namespace VecLang.Stmt

open Stateful List

variable {ε δ : Type}

mutual

def exprs : Stmt ε → List ε
  | letVar _ _ e => [e]
  | assign _ _ e => [e]
  | expr _ e => [e]
  | ret _ none => []
  | ret _ (some e) => [e]
  | breakLoop _ => []
  | continueLoop _ => []
  | ifElse _ c t none => c :: exprsAll t
  | ifElse _ c t (some e) => c :: (exprsAll t ++ exprsAll e)
  | whileDo _ c body => c :: exprsAll body

def exprsAll : List (Stmt ε) → List ε
  | [] => []
  | t :: ts => exprs t ++ exprsAll ts

end

mutual

/-- The variables that are declared in a statement, with their values. -/
def lets : Stmt ε → List (VarId × ε)
  | letVar _ v e => [(v, e)]
  | assign _ _ _ => []
  | expr _ _ => []
  | ret _ _ => []
  | breakLoop _ => []
  | continueLoop _ => []
  | ifElse _ _ t none => letsAll t
  | ifElse _ _ t (some e) => letsAll t ++ letsAll e
  | whileDo _ _ body => letsAll body

/-- The variables that are declared in statements, with their values. -/
def letsAll : List (Stmt ε) → List (VarId × ε)
  | [] => []
  | t :: ts => lets t ++ letsAll ts

end

lemma exists_of_mem_declares {t : Stmt ε} {v : VarId} (hv : v ∈ t.declares) :
    ∃ e, (v, e) ∈ t.lets := by
  cases t with
  | letVar _ w e =>
    obtain rfl := mem_singleton.1 hv
    exact ⟨e, mem_cons_self⟩
  | _ => cases hv

mutual

lemma map_fst_lets {E : List VarId → ε → Prop} {inLoop : Bool} {V : List VarId} {lo : VarId}
    (t : Stmt ε) (h : Scoped E inLoop V lo t) :
    t.lets.map Prod.fst = range' lo t.numLets := by
  match t with
  | letVar _ v e =>
    obtain ⟨-, rfl⟩ := h
    rfl
  | assign _ _ _ | expr _ _ | ret _ _ | breakLoop _ | continueLoop _ => rfl
  | ifElse _ _ t none | whileDo _ _ t => exact map_fst_letsAll t h.2
  | ifElse _ _ t (some e) =>
    rw [lets, numLets, map_append, map_fst_letsAll t h.2.1, map_fst_letsAll e h.2.2,
      range'_append_1]

lemma map_fst_letsAll {E : List VarId → ε → Prop} {inLoop : Bool} {V : List VarId}
    {lo : VarId} (ts : List (Stmt ε)) (h : AllScoped E inLoop V lo ts) :
    (letsAll ts).map Prod.fst = range' lo (numLetsAll ts) := by
  match ts with
  | [] => rfl
  | t :: ts =>
    rw [letsAll, numLetsAll, map_append, map_fst_lets t h.1, map_fst_letsAll ts h.2,
      range'_append_1]

end

section Origin

variable {σ : Type} {g : ε → StateM σ δ}

mutual

lemma exists_of_mem_mapM (t : Stmt ε) {k : σ} {y : δ} (hy : y ∈ (t.mapM g k).1.exprs) :
    ∃ e ∈ t.exprs, ∃ k', y = (g e k').1 := by
  match t with
  | letVar _ _ e | assign _ _ e | expr _ e | ret _ (some e) =>
    rw [mapM] at hy
    exact ⟨e, mem_cons_self, k, mem_singleton.1 hy⟩
  | ret _ none | breakLoop _ | continueLoop _ =>
    rw [mapM] at hy
    cases hy
  | ifElse _ c t none | whileDo _ c t =>
    rw [mapM] at hy
    rcases mem_cons.1 hy with rfl | hy
    · exact ⟨c, mem_cons_self, k, rfl⟩
    · obtain ⟨e, he, hy⟩ := exists_of_mem_mapListM t hy
      exact ⟨e, mem_cons_of_mem _ he, hy⟩
  | ifElse _ c t (some e) =>
    rw [mapM] at hy
    rcases mem_cons.1 hy with rfl | hy
    · exact ⟨c, mem_cons_self, k, rfl⟩
    rcases mem_append.1 hy with hy | hy
    · obtain ⟨x, hx, hy⟩ := exists_of_mem_mapListM t hy
      exact ⟨x, mem_cons_of_mem _ (mem_append_left _ hx), hy⟩
    · obtain ⟨x, hx, hy⟩ := exists_of_mem_mapListM e hy
      exact ⟨x, mem_cons_of_mem _ (mem_append_right _ hx), hy⟩

lemma exists_of_mem_mapListM (ts : List (Stmt ε)) {k : σ} {y : δ}
    (hy : y ∈ exprsAll (mapListM g ts k).1) : ∃ e ∈ exprsAll ts, ∃ k', y = (g e k').1 := by
  match ts with
  | [] =>
    rw [mapListM] at hy
    cases hy
  | t :: ts =>
    rw [mapListM] at hy
    rcases mem_append.1 hy with hy | hy
    · obtain ⟨x, hx, hy⟩ := exists_of_mem_mapM t hy
      exact ⟨x, mem_append_left _ hx, hy⟩
    · obtain ⟨x, hx, hy⟩ := exists_of_mem_mapListM ts hy
      exact ⟨x, mem_append_right _ hx, hy⟩

end

mutual

lemma map_mapM {h : δ → ε} (hg : ∀ e k, h (g e k).1 = e) (t : Stmt ε) (k : σ) :
    (t.mapM g k).1.map h = t := by
  match t with
  | letVar _ _ e | assign _ _ e | expr _ e | ret _ (some e) =>
    simp only [mapM, run_bind, run_pure, map, hg]
  | ret _ none | breakLoop _ | continueLoop _ => simp only [mapM, run_pure, map]
  | ifElse _ c t none | whileDo _ c t =>
    simp only [mapM, run_bind, run_pure, map, hg, mapList_mapListM hg t]
  | ifElse _ c t (some e) =>
    simp only [mapM, run_bind, run_pure, map, hg, mapList_mapListM hg t, mapList_mapListM hg e]

lemma mapList_mapListM {h : δ → ε} (hg : ∀ e k, h (g e k).1 = e) (ts : List (Stmt ε)) (k : σ) :
    mapList h (mapListM g ts k).1 = ts := by
  match ts with
  | [] => rfl
  | t :: ts =>
    simp only [mapListM, run_bind, run_pure, mapList, map_mapM hg t, mapList_mapListM hg ts]

end

end Origin

/-- The rules that demand of an expression what `r` demands of what it becomes. -/
def Rules.comap (h : ε → δ) (r : Rules δ) : Rules ε where
  bind v e := r.bind v (h e)
  value e := r.value (h e)
  ret e := r.ret (e.map h)
  cond e := r.cond (h e)

section Map

variable {h : ε → δ} {r : Rules δ}

mutual

lemma obeys_map (t : Stmt ε) : (t.map h).Obeys r ↔ t.Obeys (r.comap h) := by
  match t with
  | letVar _ _ _ | assign _ _ _ | expr _ _ | ret _ none | ret _ (some _) | breakLoop _
  | continueLoop _ => rfl
  | ifElse _ _ t none | whileDo _ _ t => exact and_congr_right fun _ => allObey_mapList t
  | ifElse _ _ t (some e) =>
    exact and_congr_right fun _ => and_congr (allObey_mapList t) (allObey_mapList e)

lemma allObey_mapList (ts : List (Stmt ε)) : AllObey r (mapList h ts) ↔ AllObey (r.comap h) ts := by
  match ts with
  | [] => rfl
  | t :: ts => exact and_congr (obeys_map t) (allObey_mapList ts)

end

mutual

lemma exprs_map (t : Stmt ε) : (t.map h).exprs = t.exprs.map h := by
  match t with
  | letVar _ _ _ | assign _ _ _ | expr _ _ | ret _ none | ret _ (some _) | breakLoop _
  | continueLoop _ => rfl
  | ifElse _ _ t none | whileDo _ _ t => exact congrArg _ (exprsAll_mapList t)
  | ifElse _ _ t (some e) =>
    simp only [map, exprs, exprsAll_mapList t, exprsAll_mapList e, map_cons, map_append]

lemma exprsAll_mapList (ts : List (Stmt ε)) : exprsAll (mapList h ts) = (exprsAll ts).map h := by
  match ts with
  | [] => rfl
  | t :: ts =>
    simp only [mapList, exprsAll, exprs_map t, exprsAll_mapList ts, map_append]

end

end Map

/-! ## Walks that count -/

section Count

variable {g : ε → StateM Nat δ} {count : ε → Nat}

mutual

lemma mapM_snd (hg : ∀ e k, (g e k).2 = k + count e) (t : Stmt ε) (k : Nat) :
    (t.mapM g k).2 = k + (t.exprs.map count).sum := by
  match t with
  | letVar _ _ e | assign _ _ e | expr _ e | ret _ (some e) =>
    simp only [mapM, run_bind, run_pure, exprs, map_cons, map_nil, sum_singleton, hg]
  | ret _ none | breakLoop _ | continueLoop _ =>
    simp only [mapM, run_pure, exprs, map_nil, sum_nil, Nat.add_zero]
  | ifElse _ c t none | whileDo _ c t =>
    simp only [mapM, run_bind, run_pure, exprs, map_cons, sum_cons, hg,
      mapListM_snd hg t, Nat.add_assoc]
  | ifElse _ c t (some e) =>
    simp only [mapM, run_bind, run_pure, exprs, map_cons, map_append, sum_cons,
      sum_append, hg, mapListM_snd hg t, mapListM_snd hg e, Nat.add_assoc]

lemma mapListM_snd (hg : ∀ e k, (g e k).2 = k + count e) (ts : List (Stmt ε)) (k : Nat) :
    (mapListM g ts k).2 = k + ((exprsAll ts).map count).sum := by
  match ts with
  | [] => rfl
  | t :: ts =>
    simp only [mapListM, run_bind, run_pure, exprsAll, map_append, sum_append,
      mapM_snd hg t, mapListM_snd hg ts, Nat.add_assoc]

end

/-- What obeys `r` is taken to what obeys `q` when the count goes from `lo` to `hi`. -/
structure Rules.Counts (r : Rules ε) (g : ε → StateM Nat δ) (count : ε → Nat) (lo hi : Nat)
    (q : Rules δ) : Prop where
  bind : ∀ {v e k}, lo ≤ k → k + count e ≤ hi → r.bind v e → q.bind v (g e k).1
  value : ∀ {e k}, lo ≤ k → k + count e ≤ hi → r.value e → q.value (g e k).1
  none : r.ret none → q.ret none
  ret : ∀ {e k}, lo ≤ k → k + count e ≤ hi → r.ret (some e) → q.ret (some (g e k).1)
  cond : ∀ {e k}, lo ≤ k → k + count e ≤ hi → r.cond e → q.cond (g e k).1

mutual

lemma obeys_mapM {r : Rules ε} {q : Rules δ} {lo hi : Nat}
    (hg : ∀ e k, (g e k).2 = k + count e) (hr : r.Counts g count lo hi q) (t : Stmt ε) {k : Nat}
    (hlo : lo ≤ k) (hhi : k + (t.exprs.map count).sum ≤ hi) (ht : t.Obeys r) :
    (t.mapM g k).1.Obeys q := by
  match t with
  | letVar _ _ e | assign _ _ e =>
    simp only [exprs, map_cons, map_nil, sum_singleton] at hhi
    exact hr.bind hlo hhi ht
  | expr _ e =>
    simp only [exprs, map_cons, map_nil, sum_singleton] at hhi
    exact hr.value hlo hhi ht
  | ret _ (some e) =>
    simp only [exprs, map_cons, map_nil, sum_singleton] at hhi
    exact hr.ret hlo hhi ht
  | ret _ none => exact hr.none ht
  | breakLoop _ | continueLoop _ => trivial
  | ifElse _ c t none | whileDo _ c t =>
    simp only [exprs, map_cons, sum_cons, ← Nat.add_assoc] at hhi
    simp only [mapM, run_bind, run_pure, hg]
    exact ⟨hr.cond hlo (Nat.le_trans (Nat.le_add_right _ _) hhi) ht.1,
      obeys_mapListM hg hr t (Nat.le_add_right_of_le hlo) hhi ht.2⟩
  | ifElse _ c t (some e) =>
    simp only [exprs, map_cons, map_append, sum_cons, sum_append,
      ← Nat.add_assoc] at hhi
    simp only [mapM, run_bind, run_pure, hg, mapListM_snd hg]
    have hthen := Nat.le_trans (Nat.le_add_right _ _) hhi
    exact ⟨hr.cond hlo (Nat.le_trans (Nat.le_add_right _ _) hthen) ht.1,
      obeys_mapListM hg hr t (Nat.le_add_right_of_le hlo) hthen ht.2.1,
      obeys_mapListM hg hr e (Nat.le_add_right_of_le (Nat.le_add_right_of_le hlo)) hhi ht.2.2⟩

lemma obeys_mapListM {r : Rules ε} {q : Rules δ} {lo hi : Nat}
    (hg : ∀ e k, (g e k).2 = k + count e) (hr : r.Counts g count lo hi q) (ts : List (Stmt ε))
    {k : Nat} (hlo : lo ≤ k) (hhi : k + ((exprsAll ts).map count).sum ≤ hi)
    (hts : AllObey r ts) : AllObey q (mapListM g ts k).1 := by
  match ts with
  | [] => trivial
  | t :: ts =>
    simp only [exprsAll, map_append, sum_append, ← Nat.add_assoc] at hhi
    simp only [mapListM, run_bind, run_pure, mapM_snd hg]
    exact ⟨obeys_mapM hg hr t hlo (Nat.le_trans (Nat.le_add_right _ _) hhi) hts.1,
      obeys_mapListM hg hr ts (Nat.le_add_right_of_le hlo) hhi hts.2⟩

end

mutual

lemma mapM_shift {h : δ → δ} {k k' : Nat} (hg : ∀ e k, (g e k).2 = k + count e) (t : Stmt ε)
    {i n : Nat} (hn : i + (t.exprs.map count).sum ≤ n)
    (hh : ∀ e ∈ t.exprs, ∀ i, i + count e ≤ n → (g e (k' + i)).1 = h (g e (k + i)).1) :
    (t.mapM g (k' + i)).1 = (t.mapM g (k + i)).1.map h := by
  match t with
  | letVar _ _ e | assign _ _ e | expr _ e | ret _ (some e) =>
    simp only [exprs, map_cons, map_nil, sum_singleton] at hn
    simp only [mapM, run_bind, run_pure, map, hh e mem_cons_self i hn]
  | ret _ none | breakLoop _ | continueLoop _ => simp only [mapM, run_pure, map]
  | ifElse _ c t none | whileDo _ c t =>
    simp only [exprs, map_cons, sum_cons, ← Nat.add_assoc] at hn
    have hc := hh c mem_cons_self i (Nat.le_trans (Nat.le_add_right _ _) hn)
    have ht := mapListM_shift hg t hn fun e he => hh e (mem_cons_of_mem _ he)
    simp only [mapM, run_bind, run_pure, hg, map, hc, Nat.add_assoc, ht]
  | ifElse _ c t (some e) =>
    simp only [exprs, map_cons, map_append, sum_cons, sum_append,
      ← Nat.add_assoc] at hn
    have hthen := Nat.le_trans (Nat.le_add_right _ _) hn
    have hc := hh c mem_cons_self i (Nat.le_trans (Nat.le_add_right _ _) hthen)
    have ht := mapListM_shift hg t hthen fun e he =>
      hh e (mem_cons_of_mem _ (mem_append_left _ he))
    have he := mapListM_shift hg e hn fun e he =>
      hh e (mem_cons_of_mem _ (mem_append_right _ he))
    simp only [mapM, run_bind, run_pure, hg, map, hc, mapListM_snd hg, Nat.add_assoc] at ht he ⊢
    rw [ht, he]

lemma mapListM_shift {h : δ → δ} {k k' : Nat} (hg : ∀ e k, (g e k).2 = k + count e)
    (ts : List (Stmt ε)) {i n : Nat} (hn : i + ((exprsAll ts).map count).sum ≤ n)
    (hh : ∀ e ∈ exprsAll ts, ∀ i, i + count e ≤ n → (g e (k' + i)).1 = h (g e (k + i)).1) :
    (mapListM g ts (k' + i)).1 = mapList h (mapListM g ts (k + i)).1 := by
  match ts with
  | [] => rfl
  | t :: ts =>
    simp only [exprsAll, map_append, sum_append, ← Nat.add_assoc] at hn
    have ht := mapM_shift hg t (Nat.le_trans (Nat.le_add_right _ _) hn)
      fun e he => hh e (mem_append_left _ he)
    have hts := mapListM_shift hg ts hn fun e he => hh e (mem_append_right _ he)
    simp only [mapListM, run_bind, run_pure, mapM_snd hg, mapList, ht, Nat.add_assoc] at hts ⊢
    rw [hts]

end

end Count

mutual

lemma obeys_all {P : ε → Prop} (t : Stmt ε) : t.Obeys (.all P) ↔ ∀ e ∈ t.exprs, P e := by
  match t with
  | letVar _ _ e | assign _ _ e | expr _ e | ret _ none | ret _ (some e) | breakLoop _
  | continueLoop _ => simp [Obeys, Rules.all, exprs]
  | ifElse _ c t none | whileDo _ c t =>
    exact (and_congr_right fun _ => allObey_all t).trans forall_mem_cons.symm
  | ifElse _ c t (some e) =>
    rw [exprs, forall_mem_cons, forall_mem_append, ← allObey_all t, ← allObey_all e]
    rfl

lemma allObey_all {P : ε → Prop} (ts : List (Stmt ε)) :
    AllObey (.all P) ts ↔ ∀ e ∈ exprsAll ts, P e := by
  match ts with
  | [] => exact iff_of_true trivial (forall_mem_nil _)
  | t :: ts => exact (and_congr (obeys_all t) (allObey_all ts)).trans forall_mem_append.symm

end

mutual

lemma map_map_of_forall {g : δ → ε} {h : ε → δ} (t : Stmt ε)
    (ht : ∀ e ∈ t.exprs, g (h e) = e) : (t.map h).map g = t := by
  match t with
  | letVar _ _ e | assign _ _ e | expr _ e | ret _ (some e) =>
    simp only [map, ht e mem_cons_self]
  | ret _ none | breakLoop _ | continueLoop _ => rfl
  | ifElse _ c t none | whileDo _ c t =>
    obtain ⟨hc, ht⟩ := forall_mem_cons.1 ht
    simp only [map, hc, mapList_mapList_of_forall t ht]
  | ifElse _ c t (some e) =>
    obtain ⟨hc, hrest⟩ := forall_mem_cons.1 ht
    obtain ⟨ht, he⟩ := forall_mem_append.1 hrest
    simp only [map, hc, mapList_mapList_of_forall t ht, mapList_mapList_of_forall e he]

lemma mapList_mapList_of_forall {g : δ → ε} {h : ε → δ} (ts : List (Stmt ε))
    (hts : ∀ e ∈ exprsAll ts, g (h e) = e) : mapList g (mapList h ts) = ts := by
  match ts with
  | [] => rfl
  | t :: ts =>
    obtain ⟨ht, hts⟩ := forall_mem_append.1 hts
    simp only [mapList, map_map_of_forall t ht, mapList_mapList_of_forall ts hts]

end

end VecLang.Stmt
