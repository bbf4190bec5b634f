import VecLang.Stmt
import VecLang.Proofs.Stateful

/-!
# Statements over any expressions

What the stages of the compiler do to statements is the same for all kinds of expressions:
expressions are replaced and the statements around them stay (`map`), and what a program
demands of expressions depends on where they stand (`Rules`).
-/

namespace VecLang.Stmt

variable {ε δ γ : Type}

mutual

def map (f : ε → δ) : Stmt ε → Stmt δ
  | letVar s v e => letVar s v (f e)
  | assign s v e => assign s v (f e)
  | expr s e => expr s (f e)
  | ret s none => ret s none
  | ret s (some e) => ret s (some (f e))
  | breakLoop s => breakLoop s
  | continueLoop s => continueLoop s
  | ifElse s c t none => ifElse s (f c) (mapList f t) none
  | ifElse s c t (some e) => ifElse s (f c) (mapList f t) (some (mapList f e))
  | whileDo s c body => whileDo s (f c) (mapList f body)

def mapList (f : ε → δ) : List (Stmt ε) → List (Stmt δ)
  | [] => []
  | t :: ts => map f t :: mapList f ts

end

structure Rules (ε : Type) where
  /-- The value that a variable is given. -/
  bind : VarId → ε → Prop
  /-- An expression that is only evaluated. -/
  value : ε → Prop
  /-- What a function returns. -/
  ret : Option ε → Prop
  cond : ε → Prop

def Rules.all (P : ε → Prop) : Rules ε where
  bind _ e := P e
  value e := P e
  ret e := ∀ x ∈ e, P x
  cond e := P e

mutual

def Obeys (r : Rules ε) : Stmt ε → Prop
  | letVar _ v e => r.bind v e
  | assign _ v e => r.bind v e
  | expr _ e => r.value e
  | ret _ e => r.ret e
  | breakLoop _ => True
  | continueLoop _ => True
  | ifElse _ c t none => r.cond c ∧ AllObey r t
  | ifElse _ c t (some e) => r.cond c ∧ AllObey r t ∧ AllObey r e
  | whileDo _ c body => r.cond c ∧ AllObey r body

def AllObey (r : Rules ε) : List (Stmt ε) → Prop
  | [] => True
  | t :: ts => Obeys r t ∧ AllObey r ts

end

structure Rules.Implies (r q : Rules ε) : Prop where
  bind : ∀ {v e}, r.bind v e → q.bind v e
  value : ∀ {e}, r.value e → q.value e
  ret : ∀ {e}, r.ret e → q.ret e
  cond : ∀ {e}, r.cond e → q.cond e

mutual

lemma Obeys.mono {r q : Rules ε} (h : r.Implies q) (t : Stmt ε) (ht : t.Obeys r) : t.Obeys q := by
  match t with
  | letVar _ _ _ | assign _ _ _ => exact h.bind ht
  | expr _ _ => exact h.value ht
  | ret _ _ => exact h.ret ht
  | breakLoop _ | continueLoop _ => exact ht
  | ifElse _ _ t none | whileDo _ _ t => exact ⟨h.cond ht.1, AllObey.mono h t ht.2⟩
  | ifElse _ _ t (some e) =>
    exact ⟨h.cond ht.1, AllObey.mono h t ht.2.1, AllObey.mono h e ht.2.2⟩

lemma AllObey.mono {r q : Rules ε} (h : r.Implies q) (ts : List (Stmt ε))
    (ht : AllObey r ts) : AllObey q ts := by
  match ts with
  | [] => trivial
  | t :: ts => exact ⟨Obeys.mono h t ht.1, AllObey.mono h ts ht.2⟩

end

def Rules.and (r q : Rules ε) : Rules ε where
  bind v e := r.bind v e ∧ q.bind v e
  value e := r.value e ∧ q.value e
  ret e := r.ret e ∧ q.ret e
  cond e := r.cond e ∧ q.cond e

mutual

lemma Obeys.and {r q : Rules ε} (t : Stmt ε) (hr : t.Obeys r) (hq : t.Obeys q) :
    t.Obeys (r.and q) := by
  match t with
  | letVar _ _ _ | assign _ _ _ | expr _ _ | ret _ _ => exact ⟨hr, hq⟩
  | breakLoop _ | continueLoop _ => trivial
  | ifElse _ _ t none | whileDo _ _ t => exact ⟨⟨hr.1, hq.1⟩, hr.2.and t hq.2⟩
  | ifElse _ _ t (some e) =>
    exact ⟨⟨hr.1, hq.1⟩, hr.2.1.and t hq.2.1, hr.2.2.and e hq.2.2⟩

lemma AllObey.and {r q : Rules ε} (ts : List (Stmt ε)) (hr : AllObey r ts)
    (hq : AllObey q ts) : AllObey (r.and q) ts := by
  match ts with
  | [] => trivial
  | t :: ts => exact ⟨hr.1.and t hq.1, hr.2.and ts hq.2⟩

end

section Decidable

variable (r : Rules ε) [∀ v e, Decidable (r.bind v e)] [∀ e, Decidable (r.value e)]
  [∀ e, Decidable (r.ret e)] [∀ e, Decidable (r.cond e)]

mutual

def decidableObeys : (t : Stmt ε) → Decidable (t.Obeys r)
  | letVar _ v e => inferInstanceAs (Decidable (r.bind v e))
  | assign _ v e => inferInstanceAs (Decidable (r.bind v e))
  | expr _ e => inferInstanceAs (Decidable (r.value e))
  | ret _ e => inferInstanceAs (Decidable (r.ret e))
  | breakLoop _ => inferInstanceAs (Decidable True)
  | continueLoop _ => inferInstanceAs (Decidable True)
  | ifElse _ c t none =>
    have := decidableAllObey t
    inferInstanceAs (Decidable (r.cond c ∧ AllObey r t))
  | ifElse _ c t (some e) =>
    have := decidableAllObey t
    have := decidableAllObey e
    inferInstanceAs (Decidable (r.cond c ∧ AllObey r t ∧ AllObey r e))
  | whileDo _ c body =>
    have := decidableAllObey body
    inferInstanceAs (Decidable (r.cond c ∧ AllObey r body))

/-- Whether every expression of statements is as demanded can be found out. -/
def decidableAllObey : (ts : List (Stmt ε)) → Decidable (AllObey r ts)
  | [] => inferInstanceAs (Decidable True)
  | t :: ts =>
    have := decidableObeys t
    have := decidableAllObey ts
    inferInstanceAs (Decidable (Obeys r t ∧ AllObey r ts))

end

instance (ts : List (Stmt ε)) : Decidable (AllObey r ts) := decidableAllObey r ts

end Decidable

section MapM

open Stateful

variable {σ κ : Type} {f : ε → StateT σ (Except κ) δ} {s : σ} {g : δ → γ} {k : ε → γ}

/-- In the state `s`, which it keeps, `f` takes expressions as `r` demands to expressions as
`q` demands, and these stand for the same (`g`, `k`). -/
structure Rules.Takes (r : Rules ε) (f : ε → StateT σ (Except κ) δ) (s : σ) (q : Rules δ)
    (g : δ → γ) (k : ε → γ) : Prop where
  bind : ∀ {v e}, r.bind v e → ∃ x, f e s = .ok (x, s) ∧ g x = k e ∧ q.bind v x
  value : ∀ {e}, r.value e → ∃ x, f e s = .ok (x, s) ∧ g x = k e ∧ q.value x
  none : r.ret none → q.ret none
  ret : ∀ {e}, r.ret (some e) → ∃ x, f e s = .ok (x, s) ∧ g x = k e ∧ q.ret (some x)
  cond : ∀ {e}, r.cond e → ∃ x, f e s = .ok (x, s) ∧ g x = k e ∧ q.cond x

mutual

lemma exists_mapM {r : Rules ε} {q : Rules δ} (hf : r.Takes f s q g k) (t : Stmt ε)
    (ht : t.Obeys r) : ∃ u, t.mapM f s = .ok (u, s) ∧ u.map g = t.map k ∧ u.Obeys q := by
  match t with
  | letVar _ _ _ | assign _ _ _ =>
    obtain ⟨x, hx, hg, hq⟩ := hf.bind ht
    rw [mapM, bind_of_eq_ok hx]
    exact ⟨_, rfl, by rw [map, map, hg], hq⟩
  | expr _ _ =>
    obtain ⟨x, hx, hg, hq⟩ := hf.value ht
    rw [mapM, bind_of_eq_ok hx]
    exact ⟨_, rfl, by rw [map, map, hg], hq⟩
  | ret _ none =>
    rw [mapM]
    exact ⟨_, rfl, by rw [map, map], hf.none ht⟩
  | ret _ (some _) =>
    obtain ⟨x, hx, hg, hq⟩ := hf.ret ht
    rw [mapM, bind_of_eq_ok hx]
    exact ⟨_, rfl, by rw [map, map, hg], hq⟩
  | breakLoop _ | continueLoop _ =>
    rw [mapM]
    exact ⟨_, rfl, by rw [map, map], trivial⟩
  | ifElse _ _ t none | whileDo _ _ t =>
    obtain ⟨x, hx, hg, hq⟩ := hf.cond ht.1
    obtain ⟨us, hus, hgs, hqs⟩ := exists_mapListM hf t ht.2
    rw [mapM, bind_of_eq_ok hx, bind_of_eq_ok hus]
    exact ⟨_, rfl, by rw [map, map, hg, hgs], hq, hqs⟩
  | ifElse _ _ t (some e) =>
    obtain ⟨x, hx, hg, hq⟩ := hf.cond ht.1
    obtain ⟨us, hus, hgs, hqs⟩ := exists_mapListM hf t ht.2.1
    obtain ⟨vs, hvs, hgs', hqs'⟩ := exists_mapListM hf e ht.2.2
    rw [mapM, bind_of_eq_ok hx, bind_of_eq_ok hus, bind_of_eq_ok hvs]
    exact ⟨_, rfl, by rw [map, map, hg, hgs, hgs'], hq, hqs, hqs'⟩

lemma exists_mapListM {r : Rules ε} {q : Rules δ} (hf : r.Takes f s q g k) (ts : List (Stmt ε))
    (ht : AllObey r ts) :
    ∃ us, mapListM f ts s = .ok (us, s) ∧ mapList g us = mapList k ts ∧ AllObey q us := by
  match ts with
  | [] =>
    rw [mapListM]
    exact ⟨_, rfl, rfl, trivial⟩
  | t :: ts =>
    obtain ⟨u, hu, hg, hq⟩ := exists_mapM hf t ht.1
    obtain ⟨us, hus, hgs, hqs⟩ := exists_mapListM hf ts ht.2
    rw [mapListM, bind_of_eq_ok hu, bind_of_eq_ok hus]
    exact ⟨_, rfl, by rw [mapList, mapList, hg, hgs], hq, hqs⟩

end

end MapM

/-! ## Scopes -/

/-- The variables that a statement adds to those of the statements after it. -/
def declares : Stmt ε → List VarId
  | letVar _ v _ => [v]
  | _ => []

mutual

/-- How many variables a statement declares, with the statements inside it. -/
def numLets : Stmt ε → Nat
  | letVar _ _ _ => 1
  | ifElse _ _ t none => numLetsAll t
  | ifElse _ _ t (some e) => numLetsAll t + numLetsAll e
  | whileDo _ _ body => numLetsAll body
  | _ => 0

def numLetsAll : List (Stmt ε) → Nat
  | [] => 0
  | t :: ts => numLets t + numLetsAll ts

end

mutual

/-- A statement at a place where the variables `V` are visible and `lo` is the number of the
next variable: what it declares is numbered from `lo` on, what it assigns to is visible, and
its expressions are as `E` demands where they stand. -/
def Scoped (E : List VarId → ε → Prop) (inLoop : Bool) (V : List VarId) (lo : VarId) : Stmt ε → Prop
  | letVar _ v e => E V e ∧ v = lo
  | assign _ v e => E V e ∧ v ∈ V
  | expr _ e => E V e
  | ret _ none => True
  | ret _ (some e) => E V e
  | breakLoop _ => inLoop = true
  | continueLoop _ => inLoop = true
  | ifElse _ c t none => E V c ∧ AllScoped E inLoop V lo t
  | ifElse _ c t (some e) =>
    E V c ∧ AllScoped E inLoop V lo t ∧ AllScoped E inLoop V (lo + numLetsAll t) e
  | whileDo _ c body => E V c ∧ AllScoped E true V lo body

/-- Statements in order, each seeing what those before it declare. -/
def AllScoped (E : List VarId → ε → Prop) (inLoop : Bool) (V : List VarId) (lo : VarId) :
    List (Stmt ε) → Prop
  | [] => True
  | t :: ts =>
    Scoped E inLoop V lo t ∧ AllScoped E inLoop (t.declares ++ V) (lo + numLets t) ts

end

lemma declares_map (g : ε → δ) (t : Stmt ε) : (t.map g).declares = t.declares := by
  match t with
  | letVar _ _ _ | assign _ _ _ | expr _ _ | ret _ none | ret _ (some _) | breakLoop _
  | continueLoop _ | ifElse _ _ _ none | ifElse _ _ _ (some _) | whileDo _ _ _ =>
    simp only [map, declares]

mutual

lemma numLets_map (g : ε → δ) (t : Stmt ε) : (t.map g).numLets = t.numLets := by
  match t with
  | letVar _ _ _ | assign _ _ _ | expr _ _ | ret _ none | ret _ (some _) | breakLoop _
  | continueLoop _ => simp only [map, numLets]
  | ifElse _ _ t none | whileDo _ _ t => simp only [map, numLets, numLetsAll_mapList g t]
  | ifElse _ _ t (some e) =>
    simp only [map, numLets, numLetsAll_mapList g t, numLetsAll_mapList g e]

lemma numLetsAll_mapList (g : ε → δ) (ts : List (Stmt ε)) :
    numLetsAll (mapList g ts) = numLetsAll ts := by
  match ts with
  | [] => rfl
  | t :: ts => simp only [mapList, numLetsAll, numLets_map g t, numLetsAll_mapList g ts]

end

mutual

lemma scoped_map (g : ε → δ) {E : List VarId → δ → Prop} {inLoop : Bool} {V : List VarId}
    {lo : VarId} (t : Stmt ε) :
    Scoped E inLoop V lo (t.map g) ↔ Scoped (fun V e => E V (g e)) inLoop V lo t := by
  match t with
  | letVar _ _ _ | assign _ _ _ | expr _ _ | ret _ none | ret _ (some _) | breakLoop _
  | continueLoop _ => simp only [map, Scoped]
  | ifElse _ _ t none | whileDo _ _ t => simp only [map, Scoped, allScoped_mapList g t]
  | ifElse _ _ t (some e) =>
    simp only [map, Scoped, allScoped_mapList g t, allScoped_mapList g e, numLetsAll_mapList]

lemma allScoped_mapList (g : ε → δ) {E : List VarId → δ → Prop} {inLoop : Bool}
    {V : List VarId} {lo : VarId} (ts : List (Stmt ε)) :
    AllScoped E inLoop V lo (mapList g ts) ↔ AllScoped (fun V e => E V (g e)) inLoop V lo ts := by
  match ts with
  | [] => simp only [mapList, AllScoped]
  | t :: ts =>
    simp only [mapList, AllScoped, scoped_map g t, allScoped_mapList g ts, declares_map,
      numLets_map]

end

/-- The rules that demand the same of all expressions and the same of all variables that are
given a value. -/
def Rules.over (P : VarId → Prop) (Q : ε → Prop) : Rules ε where
  bind v e := P v ∧ Q e
  value e := Q e
  ret e := ∀ x ∈ e, Q x
  cond e := Q e

section Over

variable {E : List VarId → ε → Prop} {P : VarId → Prop} {Q : ε → Prop}

mutual

lemma Scoped.over (hE : ∀ {V e}, (∀ v ∈ V, P v) → E V e → Q e) (t : Stmt ε)
    {inLoop : Bool} {V : List VarId} {lo : VarId} (hV : ∀ v ∈ V, P v) (hP : ∀ v, lo ≤ v → v < lo + t.numLets → P v)
    (h : Scoped E inLoop V lo t) : t.Obeys (.over P Q) := by
  match t with
  | letVar _ v e =>
    obtain ⟨he, rfl⟩ := h
    exact ⟨hP v (Nat.le_refl _) (Nat.lt_succ_self _), hE hV he⟩
  | assign _ v e => exact ⟨hV v h.2, hE hV h.1⟩
  | expr _ e => exact hE hV h
  | ret _ none => exact fun x hx => nomatch hx
  | ret _ (some e) =>
    rintro x ⟨rfl⟩
    exact hE hV h
  | breakLoop _ | continueLoop _ => trivial
  | ifElse _ c t none | whileDo _ c t => exact ⟨hE hV h.1, h.2.over hE t hV hP⟩
  | ifElse _ c t (some e) =>
    rw [numLets] at hP
    refine ⟨hE hV h.1, h.2.1.over hE t hV fun v hlo hhi => ?_,
      h.2.2.over hE e hV fun v hlo hhi => ?_⟩
    · exact hP v hlo (Nat.lt_of_lt_of_le hhi (Nat.add_le_add_left (Nat.le_add_right _ _) _))
    · exact hP v (Nat.le_trans (Nat.le_add_right _ _) hlo) (by rwa [← Nat.add_assoc])

/-- What holds of all variables that are visible or numbered from `lo` on holds of all
variables that statements give a value. -/
lemma AllScoped.over (hE : ∀ {V e}, (∀ v ∈ V, P v) → E V e → Q e) (ts : List (Stmt ε))
    {inLoop : Bool} {V : List VarId} {lo : VarId} (hV : ∀ v ∈ V, P v) (hP : ∀ v, lo ≤ v → v < lo + numLetsAll ts → P v)
    (h : AllScoped E inLoop V lo ts) : AllObey (.over P Q) ts := by
  match ts with
  | [] => trivial
  | t :: ts =>
    rw [numLetsAll] at hP
    have hhead : ∀ v, lo ≤ v → v < lo + t.numLets → P v := fun v hlo hhi =>
      hP v hlo (Nat.lt_of_lt_of_le hhi (Nat.add_le_add_left (Nat.le_add_right _ _) _))
    refine ⟨h.1.over hE t hV hhead, h.2.over hE ts (fun v hv => ?_) fun v hlo hhi => ?_⟩
    · rcases List.mem_append.1 hv with hv | hv
      · cases t with
        | letVar _ w e =>
          obtain ⟨-, rfl⟩ := h.1
          obtain rfl := List.mem_singleton.1 hv
          exact hhead v (Nat.le_refl _) (Nat.lt_succ_self _)
        | _ => cases hv
      · exact hV v hv
    · exact hP v (Nat.le_trans (Nat.le_add_right _ _) hlo) (by rwa [← Nat.add_assoc])

end

end Over

end VecLang.Stmt
