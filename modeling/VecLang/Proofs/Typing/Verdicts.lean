import VecLang.Proofs.Typing.Bodies

/-!
# How products and quotients are settled

How an operation is settled depends on the types that assignments give to its operands and its
result (`judge`). The verdicts on all operations, in the order they are given, are a function of
the assignments that are left and the operations that wait (`verdicts`). Settling leaves the
assignments that meet all verdicts, and it stops only if there is none.
-/

namespace VecLang.Typing

open ConstraintSets Stateful List
open Option hiding or_assoc

variable {table : SymbolTable} {s t u : InferState} {τ : Assignment} {p : Pending}

inductive Verdict where
  /-- The left operand is a vector that is scaled. -/
  | scaleLeft
  /-- The right operand is a vector that is scaled. -/
  | scaleRight
  /-- Operands and result are numbers of one type. -/
  | plain

def Verdict.Met (τ : Assignment) (p : Pending) : Verdict → Prop
  | scaleLeft =>
    p.left.at τ ∈ TypeVar.vec.members ∧ τ p.result = p.left.at τ ∧
      p.right.at τ ∈ (TypeVar.exact .real).members
  | scaleRight =>
    p.op = .mul ∧ p.right.at τ ∈ TypeVar.vec.members ∧ τ p.result = p.right.at τ ∧
      p.left.at τ ∈ (TypeVar.exact .real).members
  | plain =>
    p.left.at τ = p.right.at τ ∧ τ p.result = p.left.at τ ∧ p.left.at τ ∈ TypeVar.number.members

def Verdict.noted (p : Pending) (scaled : List VarId) : Verdict → List VarId
  | scaleLeft | scaleRight => p.result :: scaled
  | plain => scaled

lemma Verdict.mem_noted {v : Verdict} {scaled : List VarId} {w : VarId} :
    w ∈ v.noted p scaled ↔ w ∈ scaled ∨ v ≠ .plain ∧ p.result = w := by
  cases v <;> simp [noted, or_comm, eq_comm]

def AllVector (S : Assignment → Prop) (o : Operand) : Prop :=
  ∀ τ, S τ → o.at τ ∈ TypeVar.vec.members

def NoVector (S : Assignment → Prop) (o : Operand) : Prop := ∀ τ, S τ → o.at τ ∉ TypeVar.vec.members

open Classical in
/-- The verdict on an operation when the assignments `S` are left, if there is one. -/
noncomputable def judge (S : Assignment → Prop) (p : Pending) (force : Bool) : Option Verdict :=
  if AllVector S p.left ∨
      (AllVector S (.anchored p.result) ∧ (p.op ≠ .mul ∨ NoVector S p.right)) then
    some .scaleLeft
  else if p.op = .mul ∧
      (AllVector S p.right ∨ (AllVector S (.anchored p.result) ∧ NoVector S p.left)) then
    some .scaleRight
  else if force = true ∨ NoVector S (.anchored p.result) ∨
      (NoVector S p.left ∧ (p.op ≠ .mul ∨ NoVector S p.right)) then
    some .plain
  else none

lemma isSome_judge_force (S : Assignment → Prop) (p : Pending) : (judge S p true).isSome := by
  unfold judge
  split
  · rfl
  · split
    · rfl
    · rw [if_pos (.inl rfl)]
      rfl

/-! ## One operation -/

section Images

variable {S : Assignment → Prop} {o : Operand} {tv : TypeVar}

lemma isVector_iff {tv : TypeVar} : isVector tv = true ↔ tv.Refines .vec := by
  simp only [isVector, TypeVar.within, List.all_eq_true, contains_iff_mem]
  rfl

lemma isVector_iff_allVector (h : ∀ m, m ∈ tv.members ↔ ∃ τ, S τ ∧ o.at τ = m) :
    isVector tv = true ↔ AllVector S o := by
  rw [isVector_iff]
  constructor
  · exact fun hr τ hτ => hr _ ((h _).2 ⟨τ, hτ, rfl⟩)
  · intro hall m hm
    obtain ⟨τ, hτ, rfl⟩ := (h m).1 hm
    exact hall τ hτ

lemma noVector_iff_noVector (h : ∀ m, m ∈ tv.members ↔ ∃ τ, S τ ∧ o.at τ = m)
    (hne : ∃ τ, S τ) : noVector tv = true ↔ NoVector S o := by
  obtain ⟨σ, hσ⟩ := hne
  rw [noVector, isNone_iff_eq_none]
  constructor
  · exact fun hj τ hτ => TypeVar.not_mem_of_join_eq_none hj ((h _).2 ⟨τ, hτ, rfl⟩)
  · intro hno
    cases hj : tv.join .vec with
    | none => rfl
    | some j =>
      have hmem : tv.members ≠ [] := ne_nil_of_mem ((h _).2 ⟨σ, hσ, rfl⟩)
      obtain ⟨m, hm⟩ := exists_mem_of_ne_nil _
        (TypeVar.members_join_ne_nil hj hmem (by decide))
      obtain ⟨hl, hr⟩ := (TypeVar.mem_join hj).1 hm
      obtain ⟨τ, hτ, rfl⟩ := (h m).1 hl
      exact absurd hr (hno τ hτ)

end Images

structure Judged (table : SymbolTable) (s t : InferState) (p : Pending) (v : Verdict) : Prop where
  solid : Solid table t
  grows : s.sets.Narrows t.sets
  same : t = { s with sets := t.sets, scaled := v.noted p s.scaled }
  solves : ∀ τ, t.Solves τ ↔ s.Solves τ ∧ v.Met τ p

lemma ends_settleScaling {vec scalar : Operand} {span : Span} (hs : Solid table s)
    (hp : Entered s p.result) (hv : vec.Sound s) (hr : scalar.Sound s) :
    Ends (settleScaling p vec scalar span) s (fun _ t => Solid table t ∧ s.sets.Narrows t.sets ∧
        t = { s with sets := t.sets, scaled := p.result :: s.scaled } ∧
        ∀ τ, t.Solves τ ↔ s.Solves τ ∧ τ p.result = vec.at τ ∧
          scalar.at τ ∈ (TypeVar.exact .real).members) (∀ τ, s.Solves τ →
        ¬ (τ p.result = vec.at τ ∧ scalar.at τ ∈ (TypeVar.exact .real).members)) := by
  refine (ends_unify (l := .anchored p.result) hs hp hv).bind ?_ ?_
  · exact fun hno τ hτ h => hno τ hτ h.1
  rintro o s1 - ⟨-, hn1⟩
  refine (ends_constrain hn1.solid (hr.mono hn1.grows) (by decide)).bind ?_ ?_
  · exact fun hno τ hτ h => hno τ ((hn1.solves τ).2 ⟨hτ, h.1⟩) h.2
  rintro o' s2 - ⟨-, hn2⟩
  have hn := hn1.trans hn2
  have hsane := hn.solid.sane
  refine .of_modify ⟨⟨⟨hsane.indexed, hsane.seeded, hsane.below, hsane.base, hsane.waiting,
    hsane.distinct⟩, hn.solid.nonVoid⟩, hn.grows, ?_, fun τ => ?_⟩
  · rw [hn.same]
  · refine Iff.trans ?_ (hn.solves τ)
    exact ⟨fun h => ⟨h.proper, h.sets⟩, fun h => ⟨h.proper, h.sets⟩⟩

lemma ends_settlePlain (hs : Solid table s) (hp : Placed s p) :
    Ends (settlePlain p) s (fun _ t => Judged table s t p .plain)
      (∀ τ, s.Solves τ → ¬ Verdict.plain.Met τ p) := by
  obtain ⟨hl, hr, hx⟩ := hp
  refine (ends_unify hs hl hr).bind (fun hno τ hτ h => hno τ hτ h.1) ?_
  rintro o s1 - ⟨rfl, hn1⟩
  have hjoined := (hl.joined hr).mono hn1.grows
  refine (ends_unify (l := .anchored p.result) hn1.solid (hx.mono hn1.grows) hjoined).bind ?_ ?_
  · intro hno τ hτ h
    refine hno τ ((hn1.solves τ).2 ⟨hτ, h.1⟩) ?_
    rw [Operand.at_joined h.1]
    exact h.2.1
  rintro o s2 - ⟨rfl, hn2⟩
  have hn := hn1.trans hn2
  refine (ends_constrain (o := .anchored p.result) hn.solid (hx.mono hn.grows) (by decide)).bind
    ?_ ?_
  · intro hno τ hτ h
    refine hno τ ((hn.solves τ).2 ⟨hτ, h.1, ?_⟩) ?_
    · rw [Operand.at_joined h.1]
      exact h.2.1
    · change τ p.result ∈ _
      rw [h.2.1]
      exact h.2.2
  rintro o s3 - ⟨-, hn3⟩
  have hall := hn.trans hn3
  refine .of_pure ⟨hall.solid, hall.grows, hall.same, fun τ => ?_⟩
  rw [hall.solves, and_assoc]
  refine and_congr_right fun _ => and_congr_right fun heq => ?_
  rw [Operand.at_joined heq]
  exact and_congr_right fun hres => by rw [← hres]

lemma ends_settle {force : Bool} (hs : Solid table s) (hp : Placed s p) :
    Ends (settle p force) s (fun done t => (judge s.Solves p force = none ∧ done = false ∧ s = t) ∨
        ∃ v, judge s.Solves p force = some v ∧ done = true ∧ Judged table s t p v)
      (∃ v, judge s.Solves p force = some v ∧ ∀ τ, s.Solves τ → ¬ v.Met τ p) := by
  obtain ⟨hl, hr, hx⟩ := hp
  have hne := hs.exists_solves
  refine (ends_typeOf hs hl).bind False.elim ?_
  rintro lt _ - ⟨rfl, hlt⟩
  refine (ends_typeOf hs hr).bind False.elim ?_
  rintro rt _ - ⟨rfl, hrt⟩
  refine (ends_typeOf (o := .anchored p.result) hs hx).bind False.elim ?_
  rintro xt _ - ⟨rfl, hxt⟩
  have hscale {v : Verdict} {vec scalar : Operand} {span : Span} (hv : vec.Sound s)
      (hc : scalar.Sound s) (hnoted : v.noted p s.scaled = p.result :: s.scaled)
      (hmet : ∀ τ, s.Solves τ → (v.Met τ p ↔
        τ p.result = vec.at τ ∧ scalar.at τ ∈ (TypeVar.exact .real).members)) :
      Ends (do settleScaling p vec scalar span; return true) s
        (fun done t => done = true ∧ Judged table s t p v) (∀ τ, s.Solves τ → ¬ v.Met τ p) := by
    refine (ends_settleScaling hs hx hv hc).bind ?_ ?_
    · exact fun hno τ hτ h => hno τ hτ ((hmet τ hτ).1 h)
    rintro _ t - ⟨hsolid, hgrows, hsame, hsolves⟩
    refine .of_pure ⟨rfl, hsolid, hgrows, hnoted ▸ hsame, fun τ => ?_⟩
    rw [hsolves τ]
    exact and_congr_right fun hτ => (hmet τ hτ).symm
  -- the tests of the code are those of the judge
  classical
  simp only [Bool.or_eq_true, Bool.and_eq_true, Bool.not_eq_true', decide_eq_true_iff,
    decide_eq_false_iff_not, or_assoc, isVector_iff_allVector hlt, isVector_iff_allVector hrt,
    isVector_iff_allVector hxt, noVector_iff_noVector hlt hne, noVector_iff_noVector hrt hne,
    noVector_iff_noVector hxt hne, judge]
  -- whichever of the vector and the result is known to be one, they are alike
  split_ifs with hleft hright hplain
  · refine (hscale (v := .scaleLeft) hl hr rfl fun τ hτ => ⟨And.right, fun h => ⟨?_, h⟩⟩).mono
      (fun _ _ _ h => .inr ⟨_, rfl, h⟩) fun h => ⟨_, rfl, h⟩
    exact hleft.elim (· τ hτ) fun hall => h.1 ▸ hall.1 τ hτ
  · refine (hscale (v := .scaleRight) hr hl rfl fun τ hτ =>
      ⟨fun h => h.2.2, fun h => ⟨hright.1, ?_, h⟩⟩).mono
      (fun _ _ _ h => .inr ⟨_, rfl, h⟩) fun h => ⟨_, rfl, h⟩
    exact hright.2.elim (· τ hτ) fun hall => h.1 ▸ hall.1 τ hτ
  · refine (ends_settlePlain hs ⟨hl, hr, hx⟩).bind (fun hno => ⟨.plain, rfl, hno⟩) ?_
    exact fun _ t _ hjudged => .of_pure (.inr ⟨.plain, rfl, rfl, hjudged⟩)
  · exact .of_pure (.inl ⟨rfl, rfl, rfl⟩)

/-! ## All operations -/

def AllMet (τ : Assignment) (log : List (Pending × Verdict)) : Prop := ∀ q ∈ log, q.2.Met τ q.1

def Kept (S : Assignment → Prop) (log : List (Pending × Verdict)) (τ : Assignment) : Prop :=
  S τ ∧ AllMet τ log

variable {log : List (Pending × Verdict)}

lemma allMet_cons {v : Verdict} : AllMet τ ((p, v) :: log) ↔ v.Met τ p ∧ AllMet τ log :=
  forall_mem_cons

lemma allMet_append {log' : List (Pending × Verdict)} :
    AllMet τ (log ++ log') ↔ AllMet τ log ∧ AllMet τ log' :=
  forall_mem_append

/-- The verdicts of one round, and the operations that go on waiting. -/
noncomputable def roundOf : (S : Assignment → Prop) → List Pending →
    List Pending × List (Pending × Verdict)
  | _, [] => ([], [])
  | S, p :: ps =>
    match judge S p false with
    | some v =>
      let (rest, log) := roundOf (fun τ => S τ ∧ v.Met τ p) ps
      (rest, (p, v) :: log)
    | none =>
      let (rest, log) := roundOf S ps
      (p :: rest, log)

/-- The verdicts on all operations, in the order they are given. -/
noncomputable def verdicts : (rounds : Nat) → (S : Assignment → Prop) → List Pending →
    List (Pending × Verdict)
  | 0, _, _ => []
  | n + 1, S, ps =>
    let (rest, log) := roundOf S ps
    if rest.length < ps.length then log ++ verdicts n (Kept S log) rest
    else match rest with
      | [] => log
      | p :: rest =>
        let log := log ++ [(p, (judge (Kept S log) p true).getD .plain)]
        log ++ verdicts n (Kept S log) rest

structure Settled (table : SymbolTable) (s t : InferState) (log : List (Pending × Verdict)) :
    Prop where
  solid : Solid table t
  grows : s.sets.Narrows t.sets
  pending : t.pending = s.pending
  nextTemp : t.nextTemp = s.nextTemp
  scaled : ∀ w, w ∈ t.scaled ↔ w ∈ s.scaled ∨ ∃ q ∈ log, q.2 ≠ .plain ∧ q.1.result = w
  solves : t.Solves = Kept s.Solves log

lemma Settled.refl (hs : Solid table s) : Settled table s s [] :=
  ⟨hs, .refl _, rfl, rfl, fun w => by simp,
    funext fun _ => propext ⟨fun h => ⟨h, forall_mem_nil _⟩, And.left⟩⟩

lemma Settled.trans {log' : List (Pending × Verdict)} (h1 : Settled table s t log)
    (h2 : Settled table t u log') : Settled table s u (log ++ log') where
  solid := h2.solid
  grows := h1.grows.trans h2.grows
  pending := h2.pending.trans h1.pending
  nextTemp := h2.nextTemp.trans h1.nextTemp
  scaled w := by simp only [h2.scaled, h1.scaled, mem_append, or_and_right, exists_or, or_assoc]
  solves := by
    funext τ
    rw [h2.solves, Kept, h1.solves, Kept, Kept, allMet_append, and_assoc]

lemma Judged.settled {v : Verdict} (h : Judged table s t p v) : Settled table s t [(p, v)] where
  solid := h.solid
  grows := h.grows
  pending := by rw [h.same]
  nextTemp := by rw [h.same]
  scaled w := by
    rw [h.same]
    simpa using Verdict.mem_noted
  solves := by
    funext τ
    rw [h.solves, Kept, allMet_cons]
    exact propext (and_congr_right fun _ => (and_iff_left (forall_mem_nil _)).symm)

lemma ends_settleRound (ps : List Pending) {s : InferState} (hs : Solid table s)
    (hps : ∀ p ∈ ps, Placed s p) :
    Ends (settleRound ps) s
      (fun rest t => rest = (roundOf s.Solves ps).1 ∧ Settled table s t (roundOf s.Solves ps).2)
      (∀ τ, ¬ Kept s.Solves (roundOf s.Solves ps).2 τ) := by
  induction ps generalizing s with
  | nil => exact .of_pure ⟨rfl, .refl hs⟩
  | cons p ps ih =>
    obtain ⟨hp, hps⟩ := forall_mem_cons.1 hps
    refine (ends_settle hs hp).bind ?_ ?_
    · rintro ⟨v, hv, hno⟩ τ ⟨hτ, hmet⟩
      simp only [roundOf, hv] at hmet
      exact hno τ hτ (allMet_cons.1 hmet).1
    rintro done s1 - (⟨hnone, rfl, rfl⟩ | ⟨v, hv, rfl, hj⟩)
    · simp only [roundOf, hnone]
      refine (ih hs hps).bind id ?_
      rintro rest s2 - ⟨rfl, hset⟩
      exact .of_pure ⟨rfl, hset⟩
    · have hsolves : s1.Solves = fun τ => s.Solves τ ∧ v.Met τ p :=
        funext fun τ => propext (hj.solves τ)
      simp only [roundOf, hv, ← hsolves]
      refine (ih hj.solid fun q hq => (hps q hq).mono hj.grows).bind ?_ ?_
      · rintro hno τ ⟨hτ, hmet⟩
        obtain ⟨hhead, htail⟩ := allMet_cons.1 hmet
        exact hno τ ⟨(hj.solves τ).2 ⟨hτ, hhead⟩, htail⟩
      · rintro rest s2 - ⟨rfl, hset⟩
        exact .of_pure ⟨rfl, hj.settled.trans hset⟩

variable {S : Assignment → Prop}

/-- An operation goes on waiting or gets a verdict. -/
lemma roundOf_perm (ps : List Pending) :
    ((roundOf S ps).1 ++ (roundOf S ps).2.map Prod.fst).Perm ps := by
  induction ps generalizing S with
  | nil => exact .nil
  | cons p ps ih =>
    rw [roundOf]
    split
    · exact perm_middle.trans (ih.cons p)
    · exact ih.cons p

lemma mem_of_mem_roundOf (ps : List Pending) {q : Pending} (hq : q ∈ (roundOf S ps).1) : q ∈ ps :=
  (roundOf_perm ps).subset (mem_append_left _ hq)

lemma ends_settleAll (n : Nat) (ps : List Pending) {s : InferState} (hs : Solid table s)
    (hps : ∀ p ∈ ps, Placed s p) :
    Ends (settleAll n ps) s (fun _ t => Settled table s t (verdicts n s.Solves ps))
      (∀ τ, ¬ Kept s.Solves (verdicts n s.Solves ps) τ) := by
  induction n generalizing ps s with
  | zero => exact .of_pure (.refl hs)
  | succ n ih =>
    have hround := ends_settleRound ps hs hps
    have hmem := fun q => mem_of_mem_roundOf ps (S := s.Solves) (q := q)
    rw [verdicts]
    generalize roundOf s.Solves ps = r at hround hmem
    obtain ⟨rest, log⟩ := r
    -- a verdict that cannot be met stays one, whatever the later ones are
    have early (log log' : List (Pending × Verdict)) (h : ∀ τ, ¬ Kept s.Solves log τ) :
        ∀ τ, ¬ Kept s.Solves (log ++ log') τ :=
      fun τ hτ => h τ ⟨hτ.1, (allMet_append.1 hτ.2).1⟩
    have late {t : InferState} {log : List (Pending × Verdict)} (hset : Settled table s t log)
        (log' : List (Pending × Verdict)) (h : ∀ τ, ¬ Kept t.Solves log' τ) :
        ∀ τ, ¬ Kept s.Solves (log ++ log') τ := by
      intro τ hτ
      obtain ⟨hlog, hlog'⟩ := allMet_append.1 hτ.2
      refine h τ ⟨?_, hlog'⟩
      rw [hset.solves]
      exact ⟨hτ.1, hlog⟩
    refine hround.bind ?_ ?_
    · intro hno
      dsimp only
      split
      · exact early _ _ hno
      · split
        · exact hno
        · exact early _ _ (early _ _ hno)
    rintro got s1 - ⟨hgot, hset⟩
    obtain rfl : rest = got := hgot.symm
    dsimp only at hset hmem ⊢
    have hrest : ∀ q ∈ rest, Placed s1 q := fun q hq => (hps q (hmem q hq)).mono hset.grows
    split
    · rw [← hset.solves]
      exact (ih rest hset.solid hrest).mono (fun _ _ _ h => hset.trans h) (late hset _)
    · cases rest with
      | nil => exact .of_pure hset
      | cons p rest =>
        obtain ⟨hp, hrest⟩ := forall_mem_cons.1 hrest
        rw [← hset.solves]
        obtain ⟨v, hv⟩ := isSome_iff_exists.1 (isSome_judge_force s1.Solves p)
        simp only [hv, getD_some]
        refine (ends_settle hset.solid hp).bind ?_ ?_
        · rintro ⟨v', hv', hno⟩
          obtain rfl := Option.some.inj (hv.symm.trans hv')
          refine early _ _ (late hset _ ?_)
          rintro τ ⟨hτ, hmet⟩
          exact hno τ hτ (allMet_cons.1 hmet).1
        rintro done s2 - (⟨hnone, -⟩ | ⟨v', hv', -, hj⟩)
        · rw [hv] at hnone
          cases hnone
        obtain rfl := Option.some.inj (hv.symm.trans hv')
        have hset2 := hset.trans hj.settled
        rw [← hset2.solves]
        refine (ih rest hj.solid fun q hq => (hrest q hq).mono hj.grows).mono ?_ (late hset2 _)
        exact fun _ _ _ h => hset2.trans h

lemma length_roundOf_le (ps : List Pending) : (roundOf S ps).1.length ≤ ps.length := by
  rw [← (roundOf_perm ps).length_eq, length_append]
  exact Nat.le_add_right _ _

/-- In the end every operation has got a verdict, and only one. -/
lemma verdicts_perm (n : Nat) (ps : List Pending) (hn : ps.length ≤ n) :
    ((verdicts n S ps).map Prod.fst).Perm ps := by
  induction n generalizing ps S with
  | zero =>
    obtain rfl := length_eq_zero_iff.1 (Nat.le_zero.1 hn)
    exact .nil
  | succ n ih =>
    have hround := roundOf_perm ps (S := S)
    have hlen := length_roundOf_le ps (S := S)
    rw [verdicts]
    generalize roundOf S ps = r at hround hlen
    obtain ⟨rest, log⟩ := r
    dsimp only at hround hlen ⊢
    refine Perm.trans ?_ (perm_append_comm.trans hround)
    split
    · rw [map_append]
      exact (ih rest (by omega)).append_left _
    · cases rest with
      | nil => rw [append_nil]
      | cons p rest =>
        rw [length_cons] at hlen
        simp only [map_append, map_cons, append_assoc, singleton_append]
        exact ((ih rest (by omega)).cons p).append_left _

end VecLang.Typing
