import VecLang.Proofs.Typing.Verdicts

/-!
# Operations that do not depend on each other

When the assignments that are left can be put together from two independent parts, the verdicts on
the operations of one part are what they would be without those of the other part. They do not
depend on how the operations of the two parts are interleaved (`kept_settleLog_congr`), although
operations are settled in rounds and the first one that waits is settled by force when a round
settles none: the rounds of a part may be idle, but never differ.
-/

namespace VecLang.Typing

open List Nat

variable {S T U : Assignment → Prop} {W : VarId → Prop} {τ σ : Assignment} {p : Pending}
  {log log' : List (Pending × Verdict)}

/-! ## Rounds -/

lemma kept_nil : Kept S [] = S := funext fun _ => propext ⟨And.left, fun h => ⟨h, forall_mem_nil _⟩⟩

lemma kept_kept : Kept (Kept S log) log' = Kept S (log ++ log') := by
  ext τ
  rw [Kept, Kept, Kept, allMet_append, and_assoc]

variable {v : Verdict}

lemma kept_cons : Kept (fun τ => S τ ∧ v.Met τ p) log = Kept S ((p, v) :: log) := by
  ext τ
  rw [Kept, Kept, allMet_cons, and_assoc]

lemma exists_kept_left (h : ∃ τ, Kept S (log ++ log') τ) : ∃ τ, Kept S log τ := by
  obtain ⟨τ, hτ, hall⟩ := h
  exact ⟨τ, hτ, (allMet_append.1 hall).1⟩

lemma roundOf_eq_self (ps : List Pending) (h : ¬ (roundOf S ps).1.length < ps.length) :
    roundOf S ps = (ps, []) := by
  induction ps with
  | nil => rfl
  | cons p ps ih =>
    rw [roundOf] at h ⊢
    cases hj : judge S p false with
    | some v =>
      -- the operation would not be among those that wait
      simp only [hj, length_cons] at h
      exact absurd (lt_succ_of_le (length_roundOf_le ps)) h
    | none =>
      simp only [hj, length_cons, succ_lt_succ_iff] at h ⊢
      rw [ih h]

variable {S : Assignment → Prop}

lemma roundOf_append (ps qs : List Pending) :
    roundOf S (ps ++ qs) = ((roundOf S ps).1 ++ (roundOf (Kept S (roundOf S ps).2) qs).1,
        (roundOf S ps).2 ++ (roundOf (Kept S (roundOf S ps).2) qs).2) := by
  induction ps generalizing S with
  | nil =>
    simp only [roundOf, kept_nil, nil_append]
  | cons p ps ih =>
    rw [cons_append, roundOf, roundOf]
    cases judge S p false with
    | some v => simp only [ih, cons_append, kept_cons]
    | none => simp only [ih, cons_append]

/-! ## Verdicts -/

lemma verdicts_eq_of_le (n m : Nat) (ps : List Pending) (hn : ps.length ≤ n)
    (hm : ps.length ≤ m) : verdicts n S ps = verdicts m S ps := by
  induction n generalizing m ps S with
  | zero =>
    obtain rfl := length_eq_zero_iff.1 (le_zero.1 hn)
    cases m with
    | zero => rfl
    | succ m => rfl
  | succ n ih =>
    cases m with
    | zero =>
      obtain rfl := length_eq_zero_iff.1 (le_zero.1 hm)
      rfl
    | succ m =>
      have hlen := length_roundOf_le ps (S := S)
      rw [verdicts, verdicts]
      generalize roundOf S ps = r at hlen
      obtain ⟨rest, log⟩ := r
      dsimp only at hlen ⊢
      split
      · rw [ih m rest (by omega) (by omega)]
      · cases rest with
        | nil => rfl
        | cons p rest =>
          rw [length_cons] at hlen
          dsimp only
          rw [ih m rest (by omega) (by omega)]

/-- The verdicts on all operations. -/
noncomputable def settleLog (S : Assignment → Prop) (ps : List Pending) :
    List (Pending × Verdict) :=
  verdicts ps.length S ps

variable {ps : List Pending}

lemma settleLog_of_lt (h : (roundOf S ps).1.length < ps.length) :
    settleLog S ps = (roundOf S ps).2 ++ settleLog (Kept S (roundOf S ps).2) (roundOf S ps).1 := by
  cases ps with
  | nil => exact absurd h (Nat.not_lt_zero _)
  | cons p ps =>
    rw [settleLog, length_cons, verdicts]
    simp only [h, if_true]
    exact congrArg _ (verdicts_eq_of_le _ _ _ (le_of_lt_succ h) (Nat.le_refl _))

lemma settleLog_eq (S : Assignment → Prop) (ps : List Pending) :
    settleLog S ps = (roundOf S ps).2 ++ settleLog (Kept S (roundOf S ps).2) (roundOf S ps).1 := by
  by_cases h : (roundOf S ps).1.length < ps.length
  · exact settleLog_of_lt h
  · rw [roundOf_eq_self ps h, kept_nil, nil_append]

lemma exists_kept_roundOf (h : ∃ τ, Kept S (settleLog S ps) τ) :
    ∃ τ, Kept S (roundOf S ps).2 τ := by
  rw [settleLog_eq] at h
  exact exists_kept_left h

/-- The verdict that the first operation gets when a round settles none. -/
noncomputable def forced (S : Assignment → Prop) (p : Pending) : Verdict :=
  (judge S p true).getD .plain

lemma settleLog_of_not_lt (p : Pending) (ps : List Pending)
    (h : ¬ (roundOf S (p :: ps)).1.length < (p :: ps).length) :
    settleLog S (p :: ps) =
      (p, forced S p) :: settleLog (fun τ => S τ ∧ (forced S p).Met τ p) ps := by
  have hkept : Kept S [(p, forced S p)] = fun τ => S τ ∧ (forced S p).Met τ p := by
    rw [← kept_cons, kept_nil]
  rw [settleLog, length_cons, verdicts, roundOf_eq_self _ h]
  simp only [Nat.lt_irrefl, if_false, nil_append, kept_nil, cons_append]
  rw [← hkept]
  rfl

lemma settleLog_append (h : (roundOf S ps).1 = []) (qs : List Pending) :
    settleLog S (ps ++ qs) = (roundOf S ps).2 ++ settleLog (Kept S (roundOf S ps).2) qs := by
  cases ps with
  | nil =>
    change settleLog S qs = [] ++ settleLog (Kept S []) qs
    rw [kept_nil, nil_append]
  | cons p ps =>
    have hround := roundOf_append (p :: ps) qs (S := S)
    rw [h, nil_append] at hround
    have hlt : (roundOf S (p :: ps ++ qs)).1.length < (p :: ps ++ qs).length := by
      rw [hround, length_append, length_cons]
      exact Nat.lt_of_le_of_lt (length_roundOf_le qs) (by omega)
    rw [settleLog_of_lt hlt, hround, append_assoc, ← kept_kept, ← settleLog_eq]

/-! ## Independent parts -/

def SameOn (W : VarId → Prop) (τ σ : Assignment) : Prop := ∀ v, W v → τ v = σ v

open Classical in
/-- The first assignment on the variables of `W`, the second on all others. -/
noncomputable def mix (W : VarId → Prop) (τ σ : Assignment) : Assignment :=
  fun v => if W v then τ v else σ v

lemma sameOn_mix : SameOn W (mix W τ σ) τ := fun _ hv => if_pos hv

lemma sameOn_mix_right : SameOn (fun v => ¬ W v) (mix W τ σ) σ := fun _ hv => if_neg hv

lemma mix_not : mix (fun v => ¬ W v) τ σ = mix W σ τ := by
  funext v
  unfold mix
  split <;> simp_all

/-- The operand is about a variable of `W`, or all assignments give it one type. -/
def Operand.Local (S : Assignment → Prop) (W : VarId → Prop) : Operand → Prop
  | .known _ => True
  | .anchored v => W v ∨ ∃ m, ∀ τ, S τ → τ v = m

variable {o : Operand}

lemma Operand.Local.mono (h : o.Local S W) (hT : ∀ τ, T τ → S τ) : o.Local T W := by
  cases o with
  | known tv => trivial
  | anchored v => exact h.imp id fun ⟨m, hm⟩ => ⟨m, fun τ hτ => hm τ (hT τ hτ)⟩

lemma Operand.Local.at_eq (h : o.Local S W) (hτ : S τ) (hσ : S σ)
    (hsame : SameOn W τ σ) : o.at τ = o.at σ := by
  cases o with
  | known tv => rfl
  | anchored v =>
    rcases h with hv | ⟨m, hm⟩
    · exact hsame v hv
    · exact (hm τ hτ).trans (hm σ hσ).symm

structure Pending.Local (S : Assignment → Prop) (W : VarId → Prop) (p : Pending) : Prop where
  left : p.left.Local S W
  right : p.right.Local S W
  result : (Operand.anchored p.result).Local S W

lemma Pending.Local.mono (h : p.Local S W) (hT : ∀ τ, T τ → S τ) : p.Local T W :=
  ⟨h.left.mono hT, h.right.mono hT, h.result.mono hT⟩

lemma Verdict.Met.congr (hm : v.Met τ p) (hp : p.Local S W) (hτ : S τ)
    (hσ : S σ) (hsame : SameOn W τ σ) : v.Met σ p := by
  have hl := hp.left.at_eq hτ hσ hsame
  have hr := hp.right.at_eq hτ hσ hsame
  have hx : τ p.result = σ p.result := hp.result.at_eq hτ hσ hsame
  cases v with
  | scaleLeft => rwa [Verdict.Met, hl, hr, hx] at hm
  | scaleRight => rwa [Verdict.Met, hl, hr, hx] at hm
  | plain => rwa [Verdict.Met, hl, hr, hx] at hm

/-- Seen from the variables of `W`, the assignments `S` are the same as the assignments `T`, of
which they are a part. -/
structure Shadow (W : VarId → Prop) (S T : Assignment → Prop) : Prop where
  sub : ∀ τ, S τ → T τ
  lift : ∀ τ, T τ → ∃ σ, S σ ∧ SameOn W τ σ

lemma Shadow.refl : Shadow W S S := ⟨fun _ => id, fun τ hτ => ⟨τ, hτ, fun _ _ => rfl⟩⟩

namespace Shadow

lemma allVector_iff (h : Shadow W S T) (ho : o.Local T W) : AllVector S o ↔ AllVector T o := by
  constructor
  · intro hall τ hτ
    obtain ⟨σ, hσ, hsame⟩ := h.lift τ hτ
    rw [ho.at_eq hτ (h.sub σ hσ) hsame]
    exact hall σ hσ
  · exact fun hall τ hτ => hall τ (h.sub τ hτ)

lemma noVector_iff (h : Shadow W S T) (ho : o.Local T W) : NoVector S o ↔ NoVector T o := by
  constructor
  · intro hno τ hτ
    obtain ⟨σ, hσ, hsame⟩ := h.lift τ hτ
    rw [ho.at_eq hτ (h.sub σ hσ) hsame]
    exact hno σ hσ
  · exact fun hno τ hτ => hno τ (h.sub τ hτ)

lemma judge_eq (h : Shadow W S T) (hp : p.Local T W) (force : Bool) :
    judge S p force = judge T p force := by
  unfold judge
  rw [propext (h.allVector_iff hp.left), propext (h.allVector_iff hp.right),
    propext (h.allVector_iff hp.result), propext (h.noVector_iff hp.left),
    propext (h.noVector_iff hp.right), propext (h.noVector_iff hp.result)]

lemma own (h : Shadow W S T) (hp : p.Local T W) (v : Verdict) :
    Shadow W (fun τ => S τ ∧ v.Met τ p) fun τ => T τ ∧ v.Met τ p where
  sub τ hτ := ⟨h.sub τ hτ.1, hτ.2⟩
  lift τ hτ := by
    obtain ⟨σ, hσ, hsame⟩ := h.lift τ hτ.1
    exact ⟨σ, ⟨hσ, hτ.2.congr hp hτ.1 (h.sub σ hσ) hsame⟩, hsame⟩

end Shadow

/-- Assignments can be put together from what they are on `W` and what they are elsewhere. -/
def Splits (W : VarId → Prop) (S : Assignment → Prop) : Prop := ∀ τ σ, S τ → S σ → S (mix W τ σ)

lemma Splits.symm (h : Splits W S) : Splits (fun v => ¬ W v) S := by
  intro τ σ hτ hσ
  rw [mix_not]
  exact h σ τ hσ hτ

lemma Shadow.other (h : Shadow W S T) (hsplit : Splits W S)
    (hp : p.Local S fun x => ¬ W x) (hne : ∃ τ, S τ ∧ v.Met τ p) :
    Shadow W (fun τ => S τ ∧ v.Met τ p) T where
  sub τ hτ := h.sub τ hτ.1
  lift τ hτ := by
    obtain ⟨σ, hσ, hsame⟩ := h.lift τ hτ
    obtain ⟨ρ, hρ, hmet⟩ := hne
    -- the types of this part from `σ`, those of the other part from `ρ`
    have hmix := hsplit σ ρ hσ hρ
    refine ⟨mix W σ ρ, ⟨hmix, hmet.congr hp hρ hmix fun v hv => ?_⟩, fun v hv => ?_⟩
    · exact (sameOn_mix_right v hv).symm
    · rw [hsame v hv, sameOn_mix v hv]

lemma Splits.met (h : Splits W S) (hp : p.Local S W) : Splits W fun τ => S τ ∧ v.Met τ p := by
  intro τ σ hτ hσ
  have hmix := h τ σ hτ.1 hσ.1
  exact ⟨hmix, hτ.2.congr hp hτ.1 hmix fun v hv => (sameOn_mix v hv).symm⟩

/-- The assignments `S` are not empty and fall into two independent parts: `T` tells what they
are on `W`, and `U` what they are elsewhere. -/
structure Tandem (W : VarId → Prop) (S T U : Assignment → Prop) : Prop where
  ne : ∃ τ, S τ
  splits : Splits W S
  left : Shadow W S T
  right : Shadow (fun v => ¬ W v) S U

namespace Tandem

lemma symm (h : Tandem W S T U) : Tandem (fun v => ¬ W v) S U T where
  ne := h.ne
  splits := h.splits.symm
  left := h.right
  right := by simpa only [not_not] using h.left

lemma own (h : Tandem W S T U) (hp : p.Local T W) (hne : ∃ τ, S τ ∧ v.Met τ p) :
    Tandem W (fun τ => S τ ∧ v.Met τ p) (fun τ => T τ ∧ v.Met τ p) U where
  ne := hne
  splits := h.splits.met (hp.mono h.left.sub)
  left := h.left.own hp v
  right := by
    refine h.right.other h.splits.symm ?_ hne
    simpa only [not_not] using hp.mono h.left.sub

lemma other (h : Tandem W S T U) (hp : p.Local U fun x => ¬ W x) (hne : ∃ τ, S τ ∧ v.Met τ p) :
    Tandem W (fun τ => S τ ∧ v.Met τ p) T fun τ => U τ ∧ v.Met τ p := by
  simpa only [not_not] using (h.symm.own hp hne).symm

end Tandem

/-- The operations that `own` tells are about `W`, and all others about what is not in `W`. -/
def Parted (own : Pending → Bool) (W : VarId → Prop) (T U : Assignment → Prop)
    (ps : List Pending) : Prop :=
  ∀ p ∈ ps, (own p = true → p.Local T W) ∧ (own p = false → p.Local U fun v => ¬ W v)

lemma Parted.mono {own : Pending → Bool} {qs : List Pending} {T' U' : Assignment → Prop}
    (h : Parted own W T U ps) (hsub : ∀ p ∈ qs, p ∈ ps) (hT : ∀ τ, T' τ → T τ)
    (hU : ∀ τ, U' τ → U τ) : Parted own W T' U' qs :=
  fun p hp => ⟨fun ho => ((h p (hsub p hp)).1 ho).mono hT,
    fun ho => ((h p (hsub p hp)).2 ho).mono hU⟩

/-- What a round does with the operations of one part is what a round of these operations alone
does. -/
structure RoundSplit (own : Pending → Bool) (W : VarId → Prop) (S T U : Assignment → Prop)
    (ps : List Pending) : Prop where
  rest_own : (roundOf S ps).1.filter own = (roundOf T (ps.filter own)).1
  rest_other : (roundOf S ps).1.filter (fun p => !own p) = (roundOf U (ps.filter (!own ·))).1
  log_own : (roundOf S ps).2.filter (own ·.1) = (roundOf T (ps.filter own)).2
  log_other : (roundOf S ps).2.filter (fun x => !own x.1) = (roundOf U (ps.filter (!own ·))).2
  tandem : Tandem W (Kept S (roundOf S ps).2) (Kept T (roundOf T (ps.filter own)).2)
    (Kept U (roundOf U (ps.filter (!own ·))).2)

lemma roundSplit {own : Pending → Bool} (ps : List Pending) (ht : Tandem W S T U)
    (hps : Parted own W T U ps) (hne : (∃ τ, Kept S (roundOf S ps).2 τ) ∨
      (∃ τ, Kept T (roundOf T (ps.filter own)).2 τ) ∧
        ∃ τ, Kept U (roundOf U (ps.filter (!own ·))).2 τ) :
    RoundSplit own W S T U ps := by
  induction ps generalizing S T U with
  | nil => exact ⟨rfl, rfl, rfl, rfl, by simpa only [filter_nil, roundOf, kept_nil] using ht⟩
  | cons p ps ih =>
    have htail : Parted own W T U ps := hps.mono (fun _ => mem_cons_of_mem p)
      (fun _ => id) fun _ => id
    cases ho : own p with
    | true =>
      have hp := (hps p mem_cons_self).1 ho
      have hj := ht.left.judge_eq hp false
      cases hv : judge T p false with
      | none =>
        simp only [ho, roundOf, hj, hv, filter_cons, Bool.not_true, Bool.false_eq_true,
          if_true, if_false] at hne
        obtain ⟨h1, h2, h3, h4, h5⟩ := ih ht htail hne
        constructor <;> simp only [roundOf, filter_cons, Bool.not_true, Bool.false_eq_true,
          if_true, if_false, *]
      | some v =>
        simp only [ho, roundOf, hj, hv, filter_cons, Bool.not_true, Bool.false_eq_true,
          if_true, if_false, ← kept_cons] at hne
        have hmet : ∃ τ, S τ ∧ v.Met τ p := by
          rcases hne with ⟨τ, hτ, -⟩ | ⟨⟨τ, hτ, -⟩, -⟩
          · exact ⟨τ, hτ⟩
          · exact ((ht.left.own hp v).lift τ hτ).imp fun _ => And.left
        obtain ⟨h1, h2, h3, h4, h5⟩ := ih (ht.own hp hmet)
          (htail.mono (fun _ => id) (fun _ => And.left) fun _ => id) hne
        constructor <;> simp only [roundOf, filter_cons, Bool.not_true, Bool.false_eq_true,
          if_true, if_false, ← kept_cons, *]
    | false =>
      have hp := (hps p mem_cons_self).2 ho
      have hj := ht.right.judge_eq hp false
      cases hv : judge U p false with
      | none =>
        simp only [ho, roundOf, hj, hv, filter_cons, Bool.not_false, Bool.false_eq_true,
          if_true, if_false] at hne
        obtain ⟨h1, h2, h3, h4, h5⟩ := ih ht htail hne
        constructor <;> simp only [roundOf, filter_cons, Bool.not_false, Bool.false_eq_true,
          if_true, if_false, *]
      | some v =>
        simp only [ho, roundOf, hj, hv, filter_cons, Bool.not_false, Bool.false_eq_true,
          if_true, if_false, ← kept_cons] at hne
        have hmet : ∃ τ, S τ ∧ v.Met τ p := by
          rcases hne with ⟨τ, hτ, -⟩ | ⟨-, ⟨τ, hτ, -⟩⟩
          · exact ⟨τ, hτ⟩
          · exact ((ht.right.own hp v).lift τ hτ).imp fun _ => And.left
        obtain ⟨h1, h2, h3, h4, h5⟩ := ih (ht.other hp hmet)
          (htail.mono (fun _ => id) (fun _ => id) fun _ => And.left) hne
        constructor <;> simp only [roundOf, filter_cons, Bool.not_false, Bool.false_eq_true,
          if_true, if_false, ← kept_cons, *]

/-- The verdicts on the operations of a part are those of a run of these operations alone. -/
lemma settleLog_split {own : Pending → Bool} (ps : List Pending) (ht : Tandem W S T U)
    (hps : Parted own W T U ps) (hne : (∃ τ, Kept S (settleLog S ps) τ) ∨
      (∃ τ, Kept T (settleLog T (ps.filter own)) τ) ∧
        ∃ τ, Kept U (settleLog U (ps.filter (!own ·))) τ) :
    (settleLog S ps).filter (own ·.1) = settleLog T (ps.filter own) ∧
      (settleLog S ps).filter (fun x => !own x.1) = settleLog U (ps.filter (!own ·)) := by
  induction hn : ps.length using Nat.strongRecOn generalizing ps S T U with
  | ind n ih =>
    have hround := roundSplit ps ht hps <|
      hne.imp exists_kept_roundOf (And.imp exists_kept_roundOf exists_kept_roundOf)
    by_cases hlt : (roundOf S ps).1.length < ps.length
    · rw [settleLog_eq S ps, settleLog_eq T, settleLog_eq U, ← kept_kept, ← kept_kept,
        ← kept_kept, ← hround.rest_own, ← hround.rest_other] at hne
      have hrest := ih _ (hn ▸ hlt) _ hround.tandem
        (hps.mono (fun p hp => mem_of_mem_roundOf ps hp) (fun _ => And.left) fun _ => And.left)
        hne rfl
      rw [settleLog_eq S ps, settleLog_eq T, settleLog_eq U, ← hround.rest_own,
        ← hround.rest_other, ← hround.log_own, ← hround.log_other, filter_append,
        filter_append, hround.log_own, hround.log_other, hrest.1, hrest.2]
      exact ⟨rfl, rfl⟩
    · cases ps with
      | nil => exact ⟨rfl, rfl⟩
      | cons p ps =>
        -- idle rounds of the parts; the first operation belongs to one of them
        have hidle := roundOf_eq_self _ hlt
        have hT : roundOf T ((p :: ps).filter own) = ((p :: ps).filter own, []) :=
          Prod.ext (by rw [← hround.rest_own, hidle]) (by rw [← hround.log_own, hidle]; rfl)
        have hU : roundOf U ((p :: ps).filter (!own ·)) = ((p :: ps).filter (!own ·), []) :=
          Prod.ext (by rw [← hround.rest_other, hidle]) (by rw [← hround.log_other, hidle]; rfl)
        have htail : Parted own W T U ps := hps.mono (fun _ => mem_cons_of_mem p)
          (fun _ => id) fun _ => id
        rw [settleLog_of_not_lt p ps hlt] at hne ⊢
        cases ho : own p with
        | true =>
          have hp := (hps p mem_cons_self).1 ho
          have hforced : forced S p = forced T p :=
            congrArg (Option.getD · _) (ht.left.judge_eq hp true)
          rw [filter_cons_of_pos ho] at hT
          have hsolo := settleLog_of_not_lt p (ps.filter own)
            (by rw [hT]; exact Nat.lt_irrefl _)
          rw [hforced]
          simp only [filter_cons, ho, Bool.not_true, Bool.false_eq_true, if_true, if_false,
            hsolo, hforced, ← kept_cons] at hne ⊢
          have hmet : ∃ τ, S τ ∧ (forced T p).Met τ p := by
            rcases hne with ⟨τ, hτ, -⟩ | ⟨⟨τ, hτ, -⟩, -⟩
            · exact ⟨τ, hτ⟩
            · exact ((ht.left.own hp _).lift τ hτ).imp fun _ => And.left
          have hrest := ih ps.length (by rw [← hn]; exact lt_succ_self _) ps
            (ht.own hp hmet) (htail.mono (fun _ => id) (fun _ => And.left) fun _ => id) hne rfl
          exact ⟨congrArg _ hrest.1, hrest.2⟩
        | false =>
          have hp := (hps p mem_cons_self).2 ho
          have hforced : forced S p = forced U p :=
            congrArg (Option.getD · _) (ht.right.judge_eq hp true)
          rw [filter_cons_of_pos (by rw [ho]; rfl)] at hU
          have hsolo := settleLog_of_not_lt p (ps.filter (!own ·))
            (by rw [hU]; exact Nat.lt_irrefl _)
          rw [hforced]
          simp only [filter_cons, ho, Bool.not_false, Bool.false_eq_true, if_true, if_false,
            hsolo, hforced, ← kept_cons] at hne ⊢
          have hmet : ∃ τ, S τ ∧ (forced U p).Met τ p := by
            rcases hne with ⟨τ, hτ, -⟩ | ⟨-, ⟨τ, hτ, -⟩⟩
            · exact ⟨τ, hτ⟩
            · exact ((ht.right.own hp _).lift τ hτ).imp fun _ => And.left
          have hrest := ih ps.length (by rw [← hn]; exact lt_succ_self _) ps
            (ht.other hp hmet) (htail.mono (fun _ => id) (fun _ => id) fun _ => And.left) hne rfl
          exact ⟨hrest.1, congrArg _ hrest.2⟩

lemma allMet_filter (own : Pending → Bool) (log : List (Pending × Verdict)) : AllMet τ log ↔
      AllMet τ (log.filter (own ·.1)) ∧ AllMet τ (log.filter fun x => !own x.1) := by
  simp only [AllMet, mem_filter, Bool.not_eq_true']
  constructor
  · exact fun h => ⟨fun x hx => h x hx.1, fun x hx => h x hx.1⟩
  · intro h x hx
    cases ho : own x.1 with
    | true => exact h.1 x ⟨hx, ho⟩
    | false => exact h.2 x ⟨hx, ho⟩

/-- What is left after all operations are settled does not depend on how the operations of two
independent parts are interleaved. -/
lemma kept_settleLog_congr {own : Pending → Bool} {qs : List Pending} (hS : Splits W S)
    (hps : Parted own W S S ps) (hqs : Parted own W S S qs) (hown : ps.filter own = qs.filter own)
    (hother : ps.filter (!own ·) = qs.filter (!own ·)) (hne : ∃ τ, Kept S (settleLog S ps) τ) :
    Kept S (settleLog S qs) = Kept S (settleLog S ps) := by
  have ht : Tandem W S S S := ⟨hne.imp fun _ => And.left, hS, .refl, .refl⟩
  have hp := settleLog_split ps ht hps (.inl hne)
  have hq := settleLog_split qs ht hqs <| by
    obtain ⟨τ, hτ, hall⟩ := hne
    rw [allMet_filter own, hp.1, hp.2, hown, hother] at hall
    exact .inr ⟨⟨τ, hτ, hall.1⟩, τ, hτ, hall.2⟩
  ext τ
  rw [Kept, Kept, allMet_filter own (settleLog S qs), allMet_filter own (settleLog S ps), hp.1,
    hp.2, hq.1, hq.2, hown, hother]

end VecLang.Typing
