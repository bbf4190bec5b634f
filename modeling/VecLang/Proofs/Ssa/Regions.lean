import VecLang.Proofs.Ssa.Joins

/-!
# The code of statements

What is known of the code of statements without looking at the program: it is complete but for the
ways out of the innermost loop (`Region.adds`), it leaves the scope around it alone, and the ways
out of the loop are written down in the order of the jumps (`Ways`).
-/

namespace VecLang.Ssa

open Stateful LowerState List LoopFrame

variable {c : LowerContext} {s t u : LowerState}

/-! ## Jumps to a label -/

/-- The numbers of the blocks that jump to a label, in order. -/
def LowerState.sources (s : LowerState) (l : Nat) : List Nat :=
  (s.jumps.filter fun x => x.2 = l).map (·.1)

def LowerState.phisAt (s : LowerState) (l : Nat) : List Phi :=
  s.phis.toList.filter fun p => p.label = l

section Labels

variable {out pre vals : List Nat} {l : Nat}

lemma Adds.sources (h : Adds out pre vals s t) (hl : l ≤ s.labels.size) (hout : l ∉ out) :
    t.sources l = s.sources l := by
  obtain ⟨new, hnew, hin⟩ := h.jumps
  have hnone : new.filter (fun x => x.2 = l) = [] := by
    refine filter_eq_nil_iff.2 fun x hx => ?_
    rw [decide_eq_true_eq]
    rintro rfl
    rcases hin x hx with hx | hx
    · exact hout hx
    · omega
  unfold LowerState.sources
  rw [hnew, filter_append, hnone, append_nil]

lemma Adds.phisAt (h : Adds out pre vals s t) (hl : l ≤ s.labels.size) (hpre : l ∉ pre) :
    t.phisAt l = s.phisAt l := by
  obtain ⟨new, hnew, hin⟩ := h.phis
  have hnone : new.filter (fun p => p.label = l) = [] := by
    refine filter_eq_nil_iff.2 fun p hp => ?_
    rw [decide_eq_true_eq]
    rintro rfl
    rcases hin p hp with hp | hp
    · exact hpre hp
    · omega
  unfold LowerState.phisAt
  rw [hnew, filter_append, hnone, append_nil]

lemma Adds.addPhis (h : Adds out pre vals s t) {ps : List Phi} (hps : ∀ p ∈ ps, p.label ∈ pre) :
    Adds out pre (vals ++ ps.map (·.dst)) s (t.addPhis ps) where
  grows := h.grows.trans (grows_addPhis t ps)
  defs id hid := by
    change _ = _ + within s.types.size t.types.size id
    rw [defs_addPhis, h.defs id hid, count_append]
    omega
  started := h.started
  jumps := h.jumps
  phis := by
    obtain ⟨new, hnew, hin⟩ := h.phis
    refine ⟨new ++ ps, by simp [LowerState.addPhis, hnew], fun p hp => ?_⟩
    rcases mem_append.1 hp with hp | hp
    · exact hin p hp
    · exact .inl (hps p hp)

lemma count_range' (a n id : Nat) : (List.range' a n).count id = within a (a + n) id := by
  unfold within
  split
  case isTrue h =>
    refine count_eq_one_of_mem (nodup_range') ?_
    rw [mem_range'_1]
    exact h
  case isFalse h =>
    refine count_eq_zero.2 ?_
    rw [mem_range'_1]
    exact h

lemma grows_meetAll (label : LabelId) (ms : List (VarId × Meet)) :
    Grows t (t.meetAll c label ms) := by
  rw [meetAll_eq]
  exact ((grows_addValues t _).trans (grows_addPhis _ _)).trans (grows_inScope _ _)

lemma Adds.meetAll (h : Adds out pre vals s t) (hl : l ∈ pre) (ms : List (VarId × Meet)) :
    Adds out pre vals s (t.meetAll c l ms) := by
  refine ⟨h.grows.trans (grows_meetAll l ms), fun id hid => ?_, ?_, ?_, ?_⟩
  all_goals rw [meetAll_eq]
  · have hdefs := defs_addPhis (t.addValues ((joinVars ms).map c.module.varType)) id
      (joinPhis l t.types.size ms)
    have hsize : (t.addValues ((joinVars ms).map c.module.varType)).types.size =
        t.types.size + (joinVars ms).length := by simp [addValues]
    have hadd := within_add h.grows.types_size (Nat.le_add_right t.types.size
      (joinVars ms).length) id
    rw [dsts_joinPhis, count_range', length_joinPhis] at hdefs
    change (LowerState.addPhis _ _).defs id = _ + within _ (t.addValues _).types.size id
    change _ = t.defs id + _ at hdefs
    rw [hdefs, hsize, h.defs id hid]
    omega
  · exact h.started
  · exact h.jumps
  · obtain ⟨new, hnew, hin⟩ := h.phis
    refine ⟨new ++ joinPhis l t.types.size ms, ?_, fun p hp => ?_⟩
    · simp [LowerState.addPhis, addValues, LowerState.inScope, hnew]
    · rcases mem_append.1 hp with hp | hp
      · exact hin p hp
      · exact .inl (label_joinPhis hp ▸ hl)

end Labels

/-! ## Scopes and loops -/

/-- The ways back and out of a loop are written down in the order of the jumps. -/
structure Ways (s : LowerState) (loop : LoopFrame) : Prop where
  start_pos : 0 < loop.start
  start_lt : loop.start < loop.stop
  stop_le : loop.stop ≤ s.labels.size
  continues : (s.sources loop.start).length = loop.continues.length
  breaks : (s.sources loop.stop).length = loop.breaks.length
  /-- Each with a value for every variable that the loop changes. -/
  vals : ∀ vals ∈ loop.continues ++ loop.breaks, vals.length = loop.carried.length

/-- The labels that lead out of the current round of the innermost loop. -/
def exits : List LoopFrame → List Nat
  | [] => []
  | loop :: _ => [loop.start, loop.stop]

structure Framed (s : LowerState) : Prop where
  scope : s.scope ≠ []
  nodup : s.arm.keys.Nodup
  targets : ∀ x ∈ s.jumps, x.2 ≤ s.labels.size
  sites : ∀ p ∈ s.phis.toList, s.labels.size ≥ p.label
  /-- The current block goes on in the next one only if it has not ended. -/
  ends : s.current.term.fallsThrough = true → s.Live
  ways : ∀ loop ∈ s.loops.head?, Ways s loop

structure LoopFrame.Becomes (loop loop' : LoopFrame) : Prop where
  start : loop'.start = loop.start
  stop : loop'.stop = loop.stop
  carried : loop'.carried = loop.carried
  continues : loop.continues <:+ loop'.continues
  breaks : loop.breaks <:+ loop'.breaks

lemma LoopFrame.Becomes.refl (loop : LoopFrame) : loop.Becomes loop :=
  ⟨rfl, rfl, rfl, suffix_rfl, suffix_rfl⟩

lemma LoopFrame.Becomes.trans {l l' l'' : LoopFrame} (h : l.Becomes l') (h' : l'.Becomes l'') :
    l.Becomes l'' :=
  ⟨h'.start.trans h.start, h'.stop.trans h.stop, h'.carried.trans h.carried,
    h.continues.trans h'.continues, h.breaks.trans h'.breaks⟩

def LoopsBecome : List LoopFrame → List LoopFrame → Prop
  | [], loops => loops = []
  | loop :: outer, loops => ∃ loop', loops = loop' :: outer ∧ loop.Becomes loop'

lemma LoopsBecome.refl : (loops : List LoopFrame) → LoopsBecome loops loops
  | [] => rfl
  | loop :: _ => ⟨loop, rfl, .refl loop⟩

lemma LoopsBecome.trans {l l' l'' : List LoopFrame} (h : LoopsBecome l l')
    (h' : LoopsBecome l' l'') : LoopsBecome l l'' := by
  cases l with
  | nil =>
    cases h
    exact h'
  | cons loop outer =>
    obtain ⟨loop', rfl, hl⟩ := h
    obtain ⟨loop'', rfl, hl'⟩ := h'
    exact ⟨loop'', rfl, hl.trans hl'⟩

lemma LoopsBecome.exits {l l' : List LoopFrame} (h : LoopsBecome l l') : exits l' = exits l := by
  cases l with
  | nil =>
    cases h
    rfl
  | cons loop outer =>
    obtain ⟨loop', rfl, hl⟩ := h
    simp [Ssa.exits, hl.start, hl.stop]

structure Region (s t : LowerState) : Prop where
  adds : Adds (exits s.loops) [] [] s t
  tail : t.scope.tail = s.scope.tail
  loops : LoopsBecome s.loops t.loops
  framed : Framed t

lemma Region.refl (h : Framed s) : Region s s := ⟨.refl _ s, rfl, .refl _, h⟩

lemma Region.trans (hst : Region s t) (htu : Region t u) : Region s u where
  adds := hst.adds.trans (hst.loops.exits ▸ htu.adds)
  tail := htu.tail.trans hst.tail
  loops := hst.loops.trans htu.loops
  framed := htu.framed

variable {l : Nat}

lemma mem_exits {loops : List LoopFrame} :
    l ∈ exits loops ↔ ∃ loop ∈ loops.head?, l = loop.start ∨ l = loop.stop := by
  cases loops <;> simp [exits]

lemma Framed.exit_le (h : Framed s) (hl : l ∈ exits s.loops) : l ≤ s.labels.size := by
  obtain ⟨loop, hloop, hl⟩ := mem_exits.1 hl
  have hw := h.ways loop hloop
  have := hw.start_lt
  have := hw.stop_le
  rcases hl with rfl | rfl
  · exact Nat.le_trans (Nat.le_of_lt hw.start_lt) hw.stop_le
  · exact hw.stop_le

section Framed

variable {out pre vals : List Nat}

lemma Framed.of_adds (h : Framed s) (hadds : Adds out pre vals s t)
    (hout : ∀ l ∈ out, l ∉ exits s.loops ∧ l ≤ t.labels.size)
    (hpre : ∀ l ∈ pre, t.labels.size ≥ l) (hscope : t.scope ≠ []) (hnodup : t.arm.keys.Nodup)
    (hends : t.current.term.fallsThrough = true → t.Live) (hloops : t.loops = s.loops) :
    Framed t where
  scope := hscope
  nodup := hnodup
  targets x hx := by
    obtain ⟨new, hnew, hin⟩ := hadds.jumps
    rw [hnew] at hx
    rcases mem_append.1 hx with hx | hx
    · exact Nat.le_trans (h.targets x hx) hadds.grows.labels
    · exact (hin x hx).elim (fun hx => (hout _ hx).2) (·.2)
  sites p hp := by
    obtain ⟨new, hnew, hin⟩ := hadds.phis
    rw [hnew] at hp
    rcases mem_append.1 hp with hp | hp
    · exact Nat.le_trans (h.sites p hp) hadds.grows.labels
    · exact (hin p hp).elim (hpre _) (·.2)
  ends := hends
  ways loop hloop := by
    rw [hloops] at hloop
    have hw := h.ways loop hloop
    have hsame {l : Nat} (hl : l ∈ exits s.loops) : t.sources l = s.sources l :=
      hadds.sources (h.exit_le hl) fun hmem => (hout l hmem).1 hl
    refine ⟨hw.start_pos, hw.start_lt, Nat.le_trans hw.stop_le hadds.grows.labels, ?_, ?_, hw.vals⟩
    · rw [hsame (mem_exits.2 ⟨loop, hloop, .inl rfl⟩)]
      exact hw.continues
    · rw [hsame (mem_exits.2 ⟨loop, hloop, .inr rfl⟩)]
      exact hw.breaks

lemma Framed.sources_eq_nil (h : Framed s) (hl : s.labels.size < l) : s.sources l = [] := by
  refine map_eq_nil_iff.2 (filter_eq_nil_iff.2 fun x hx => ?_)
  have := h.targets x hx
  rw [decide_eq_true_eq]
  omega

lemma Framed.phisAt_eq_nil (h : Framed s) (hl : s.labels.size < l) : s.phisAt l = [] := by
  refine filter_eq_nil_iff.2 fun p hp => ?_
  rw [decide_eq_true_eq]
  exact fun heq => Nat.not_le.2 hl (heq ▸ h.sites p hp)

lemma Framed.of_taken (h : Framed s) (hlabels : s.labels.size ≤ t.labels.size)
    (hjumps : t.jumps = s.jumps) (hphis : t.phis = s.phis) (hscope : t.scope ≠ [])
    (hnodup : t.arm.keys.Nodup) (hcurrent : t.current = s.current) (hloops : t.loops = s.loops) :
    Framed t where
  scope := hscope
  nodup := hnodup
  ends := by
    unfold LowerState.Live
    rw [hcurrent]
    exact h.ends
  targets x hx := Nat.le_trans (h.targets x (hjumps ▸ hx)) hlabels
  sites p hp := Nat.le_trans (h.sites p (hphis ▸ hp)) hlabels
  ways loop hloop := by
    have hw := h.ways loop (hloops ▸ hloop)
    have hsrc (l : Nat) : t.sources l = s.sources l := by
      unfold LowerState.sources
      rw [hjumps]
    exact ⟨hw.start_pos, hw.start_lt, Nat.le_trans hw.stop_le hlabels,
      (congrArg List.length (hsrc _)).trans hw.continues,
      (congrArg List.length (hsrc _)).trans hw.breaks, hw.vals⟩

end Framed

/-! ## Simple statements -/

lemma Framed.inScope (h : Framed s) {scope : List Bindings} (hne : scope ≠ [])
    (hnd : (scope.headD []).keys.Nodup) : Framed (s.inScope scope) :=
  ⟨hne, hnd, h.targets, h.sites, h.ends, fun loop hloop =>
    have hw := h.ways loop hloop
    ⟨hw.start_pos, hw.start_lt, hw.stop_le, hw.continues, hw.breaks, hw.vals⟩⟩

lemma region_of_emits (h : Framed s) (he : Emits s t) : Region s t where
  adds := he.adds.mono (nil_subset _)
  tail := by rw [he.scope]
  loops := by
    rw [he.loops]
    exact .refl _
  framed := by
    refine h.of_adds he.adds nofun nofun ?_ ?_ ?_ he.loops
    · rw [he.scope]
      exact h.scope
    · rw [arm, he.scope]
      exact h.nodup
    · unfold LowerState.Live
      rw [he.term]
      exact h.ends

lemma nodup_keys_setIn {scope : List Bindings} (hnd : (scope.headD []).keys.Nodup) (v : VarId)
    (id : ValueId) : ((setIn scope v id).headD []).keys.Nodup := by
  cases scope with
  | nil => simp [setIn, Assoc.set, Assoc.keys]
  | cons b rest => exact Assoc.nodup_keys_set hnd

lemma setIn_ne_nil (scope : List Bindings) (v : VarId) (id : ValueId) : setIn scope v id ≠ [] := by
  cases scope <;> simp [setIn]

lemma region_bound (h : Framed s) (v : VarId) (id : ValueId) : Region s (s.bound v id) where
  adds := (Adds.refl _ s).inScope _
  tail := tail_setIn s.scope v id
  loops := .refl _
  framed := h.inScope (setIn_ne_nil _ _ _) (nodup_keys_setIn h.nodup v id)

lemma scope_meetAll (label : LabelId) (ms : List (VarId × Meet)) (hne : s.scope ≠ [])
    (hnd : s.arm.keys.Nodup) :
    (s.meetAll c label ms).scope ≠ [] ∧ (s.meetAll c label ms).arm.keys.Nodup ∧
      (s.meetAll c label ms).scope.tail = s.scope.tail := by
  induction ms generalizing s with
  | nil => exact ⟨hne, hnd, rfl⟩
  | cons x rest ih =>
    obtain ⟨v, m⟩ := x
    have hset (u : LowerState) (id : ValueId) (hu : u.scope = s.scope) :
        (u.bound v id).scope ≠ [] ∧ (u.bound v id).arm.keys.Nodup ∧
          (u.bound v id).scope.tail = s.scope.tail := by
      unfold bound arm LowerState.inScope
      rw [hu]
      exact ⟨setIn_ne_nil _ _ _, nodup_keys_setIn hnd v id, tail_setIn _ _ _⟩
    have hmeet : (s.meet c label v m).scope ≠ [] ∧ (s.meet c label v m).arm.keys.Nodup ∧
        (s.meet c label v m).scope.tail = s.scope.tail := by
      cases m with
      | phi branches => exact hset _ _ rfl
      | take id => exact hset _ _ rfl
      | keep => exact ⟨hne, hnd, rfl⟩
    obtain ⟨h1, h2, h3⟩ := ih hmeet.1 hmeet.2.1
    exact ⟨h1, h2, h3.trans hmeet.2.2⟩

lemma region_close (h : Framed s) (hlive : s.Live) {term : Term} (hterm : term.targets = [])
    (hends : term.fallsThrough = false) : Region s (s.close term) where
  adds := .close hlive (by simp [hterm])
  tail := rfl
  loops := .refl _
  framed := by
    have hadds : Adds [] [] [] s (s.close term) := .close hlive (by simp [hterm])
    exact h.of_adds hadds nofun nofun h.scope h.nodup
      (fun h => absurd (hends.symm.trans h) Bool.false_ne_true) rfl

lemma bindVar_eq (v : VarId) (a : Atom) : bindVar c v a s = .ok ((),
    ((s.addValue (c.module.varType v)).append (.assign s.types.size a)).bound v s.types.size) :=
  rfl

lemma region_bindVar (h : Framed s) (hlive : s.Live) {v : VarId} {a : Atom}
    (hrun : bindVar c v a s = .ok ((), t)) : Region s t := by
  cases (bindVar_eq v a).symm.trans hrun
  have hdef : Region s ((s.addValue (c.module.varType v)).append (.assign s.types.size a)) :=
    region_of_emits h (.define hlive _ rfl)
  exact hdef.trans (region_bound hdef.framed v _)

lemma sources_goto (hlive : s.Live) (l l' : Nat) :
    (s.close (.goto l)).sources l' = s.sources l' ++ if l = l' then [s.blocks.size] else [] := by
  unfold LowerState.sources
  rw [jumps_close hlive, filter_append, map_append]
  split
  case isTrue h => simp [Term.targets, h]
  case isFalse h => simp [Term.targets, h]

lemma region_lowerLoopExit (h : Framed s) (hlive : s.Live) {again : Bool}
    (hrun : lowerLoopExit c again s = .ok ((), t)) : Region s t := by
  obtain ⟨loop, outer, vals, hloops, hvals, rfl⟩ := lowerLoopExit_eq_ok.1 hrun
  obtain ⟨ids, hids, heq⟩ := mapM_varValue_eq_ok.1 hvals
  obtain ⟨rfl, -⟩ := Prod.mk.inj heq
  have hlen : vals.length = loop.carried.length := by
    simpa using (congrArg List.length hids).symm
  have hw := h.ways loop (by simp [hloops])
  have hexit : loop.exit again ∈ exits s.loops := by
    rw [hloops]
    cases again <;> simp [LoopFrame.exit, exits]
  have hlive' : (s.inLoops (loop.left again vals :: outer)).Live := hlive
  have hadds : Adds (exits s.loops) [] [] s
      ((s.inLoops (loop.left again vals :: outer)).close (.goto (loop.exit again))) :=
    ((Adds.refl _ s).inLoops _).trans (.close hlive' (by simpa [Term.targets] using hexit))
  refine ⟨hadds, rfl, ?_, ⟨h.scope, h.nodup, ?_, h.sites, by rintro ⟨⟩, ?_⟩⟩
  · rw [hloops]
    refine ⟨loop.left again vals, rfl, ?_⟩
    cases again
    · exact ⟨rfl, rfl, rfl, suffix_rfl, suffix_cons _ _⟩
    · exact ⟨rfl, rfl, rfl, suffix_cons _ _, suffix_rfl⟩
  · intro x hx
    rw [jumps_close hlive'] at hx
    rcases mem_append.1 hx with hx | hx
    · exact h.targets x hx
    · obtain ⟨l, hl, rfl⟩ := mem_map.1 hx
      cases mem_singleton.1 hl
      exact h.exit_le hexit
  · intro loop' hloop'
    obtain rfl : loop.left again vals = loop' := Option.some.inj hloop'
    have hne : loop.start ≠ loop.stop := Nat.ne_of_lt hw.start_lt
    have hsrc (l : Nat) : (LowerState.sources _ l) = s.sources l ++ _ :=
      sources_goto hlive' (loop.exit again) l
    cases again with
    | false =>
      refine ⟨hw.start_pos, hw.start_lt, hw.stop_le, (congrArg List.length (hsrc _)).trans ?_,
        (congrArg List.length (hsrc _)).trans ?_, ?_⟩
      · simpa [left, LoopFrame.exit, hne.symm] using hw.continues
      · simpa [left, LoopFrame.exit] using hw.breaks
      · simpa [left, or_imp, forall_and, hlen] using hw.vals
    | true =>
      refine ⟨hw.start_pos, hw.start_lt, hw.stop_le, (congrArg List.length (hsrc _)).trans ?_,
        (congrArg List.length (hsrc _)).trans ?_, ?_⟩
      · simpa [left, LoopFrame.exit] using hw.continues
      · simpa [left, LoopFrame.exit, hne] using hw.breaks
      · simpa [left, or_imp, forall_and, hlen] using hw.vals

/-! ## Choices -/

def Regional (m : Lower Unit) : Prop :=
  ∀ {s t : LowerState}, s.Live → Framed s → m s = .ok ((), t) → Region s t

def choiceLabels (s : LowerState) : LowerState :=
  ((s.addLabel "then").addLabel "else").addLabel "endif"

lemma size_choiceLabels (s : LowerState) : (choiceLabels s).labels.size = s.labels.size + 3 := by
  simp [choiceLabels]

lemma grows_choiceLabels (s : LowerState) : Grows s (choiceLabels s) :=
  ((grows_addLabel s _).trans (grows_addLabel _ _)).trans (grows_addLabel _ _)

lemma Framed.choiceLabels (h : Framed s) : Framed (choiceLabels s) :=
  h.of_taken (grows_choiceLabels s).labels rfl rfl h.scope h.nodup rfl rfl

namespace ChoiceRun

variable {cond : Typed.Expr} {thenArm elseArm : Lower Unit}

def thenStart (r : ChoiceRun c cond thenArm elseArm s) : LowerState :=
  (r.afterCond.opened (s.labels.size + 1)).inScope ([] :: r.afterCond.scope)

/-- The state behind the first arm, with the jump over the second. -/
def thenEnd (r : ChoiceRun c cond thenArm elseArm s) : LowerState :=
  if r.afterThen.Live then r.afterThen.close (.goto (s.labels.size + 3)) else r.afterThen

def elseStart (r : ChoiceRun c cond thenArm elseArm s) : LowerState :=
  (r.thenEnd.opened (s.labels.size + 2)).inScope ([] :: r.afterCond.scope)

def meets (r : ChoiceRun c cond thenArm elseArm s) : List (VarId × Meet) :=
  armMeets (decide r.afterThen.Live) (decide r.afterElse.Live) r.joinStart.lookup r.afterThen.arm
    r.afterElse.arm

structure Layout (r : ChoiceRun c cond thenArm elseArm s) (t : LowerState) : Prop where
  cond : Branches (s.labels.size + 1) (s.labels.size + 2) (choiceLabels s) r.afterCond
  thenLoops : r.thenStart.loops = s.loops
  thenFramed : Framed r.thenStart
  thenRegion : Region r.thenStart r.afterThen
  jump : Adds [s.labels.size + 3] [] [] r.afterThen r.thenEnd
  elseLoops : r.elseStart.loops = r.afterThen.loops
  elseFramed : Framed r.elseStart
  elseRegion : Region r.elseStart r.afterElse
  join : Adds [] [s.labels.size + 3] [] r.afterElse t
  join_eq : t = r.joinStart.meetAll c (s.labels.size + 3) r.meets
  region : Region s t

lemma layout (r : ChoiceRun c cond thenArm elseArm s) (hlive : s.Live) (h : Framed s)
    (hthen : Regional thenArm) (helse : Regional elseArm)
    (hmerge : mergeArms c (s.labels.size + 3) r.afterThen.arm r.afterElse.arm
      (decide r.afterThen.Live) (decide r.afterElse.Live) r.joinStart = .ok ((), t)) :
    r.Layout t := by
  have hcond : Branches (s.labels.size + 1) (s.labels.size + 2) (choiceLabels s) r.afterCond :=
    branches_lowerCond cond (s := choiceLabels s) hlive r.cond_eq
  have hlabels : s.labels.size + 3 ≤ r.afterCond.labels.size :=
    size_choiceLabels s ▸ hcond.adds.grows.labels
  have hcondLoops : r.afterCond.loops = s.loops := hcond.loops
  have hcondScope : r.afterCond.scope = s.scope := hcond.scope
  -- the first arm
  have hthenAdds : Adds [s.labels.size + 1, s.labels.size + 2] [s.labels.size + 1] []
      (choiceLabels s) r.thenStart := (hcond.adds.trans (.opened _ _)).inScope _
  have hthenFramed : Framed r.thenStart := by
    refine (h.choiceLabels).of_adds hthenAdds ?_ ?_ (by rintro ⟨⟩) nodup_nil (fun _ => rfl) hcondLoops
    · intro l hl
      refine ⟨fun hmem => ?_, ?_⟩
      · have := h.exit_le hmem
        simp at hl
        omega
      · change l ≤ r.afterCond.labels.size
        simp at hl
        omega
    · intro l hl
      change r.afterCond.labels.size ≥ l
      simp at hl
      omega
  have hthenRegion : Region r.thenStart r.afterThen := hthen rfl hthenFramed r.then_eq
  have hthenExits : exits r.afterThen.loops = exits s.loops := by
    rw [hthenRegion.loops.exits]
    exact congrArg exits hcondLoops
  have hthenLabels : r.afterCond.labels.size ≤ r.afterThen.labels.size :=
    hthenRegion.adds.grows.labels
  have hjump : Adds [s.labels.size + 3] [] [] r.afterThen r.thenEnd := by
    unfold ChoiceRun.thenEnd
    split
    case isTrue hl => exact .close hl (by simp [Term.targets])
    case isFalse => exact .refl _ _
  have hjumpLoops : r.thenEnd.loops = r.afterThen.loops := by
    unfold ChoiceRun.thenEnd
    split <;> rfl
  -- the second arm
  have helseAdds : Adds [s.labels.size + 3] [s.labels.size + 2] [] r.afterThen r.elseStart :=
    (hjump.trans (.opened _ _)).inScope _
  have helseLabels : r.afterThen.labels.size ≤ r.elseStart.labels.size := helseAdds.grows.labels
  have helseFramed : Framed r.elseStart := by
    refine hthenRegion.framed.of_adds helseAdds ?_ ?_ (by rintro ⟨⟩) nodup_nil (fun _ => rfl) hjumpLoops
    · intro l hl
      rw [hthenExits]
      refine ⟨fun hmem => ?_, ?_⟩
      · have := h.exit_le hmem
        simp at hl
        omega
      · simp at hl
        omega
    · intro l hl
      simp at hl
      omega
  have helseRegion : Region r.elseStart r.afterElse := helse rfl helseFramed r.else_eq
  have helseExits : exits r.elseStart.loops = exits s.loops := by
    rw [← hthenExits]
    exact congrArg exits hjumpLoops
  have hjoin : t = r.joinStart.meetAll c (s.labels.size + 3) r.meets := by
    have hnd := nodup_touched hthenRegion.framed.nodup helseRegion.framed.nodup
    rw [mergeArms_eq (s.labels.size + 3) _ _ hnd] at hmerge
    exact (congrArg Prod.snd (Except.ok.inj hmerge)).symm
  -- both arms and the place where they meet
  have hjoinAdds : Adds [] [s.labels.size + 3] [] r.afterElse t := by
    rw [hjoin]
    exact ((Adds.opened _ _).inScope _).meetAll mem_cons_self _
  obtain ⟨hne, hnd, htail⟩ := scope_meetAll (c := c) (s := r.joinStart) (s.labels.size + 3) r.meets
    (by rw [show r.joinStart.scope = s.scope from hcondScope]; exact h.scope)
    (by rw [arm, show r.joinStart.scope = s.scope from hcondScope]; exact h.nodup)
  rw [← hjoin] at hne hnd htail
  have hloops : t.loops = r.afterElse.loops := by
    rw [hjoin, meetAll_eq]
    rfl
  have hthenAll : Adds (exits s.loops) [] [] r.thenStart r.afterThen :=
    (congrArg exits hcondLoops) ▸ hthenRegion.adds
  have helseAll : Adds (exits s.loops) [] [] r.elseStart r.afterElse :=
    helseExits ▸ helseRegion.adds
  have hall : Adds ([s.labels.size + 1, s.labels.size + 2, s.labels.size + 3] ++ exits s.loops)
      [s.labels.size + 1, s.labels.size + 2, s.labels.size + 3] [] (Ssa.choiceLabels s) t := by
    have hsub := subset_append_right
      [s.labels.size + 1, s.labels.size + 2, s.labels.size + 3] (exits s.loops)
    have h1 := Adds.trans (hthenAdds.mono (by simp)) (hthenAll.mono hsub)
    have h2 := h1.trans (helseAdds.mono (by simp))
    have h3 := h2.trans (helseAll.mono hsub)
    exact h3.trans (hjoinAdds.mono (nil_subset _))
  refine ⟨hcond, hcondLoops, hthenFramed, hthenRegion, hjump, hjumpLoops, helseFramed, helseRegion,
    hjoinAdds, hjoin, ?_, ?_, ?_, ?_⟩
  · refine hall.of_taken (grows_choiceLabels s) rfl rfl rfl rfl (fun l => ?_) (fun id => ?_) ?_
    · rw [size_choiceLabels]
      simp only [count_cons, count_nil, within, beq_iff_eq]
      split_ifs <;> omega
    · exact (within_self _ _).symm ▸ rfl
    · intro l hl
      rw [size_choiceLabels]
      rcases mem_append.1 hl with hl | hl
      · simp at hl
        omega
      · exact .inl hl
  · exact htail.trans (congrArg List.tail hcondScope)
  · rw [hloops]
    have hfirst : LoopsBecome s.loops r.afterThen.loops := hcondLoops ▸ hthenRegion.loops
    have hsecond : LoopsBecome r.afterThen.loops r.afterElse.loops := hjumpLoops ▸ helseRegion.loops
    exact hfirst.trans hsecond
  · have hlast : t.Live := by
      rw [hjoin, meetAll_eq]
      rfl
    refine helseRegion.framed.of_adds hjoinAdds (by simp) ?_ hne hnd (fun _ => hlast) hloops
    have := helseRegion.adds.grows.labels
    have := hjoinAdds.grows.labels
    intro l hl
    simp at hl
    omega

end ChoiceRun

/-! ## Loops -/

def loopLabels (c : LowerContext) (s : LowerState) (body : List Typed.Stmt) : LowerState :=
  ((((s.addLabel "while").addLabel "body").addLabel "exit").addLabel "endwhile").addValues
    ((carriedBy s body).map c.module.varType)

section LoopLabels

variable {body : List Typed.Stmt}

lemma size_labels_loopLabels : (loopLabels c s body).labels.size = s.labels.size + 4 := by
  simp [loopLabels, addValues]

lemma size_types_loopLabels :
    (loopLabels c s body).types.size = s.types.size + (carriedBy s body).length := by
  simp [loopLabels, addValues, addLabel]

lemma grows_loopLabels : Grows s (loopLabels c s body) :=
  ((((grows_addLabel s _).trans (grows_addLabel _ _)).trans (grows_addLabel _ _)).trans
    (grows_addLabel _ _)).trans (grows_addValues _ _)

end LoopLabels

namespace LoopRun

variable {cond : Typed.Expr} {body : List Typed.Stmt} {run : Lower Unit}

def fresh (_ : LoopRun c cond body run s) : LoopFrame :=
  ⟨s.labels.size + 1, s.labels.size + 4, carriedBy s body, [], []⟩

def bodyStart (r : LoopRun c cond body run s) : LowerState :=
  (r.afterCond.opened (s.labels.size + 2)).inLoops (r.fresh :: r.afterCond.loops)

def result (r : LoopRun c cond body run s) : LowerState :=
  r.closed.meetAll c (s.labels.size + 4) r.meets

structure Layout (r : LoopRun c cond body run s) : Prop where
  head : Adds [] [s.labels.size + 1] [] (loopLabels c s body) (loopHead c s body)
  cond : Branches (s.labels.size + 2) (s.labels.size + 3) (loopHead c s body) r.afterCond
  framed : Framed r.bodyStart
  body : Region r.bodyStart r.afterBody
  loops : r.afterBody.loops = r.loop :: s.loops
  becomes : r.fresh.Becomes r.loop
  back : Adds [s.labels.size + 1] [] [] r.afterBody r.afterBack
  region : Region s r.result

lemma headPhis_label {start : LabelId} {ways : List (List ValueId)} {n : Nat}
    {vars : List (ValueId × ValueId)} {p : Phi} (hp : p ∈ headPhis start ways n vars) :
    p.label = start := by
  obtain ⟨i, hi⟩ := mem_iff_getElem?.1 hp
  rw [getElem?_headPhis, Option.map_eq_some_iff] at hi
  obtain ⟨x, -, rfl⟩ := hi
  rfl

lemma headPhis_dsts (start : LabelId) (ways : List (List ValueId)) (n : Nat)
    (vars : List (ValueId × ValueId)) :
    (headPhis start ways n vars).map (·.dst) = vars.map (·.1) := by
  induction vars generalizing n with
  | nil => rfl
  | cons x vars ih =>
    obtain ⟨head, entry⟩ := x
    rw [headPhis, map_cons, map_cons, ih]

lemma phis_dsts (r : LoopRun c cond body run s) : r.phis.map (·.dst) = headsOf s body := by
  unfold LoopRun.phis
  rw [headPhis_dsts, map_fst_zip]
  simp [headsOf, carriedBy]

lemma framed_bodyStart (r : LoopRun c cond body run s) (h : Framed s)
    (hcond : Branches (s.labels.size + 2) (s.labels.size + 3) (loopHead c s body) r.afterCond)
    (hadds : Adds [s.labels.size + 2, s.labels.size + 3] [s.labels.size + 1, s.labels.size + 2] []
      (loopLabels c s body) r.bodyStart) : Framed r.bodyStart := by
  have hsize : (loopLabels c s body).labels.size = s.labels.size + 4 := size_labels_loopLabels
  have hlabels := hadds.grows.labels
  have hscope : r.bodyStart.scope = (carriedBy s body).zip (headsOf s body) :: s.scope :=
    hcond.scope
  have htaken : Framed (loopLabels c s body) :=
    h.of_taken grows_loopLabels.labels rfl rfl h.scope h.nodup rfl rfl
  have hnone {l : Nat} (hl : s.labels.size < l) (hle : l ≤ s.labels.size + 4)
      (hout : l ∉ [s.labels.size + 2, s.labels.size + 3]) : r.bodyStart.sources l = [] := by
    rw [hadds.sources (by omega) hout]
    exact h.sources_eq_nil hl
  refine ⟨?_, ?_, fun x hx => ?_, fun p hp => ?_, fun _ => rfl, ?_⟩
  · rw [hscope]
    exact cons_ne_nil _ _
  · rw [arm, hscope]
    change (Assoc.keys ((carriedBy s body).zip (headsOf s body))).Nodup
    rw [keys_zip_headsOf]
    exact nodup_carriedBy s body
  · obtain ⟨new, hnew, hin⟩ := hadds.jumps
    rw [hnew] at hx
    rcases mem_append.1 hx with hx | hx
    · exact Nat.le_trans (htaken.targets x hx) hlabels
    · rcases hin x hx with hx | hx
      · simp at hx
        omega
      · exact hx.2
  · obtain ⟨new, hnew, hin⟩ := hadds.phis
    rw [hnew] at hp
    rcases mem_append.1 hp with hp | hp
    · exact Nat.le_trans (htaken.sites p hp) hlabels
    · have hpre : ∀ l ∈ [s.labels.size + 1, s.labels.size + 2], r.bodyStart.labels.size ≥ l := by
        simp only [mem_cons, not_mem_nil, or_false]
        omega
      exact (hin p hp).elim (hpre _) (·.2)
  · intro loop hloop
    obtain rfl : r.fresh = loop := Option.some.inj hloop
    refine ⟨Nat.succ_pos _, ?_, ?_, ?_, ?_, nofun⟩
    · exact Nat.add_lt_add_left (by decide) _
    · change s.labels.size + 4 ≤ _
      omega
    · exact congrArg List.length (hnone (Nat.lt_succ_self _) (by omega) (by simp))
    · exact congrArg List.length (hnone (Nat.lt_add_of_pos_right (by decide)) (by omega) (by simp))

lemma layout (r : LoopRun c cond body run s) (h : Framed s) (hrun : Regional run) : r.Layout := by
  have hsize : (loopLabels c s body).labels.size = s.labels.size + 4 := size_labels_loopLabels
  have hhead : Adds [] [s.labels.size + 1] [] (loopLabels c s body) (loopHead c s body) :=
    (Adds.opened (loopLabels c s body) (s.labels.size + 1)).inScope _
  have hcond : Branches (s.labels.size + 2) (s.labels.size + 3) (loopHead c s body) r.afterCond :=
    branches_lowerCond cond (s := loopHead c s body) rfl r.cond_eq
  have hbodyAdds : Adds [s.labels.size + 2, s.labels.size + 3]
      [s.labels.size + 1, s.labels.size + 2] [] (loopLabels c s body) r.bodyStart :=
    (((hhead.mono (nil_subset _)).trans hcond.adds).trans (.opened _ _)).inLoops _
  have hframed := r.framed_bodyStart h hcond hbodyAdds
  have hbody : Region r.bodyStart r.afterBody := hrun rfl hframed r.body_eq
  -- the way back from the end of the body
  have hback : Adds [s.labels.size + 1] [] [] r.afterBody r.afterBack ∧
      r.afterBack.loops = r.afterBody.loops := by
    rcases lowerBack_eq_ok.1 r.back_eq with ⟨-, -, heq⟩ | ⟨hlive, vals, -, -, heq⟩
    · rw [heq]
      exact ⟨.refl _ _, rfl⟩
    · rw [heq]
      exact ⟨.close hlive (by simp [Term.targets]), rfl⟩
  obtain ⟨loop, hloop, hbecomes⟩ : LoopsBecome (r.fresh :: r.afterCond.loops) r.afterBody.loops :=
    hbody.loops
  have hloop' : r.loop = loop := by
    unfold LoopRun.loop
    rw [hback.2, hloop]
    rfl
  have hcondLoops : r.afterCond.loops = s.loops := hcond.loops
  rw [hcondLoops, ← hloop'] at hloop
  -- everything from the labels to the phis at the end
  have hall : Adds [s.labels.size + 1, s.labels.size + 2, s.labels.size + 3, s.labels.size + 4]
      [s.labels.size + 1, s.labels.size + 2, s.labels.size + 3, s.labels.size + 4] (headsOf s body)
      (loopLabels c s body) r.result := by
    have h1 : Adds [s.labels.size + 1, s.labels.size + 2, s.labels.size + 3, s.labels.size + 4]
        [s.labels.size + 1, s.labels.size + 2] [] (loopLabels c s body) r.afterBack :=
      ((hbodyAdds.mono (by simp)).trans (hbody.adds.mono (by
        simp [bodyStart, LowerState.inLoops, exits, fresh]))).trans (hback.1.mono (by simp))
    have hphis : ∀ p ∈ r.phis, p.label ∈ [s.labels.size + 1, s.labels.size + 2] :=
      fun p hp => headPhis_label hp ▸ mem_cons_self
    have h2 := ((h1.inLoops r.afterBack.loops.tail).inScope s.scope).addPhis hphis
    rw [r.phis_dsts] at h2
    have h3 := h2.trans (.opened _ (s.labels.size + 3))
    have h4 := h3.trans (.opened _ (s.labels.size + 4))
    rw [append_nil, append_nil] at h4
    exact h4.meetAll (by simp) _
  have hadds : Adds [] [] [] s r.result := by
    refine hall.of_taken grows_loopLabels rfl rfl rfl rfl (fun l => ?_) (fun id => ?_) ?_
    · rw [hsize]
      simp only [count_cons, count_nil, within, beq_iff_eq]
      split_ifs <;> omega
    · rw [size_types_loopLabels, headsOf, count_range', count_nil, Nat.zero_add]
    · intro l hl
      rw [hsize]
      simp at hl
      omega
  obtain ⟨hne, hnd, htail⟩ := scope_meetAll (c := c) (s := r.closed) (s.labels.size + 4) r.meets
    h.scope h.nodup
  have hloops : r.result.loops = s.loops := by
    unfold result
    rw [meetAll_eq]
    change r.afterBack.loops.tail = s.loops
    rw [hback.2, hloop]
    rfl
  refine ⟨hhead, hcond, hframed, hbody, hloop, hloop' ▸ hbecomes, hback.1, ?_, htail, ?_, ?_⟩
  · exact hadds.mono (nil_subset _)
  · rw [hloops]
    exact .refl _
  · refine h.of_adds hadds (by simp) (by simp) hne hnd (fun _ => ?_) hloops
    unfold result
    rw [meetAll_eq]
    rfl

end LoopRun

/-! ## Statements -/

lemma lowerStmts_cons_eq (st : Typed.Stmt) (sts : List Typed.Stmt) (s : LowerState) :
    lowerStmts c (st :: sts) s =
      if s.Live then (lowerStmt c st >>= fun _ => lowerStmts c sts) s else .ok ((), s) := by
  rw [lowerStmts, bind_of_eq_ok (terminated_eq s)]
  by_cases hlive : s.Live
  · simp only [hlive, decide_true, Bool.not_true, Bool.false_eq_true, if_false, if_true]
  · simp only [hlive, decide_false, Bool.not_false, if_true, if_false]
    rfl

lemma lowerStmts_cons_eq_ok {st : Typed.Stmt} {sts : List Typed.Stmt} (hlive : s.Live) :
    lowerStmts c (st :: sts) s = .ok ((), t) ↔
      ∃ s1, lowerStmt c st s = .ok ((), s1) ∧ lowerStmts c sts s1 = .ok ((), t) := by
  rw [lowerStmts_cons_eq, if_pos hlive, bind_eq_ok]
  exact ⟨fun ⟨_, s1, h, h'⟩ => ⟨s1, h, h'⟩, fun ⟨s1, h, h'⟩ => ⟨(), s1, h, h'⟩⟩

lemma lowerStmts_of_not_live {sts : List Typed.Stmt} (hlive : ¬ s.Live) :
    lowerStmts c sts s = .ok ((), s) := by
  cases sts with
  | nil =>
    exact pure_eq_ok.2 rfl
  | cons st sts => rw [lowerStmts_cons_eq, if_neg hlive]

lemma regional_pure : Regional (pure ()) := by
  intro s t _ h hrun
  cases pure_eq_ok.1 hrun
  exact .refl h

mutual

lemma region_lowerStmt (st : Typed.Stmt) : Regional (lowerStmt c st) := by
  intro s t hlive h hrun
  match st with
  | .letVar _ v e | .assign _ v e =>
    obtain ⟨a, s1, ha, hrun⟩ := bind_eq_ok.1 hrun
    have ha := emits_lowerExpr e hlive ha
    have hr := region_of_emits h ha
    exact hr.trans (region_bindVar hr.framed (ha.live hlive) hrun)
  | .expr _ e =>
    obtain ⟨a, s1, ha, hrun⟩ := bind_eq_ok.1 hrun
    cases pure_eq_ok.1 hrun
    exact region_of_emits h (emits_lowerExpr e hlive ha)
  | .ret _ none =>
    cases modify_eq_ok.1 hrun
    exact region_close h hlive rfl rfl
  | .ret _ (some e) =>
    obtain ⟨a, s1, ha, hrun⟩ := bind_eq_ok.1 hrun
    cases modify_eq_ok.1 hrun
    have ha := emits_lowerExpr e hlive ha
    have hr := region_of_emits h ha
    exact hr.trans (region_close hr.framed (ha.live hlive) rfl rfl)
  | .breakLoop _ | .continueLoop _ =>
    exact region_lowerLoopExit h hlive hrun
  | .ifElse _ cond t none =>
    obtain ⟨r, hmerge⟩ := lowerChoice_eq_ok.1 hrun
    exact (r.layout hlive h (region_lowerStmts t) regional_pure hmerge).region
  | .ifElse _ cond t (some e) =>
    obtain ⟨r, hmerge⟩ := lowerChoice_eq_ok.1 hrun
    exact (r.layout hlive h (region_lowerStmts t) (region_lowerStmts e) hmerge).region
  | .whileDo _ cond body =>
    obtain ⟨r, rfl⟩ := lowerLoop_eq_ok.1 hrun
    exact (r.layout h (region_lowerStmts body)).region

lemma region_lowerStmts (sts : List Typed.Stmt) : Regional (lowerStmts c sts) := by
  intro s t hlive h hrun
  match sts with
  | [] =>
    exact regional_pure hlive h hrun
  | st :: sts =>
    obtain ⟨s1, hst, hrun⟩ := (lowerStmts_cons_eq_ok hlive).1 hrun
    have hr := region_lowerStmt st hlive h hst
    by_cases hlive1 : s1.Live
    · exact hr.trans (region_lowerStmts sts hlive1 hr.framed hrun)
    · cases (lowerStmts_of_not_live hlive1).symm.trans hrun
      exact hr

end

end VecLang.Ssa
