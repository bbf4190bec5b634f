import Mathlib.Data.List.Induction
import Mathlib.Data.List.NodupEquivFin
import VecLang.Proofs.Ssa.Variables

/-!
# Edges

The ways into a block, in the order of the blocks that they come from. Where the code of a choice
or a loop is finished, its labels are reached in just the ways that were made for them
(`Complete`), and in the order in which the values of its phis were written down.
-/

namespace VecLang.Ssa

open Stateful LowerState List

/-! ## Ways into a block -/

/-- A way into a block: a jump from the end of a block, or on from the block before. -/
inductive Way where
  | jump (source : Nat)
  | fall (source : Nat)
deriving DecidableEq

def waysFrom (blocks : Array Block) (j i : Nat) : List Way :=
  match blocks[i]? with
  | none => []
  | some b =>
    (b.term.targets.filter fun l => blockOf? blocks l = some j).map (fun _ => .jump i) ++
      if b.term.fallsThrough ∧ i + 1 = j then [.fall i] else []

def arrivals (blocks : Array Block) (j : Nat) : List Way :=
  (List.range blocks.size).flatMap (waysFrom blocks j)

variable {i : Nat} {b : Block}

lemma jump_mem_arrivals {blocks : Array Block} {j : Nat} {l : LabelId}
    (hi : blocks[i]? = some b) (hl : l ∈ b.term.targets) (hj : blockOf? blocks l = some j) :
    .jump i ∈ arrivals blocks j := by
  refine mem_flatMap.2 ⟨i, mem_range.2 (Array.getElem?_eq_some_iff.1 hi).1, ?_⟩
  rw [waysFrom, hi]
  exact mem_append_left _ (mem_map.2 ⟨l, mem_filter.2 ⟨hl, decide_eq_true hj⟩, rfl⟩)

lemma fall_mem_arrivals {blocks : Array Block} (hi : blocks[i]? = some b)
    (hfall : b.term.fallsThrough = true) : .fall i ∈ arrivals blocks (i + 1) := by
  refine mem_flatMap.2 ⟨i, mem_range.2 (Array.getElem?_eq_some_iff.1 hi).1, ?_⟩
  rw [waysFrom, hi]
  refine mem_append_right _ ?_
  rw [if_pos ⟨hfall, rfl⟩]
  exact mem_singleton_self _

def Distinct (blocks : Array Block) : Prop :=
  ∀ {i j : Nat} {b b' : Block}, blocks[i]? = some b → blocks[j]? = some b' →
    b.label = b'.label → b.label ≠ 0 → i = j

lemma eq_of_count_le_one {xs : List Nat} {x j : Nat} (hcount : xs.count x ≤ 1)
    (hi : xs[i]? = some x) (hj : xs[j]? = some x) : i = j := by
  have hlt {i j : Nat} (hij : i < j) (hi : xs[i]? = some x) (hj : xs[j]? = some x) : False := by
    obtain ⟨hi', hi⟩ := List.getElem?_eq_some_iff.1 hi
    obtain ⟨hj', hj⟩ := List.getElem?_eq_some_iff.1 hj
    have htwice := duplicate_iff_exists_distinct_get.2
      ⟨⟨i, hi'⟩, ⟨j, hj'⟩, hij, hi.symm, hj.symm⟩
    exact absurd (duplicate_iff_two_le_count.1 htwice) (by omega)
  rcases Nat.lt_trichotomy i j with h | h | h
  · exact (hlt h hi hj).elim
  · exact h
  · exact (hlt h hj hi).elim

variable {blocks : Array Block} {l i j : Nat}

lemma distinct_of_count (h : ∀ l ≠ 0, (blocks.toList.map (·.label)).count l ≤ 1) :
    Distinct blocks := by
  intro i j b b' hi hj hlab hne
  refine eq_of_count_le_one (h b.label hne) ?_ ?_
  · simp [hi]
  · simp [hj, hlab]

lemma blockOf?_eq_some (h : blockOf? blocks l = some j) :
    l ≠ 0 ∧ ∃ b, blocks[j]? = some b ∧ b.label = l := by
  unfold blockOf? at h
  split at h
  case isTrue => cases h
  case isFalse hl =>
    have hj := find?_some h
    rw [decide_eq_true_eq, Option.map_eq_some_iff] at hj
    exact ⟨hl, hj⟩

lemma Distinct.blockOf?_eq (hd : Distinct blocks) (hl : l ≠ 0)
    (hj : blocks[j]? = some b) (hb : b.label = l) : blockOf? blocks l = some j := by
  have hsome : (blockOf? blocks l).isSome := by
    unfold blockOf?
    rw [if_neg hl, find?_isSome]
    refine ⟨j, ?_, by simp [hj, hb]⟩
    rw [mem_reverse, mem_range]
    exact (Array.getElem?_eq_some_iff.1 hj).1
  obtain ⟨i, hi⟩ := Option.isSome_iff_exists.1 hsome
  obtain ⟨-, b', hb', hlab⟩ := blockOf?_eq_some hi
  rw [hi, hd hb' hj (hlab.trans hb.symm) (hlab ▸ hl)]

def jumpsFrom (blocks : Array Block) (l i : Nat) : List Nat :=
  match blocks[i]? with
  | none => []
  | some b => (b.term.targets.filter fun l' => l' = l).map fun _ => i

lemma sources_eq (s : LowerState) (l : Nat) :
    s.sources l = (List.range s.all.size).flatMap (jumpsFrom s.all l) := by
  have key (bs : List Block) : ((bs.zipIdx.flatMap fun x => x.1.term.targets.map (x.2, ·)).filter
      fun x => x.2 = l).map (·.1) = (List.range bs.length).flatMap (jumpsFrom bs.toArray l) := by
    induction bs using List.reverseRecOn with
    | nil => rfl
    | append_singleton bs b ih =>
      rw [zipIdx_append, flatMap_append, filter_append, map_append, ih,
        length_append, length_singleton, range_succ, flatMap_append]
      congr 1
      · -- the blocks before are the same
        refine flatMap_congr fun i hi => ?_
        unfold jumpsFrom
        rw [getElem?_toArray, getElem?_toArray, getElem?_append_left (mem_range.1 hi)]
      · simp [jumpsFrom, filter_map, Function.comp_def]
  have h := key s.all.toList
  rw [Array.length_toList, Array.toArray_toList] at h
  exact h

lemma mem_jumpsFrom {k : Nat} (h : k ∈ jumpsFrom blocks l i) : k = i := by
  unfold jumpsFrom at h
  split at h
  · cases h
  · obtain ⟨-, -, rfl⟩ := mem_map.1 h
    rfl

def fallsInto (blocks : Array Block) (j : Nat) : Bool :=
  0 < j && (blocks[j - 1]?.map (·.term.fallsThrough)).getD false

def fallsFrom (blocks : Array Block) (j : Nat) : List Way :=
  if fallsInto blocks j then [.fall (j - 1)] else []

lemma waysFrom_eq (hd : Distinct blocks) (hj : blocks[j]? = some b)
    (hl : b.label ≠ 0) (i : Nat) : waysFrom blocks j i =
      (jumpsFrom blocks b.label i).map .jump ++ if i + 1 = j then fallsFrom blocks j else [] := by
  have htarget (l' : Nat) : blockOf? blocks l' = some j ↔ l' = b.label := by
    constructor
    · intro h
      obtain ⟨-, b', hb', hlab⟩ := blockOf?_eq_some h
      rw [hj] at hb'
      cases hb'
      exact hlab.symm
    · rintro rfl
      exact hd.blockOf?_eq hl hj rfl
  unfold waysFrom jumpsFrom fallsFrom fallsInto
  cases hi : blocks[i]? with
  | none =>
    by_cases hij : i + 1 = j
    · subst hij
      simp [hi]
    · simp [hij]
  | some b' =>
    simp only [htarget, map_map, Function.comp_def]
    congr 1
    by_cases hij : i + 1 = j
    · subst hij
      simp [hi]
    · simp [hij]

lemma range_eq_append {n : Nat} (hj : j ≤ n) :
    List.range n = List.range j ++ List.range' j (n - j) := by
  have h := range'_append_1 (s := 0) (m := j) (n := n - j)
  rw [Nat.zero_add, Nat.add_sub_cancel' hj] at h
  rw [range_eq_range', range_eq_range', h]

variable {s : LowerState}

lemma mem_sources : i ∈ s.sources l ↔ ∃ b, s.all[i]? = some b ∧ l ∈ b.term.targets := by
  rw [sources_eq, mem_flatMap]
  constructor
  · rintro ⟨k, -, hk⟩
    obtain rfl := mem_jumpsFrom hk
    unfold jumpsFrom at hk
    split at hk
    · cases hk
    case h_2 b hb =>
      obtain ⟨l', hl', -⟩ := mem_map.1 hk
      obtain ⟨hmem, heq⟩ := mem_filter.1 hl'
      exact ⟨b, hb, of_decide_eq_true heq ▸ hmem⟩
  · rintro ⟨b, hb, hmem⟩
    refine ⟨i, mem_range.2 (Array.getElem?_eq_some_iff.1 hb).1, ?_⟩
    simp only [jumpsFrom, hb]
    exact mem_map.2 ⟨l, mem_filter.2 ⟨hmem, decide_eq_true rfl⟩, rfl⟩

lemma lt_of_mem_sources (h : i ∈ s.sources l) : i < s.blocks.size + 1 := by
  obtain ⟨b, hb, -⟩ := mem_sources.1 h
  have hlt := (Array.getElem?_eq_some_iff.1 hb).1
  simpa [LowerState.all] using hlt

lemma arrivals_eq (hd : Distinct s.all) (hj : s.all[j]? = some b)
    (hl : b.label ≠ 0) : arrivals s.all j =
      ((s.sources b.label).filter (· < j)).map .jump ++ fallsFrom s.all j ++
        ((s.sources b.label).filter (j ≤ ·)).map .jump := by
  have hlt : j < s.all.size := (Array.getElem?_eq_some_iff.1 hj).1
  have hrange := range_eq_append (Nat.le_of_lt hlt)
  -- the jumps, before and behind
  have hbefore : ∀ k ∈ (List.range j).flatMap (jumpsFrom s.all b.label), k < j := by
    intro k hk
    obtain ⟨i, hi, hk⟩ := mem_flatMap.1 hk
    rw [mem_jumpsFrom hk]
    exact mem_range.1 hi
  have hbehind : ∀ k ∈ (List.range' j (s.all.size - j)).flatMap (jumpsFrom s.all b.label),
      j ≤ k := by
    intro k hk
    obtain ⟨i, hi, hk⟩ := mem_flatMap.1 hk
    rw [mem_jumpsFrom hk]
    exact (mem_range'_1.1 hi).1
  have hsources := sources_eq s b.label
  rw [hrange, flatMap_append] at hsources
  have hfirst : (s.sources b.label).filter (· < j) =
      (List.range j).flatMap (jumpsFrom s.all b.label) := by
    rw [hsources, filter_append, filter_eq_self.2 (by simpa using hbefore),
      filter_eq_nil_iff.2 (by simpa using hbehind), append_nil]
  have hlast : (s.sources b.label).filter (j ≤ ·) =
      (List.range' j (s.all.size - j)).flatMap (jumpsFrom s.all b.label) := by
    rw [hsources, filter_append, filter_eq_nil_iff.2 (by simpa using hbefore),
      filter_eq_self.2 (by simpa using hbehind), nil_append]
  rw [hfirst, hlast]
  -- the ways, with the one on from the block before
  have hways : ∀ is : List Nat, (∀ i ∈ is, i + 1 ≠ j) →
      is.flatMap (waysFrom s.all j) = (is.flatMap (jumpsFrom s.all b.label)).map .jump := by
    intro is his
    rw [map_flatMap]
    refine flatMap_congr fun i hi => ?_
    rw [waysFrom_eq hd hj hl, if_neg (his i hi), append_nil]
  unfold arrivals
  rw [hrange, flatMap_append, hways (List.range' j _) fun i hi => by
    have := (mem_range'_1.1 hi).1
    omega]
  congr 1
  cases j with
  | zero => rfl
  | succ k =>
    rw [range_succ, flatMap_append, flatMap_append, map_append, hways (List.range k) fun i hi => by
        have := mem_range.1 hi
        omega,
      append_assoc]
    congr 1
    rw [flatMap_singleton, flatMap_singleton, waysFrom_eq hd hj hl, if_pos rfl]

/-! ## Finished labels -/

variable {c : LowerContext} {s t u v : LowerState}

lemma Grows.all_of_opened (h : Grows (s.opened l) u) : u.all[s.blocks.size]? = some s.current := by
  have hlt : s.blocks.size < (s.blocks.push s.current).size := by simp
  rw [h.done _ (by simp [opened]), LowerState.all]
  simp only [opened]
  rw [Array.getElem?_push_lt hlt, Array.getElem_push_eq]

lemma Grows.label_of_opened (h : Grows (s.opened l) u) :
    ∃ b, u.all[s.blocks.size + 1]? = some b ∧ b.label = l := by
  obtain ⟨b, hb, hbegins⟩ := h.current
  refine ⟨b, ?_, hbegins.label.symm⟩
  simpa [opened] using hb

lemma fallsInto_of_opened (h : Grows (s.opened l) u)
    (hends : s.current.term.fallsThrough = true → s.Live) :
    fallsInto u.all (s.blocks.size + 1) = decide s.Live := by
  have hterm : s.current.term.fallsThrough = decide s.Live := by
    by_cases hlive : s.Live
    · rw [show s.current.term = .none from hlive]
      simp [hlive, Term.fallsThrough]
    · simpa [hlive] using fun hf => hlive (hends hf)
  simp [fallsInto, h.all_of_opened, hterm]

/-- In `u` the labels taken between `s` and `t` are as they were in `t`: no more jumps go there, and
no more phis are put there. -/
structure Complete (s t u : LowerState) : Prop where
  grows : Grows t u
  sources : ∀ l, s.labels.size < l → l ≤ t.labels.size → u.sources l = t.sources l
  phis : ∀ l, s.labels.size < l → l ≤ t.labels.size → u.phisAt l = t.phisAt l

lemma Complete.refl (s t : LowerState) : Complete s t t := ⟨.refl t, fun _ _ _ => rfl, fun _ _ _ => rfl⟩

lemma Complete.trans {s' t' : LowerState} (h : Complete s t u) (h' : Complete s' t' t)
    (hs : s.labels.size ≤ s'.labels.size) : Complete s' t' u where
  grows := h'.grows.trans h.grows
  sources l hlo hhi :=
    (h.sources l (Nat.lt_of_le_of_lt hs hlo) (Nat.le_trans hhi h'.grows.labels)).trans
      (h'.sources l hlo hhi)
  phis l hlo hhi := (h.phis l (Nat.lt_of_le_of_lt hs hlo) (Nat.le_trans hhi h'.grows.labels)).trans
      (h'.phis l hlo hhi)

lemma Adds.complete {out pre vals : List Nat} (h : Adds out pre vals t u)
    (hout : ∀ l ∈ out, l ≤ s.labels.size) (hpre : ∀ l ∈ pre, l ≤ s.labels.size) :
    Complete s t u where
  grows := h.grows
  sources l hlo hhi := h.sources hhi fun hm => Nat.not_le.2 hlo (hout l hm)
  phis l hlo hhi := h.phisAt hhi fun hm => Nat.not_le.2 hlo (hpre l hm)

lemma Complete.first (h : Complete s u v) (hst : Region s t) (htu : Region t u) (hs : Framed s) :
    Complete s t v := by
  refine h.trans (htu.adds.complete (fun l hl => ?_) nofun) (Nat.le_refl _)
  rw [hst.loops.exits] at hl
  exact hs.exit_le hl

lemma Complete.rest (h : Complete s u v) (hst : Region s t) : Complete t u v :=
  h.trans (.refl t u) hst.adds.grows.labels

lemma phisAt_eq_of_phis (h : t.phis = s.phis) (l : Nat) : t.phisAt l = s.phisAt l := by
  unfold LowerState.phisAt
  rw [h]

lemma sources_eq_of_jumps (h : t.jumps = s.jumps) (l : Nat) : t.sources l = s.sources l := by
  unfold LowerState.sources
  rw [h]

lemma phisAt_append {ps : List Phi} (h : t.phis.toList = s.phis.toList ++ ps) (l : Nat) :
    t.phisAt l = s.phisAt l ++ ps.filter fun p => p.label = l := by
  unfold LowerState.phisAt
  rw [h, filter_append]

lemma filter_joinPhis (label : LabelId) (n : Nat) (ms : List (VarId × Meet)) (l : Nat) :
    (joinPhis label n ms).filter (fun p => p.label = l) =
      if label = l then joinPhis label n ms else [] := by
  split
  case isTrue h => exact filter_eq_self.2 fun p hp => decide_eq_true ((label_joinPhis hp).trans h)
  case isFalse h =>
    refine filter_eq_nil_iff.2 fun p hp => ?_
    rw [decide_eq_true_eq, label_joinPhis hp]
    exact h

lemma phis_meetAll (label : LabelId) (ms : List (VarId × Meet)) (s : LowerState) :
    (s.meetAll c label ms).phis.toList = s.phis.toList ++ joinPhis label s.types.size ms := by
  rw [meetAll_eq]
  simp [LowerState.inScope, LowerState.addPhis, addValues]

variable {l : Nat}

namespace ChoiceRun

variable {cond : Typed.Expr} {thenArm elseArm : Lower Unit}
  {r : ChoiceRun c cond thenArm elseArm s}

section

variable (hr : r.Layout t)
include hr

lemma labels_le : s.labels.size + 3 ≤ r.afterCond.labels.size :=
  size_choiceLabels s ▸ hr.cond.adds.grows.labels

lemma labels_then : r.afterCond.labels.size ≤ r.afterThen.labels.size :=
  hr.thenRegion.adds.grows.labels

lemma labels_else : r.afterThen.labels.size ≤ r.elseStart.labels.size := hr.jump.grows.labels

lemma exits_then : exits r.afterThen.loops = exits s.loops := by
  rw [hr.thenRegion.loops.exits, hr.thenLoops]

lemma exits_else : exits r.elseStart.loops = exits s.loops := by
  rw [hr.elseLoops, exits_then hr]

lemma rest_then :
    Adds ((s.labels.size + 3) :: exits s.loops) [s.labels.size + 2, s.labels.size + 3] []
      r.afterThen t := by
  have helse := exits_else hr ▸ hr.elseRegion.adds
  have hopen : Adds ((s.labels.size + 3) :: exits s.loops) [s.labels.size + 2] [] r.afterThen
      r.elseStart := ((hr.jump.mono (by simp)).trans (.opened _ _)).inScope _
  exact (hopen.trans (helse.mono (subset_cons_self _ _))).trans
    (hr.join.mono (nil_subset _))

lemma rest_cond : Adds ((s.labels.size + 3) :: exits s.loops)
      [s.labels.size + 1, s.labels.size + 2, s.labels.size + 3] [] r.afterCond t := by
  have hthen := congrArg exits hr.thenLoops ▸ hr.thenRegion.adds
  have hopen : Adds ((s.labels.size + 3) :: exits s.loops) [s.labels.size + 1] [] r.afterCond
      r.thenStart := (Adds.opened _ _).inScope _
  exact (hopen.trans (hthen.mono (subset_cons_self _ _))).trans (rest_then hr)

lemma complete_cond (h : Framed s) : Complete (choiceLabels s) r.afterCond t := by
  refine (rest_cond hr).complete ?_ ?_
  · rw [size_choiceLabels]
    intro l hl
    rcases mem_cons.1 hl with rfl | hl
    · exact Nat.le_refl _
    · exact Nat.le_add_right_of_le (h.exit_le hl)
  · rw [size_choiceLabels]
    simp

lemma complete_then (h : Framed s) : Complete r.thenStart r.afterThen t := by
  have hle : s.labels.size + 3 ≤ r.thenStart.labels.size := labels_le hr
  refine (rest_then hr).complete ?_ ?_
  · intro l hl
    rcases mem_cons.1 hl with rfl | hl
    · exact hle
    · have := h.exit_le hl
      omega
  · simp only [mem_cons, not_mem_nil, or_false]
    omega

lemma complete_else : Complete r.elseStart r.afterElse t := by
  have h1 := labels_le hr
  have h2 := labels_then hr
  have h3 := labels_else hr
  refine hr.join.complete nofun ?_
  simp only [mem_cons, not_mem_nil, or_false]
  omega

lemma phisAt_afterElse (h : Framed s) (hlo : s.labels.size < l)
    (hhi : l ≤ s.labels.size + 3) : r.afterElse.phisAt l = [] := by
  have h1 := labels_le hr
  have h2 := labels_then hr
  have h3 := labels_else hr
  have hthen : r.thenStart.phisAt l = [] := by
    rw [← h.phisAt_eq_nil hlo]
    exact phisAt_eq_of_phis hr.cond.phis l
  have helse : r.elseStart.phisAt l = r.afterThen.phisAt l := by
    have heq : r.elseStart.phisAt l = r.thenEnd.phisAt l := rfl
    rw [heq]
    exact hr.jump.phisAt (by omega) nofun
  rw [hr.elseRegion.adds.phisAt (by omega) nofun, helse,
    hr.thenRegion.adds.phisAt (show l ≤ r.afterCond.labels.size by omega) nofun, hthen]

lemma phisAt_join (h : Framed s) :
    t.phisAt (s.labels.size + 3) = joinPhis (s.labels.size + 3) r.joinStart.types.size r.meets := by
  have hphis := phis_meetAll (c := c) (s.labels.size + 3) r.meets r.joinStart
  rw [← hr.join_eq] at hphis
  have hnone : r.joinStart.phisAt (s.labels.size + 3) = [] :=
    phisAt_afterElse hr h (Nat.lt_add_of_pos_right (by decide)) (Nat.le_refl _)
  rw [phisAt_append hphis, hnone, filter_joinPhis, if_pos rfl, nil_append]

lemma phisAt_arm (h : Framed s) (hlo : s.labels.size < l)
    (hhi : l < s.labels.size + 3) : t.phisAt l = [] := by
  have hphis := phis_meetAll (c := c) (s.labels.size + 3) r.meets r.joinStart
  rw [← hr.join_eq] at hphis
  have hnone : r.joinStart.phisAt l = [] := phisAt_afterElse hr h hlo (Nat.le_of_lt hhi)
  rw [phisAt_append hphis, hnone, filter_joinPhis, if_neg (Nat.ne_of_gt hhi), nil_append]

lemma sources_join (h : Framed s) : t.sources (s.labels.size + 3) =
    if r.afterThen.Live then [r.afterThen.blocks.size] else [] := by
  have h1 := labels_le hr
  have h2 := labels_then hr
  have h3 := labels_else hr
  have hexit : s.labels.size + 3 ∉ exits s.loops := fun hmem => by
    have := h.exit_le hmem
    omega
  have hcond : r.thenStart.sources (s.labels.size + 3) = [] := by
    rw [← h.sources_eq_nil (Nat.lt_add_of_pos_right (by decide : 0 < 3))]
    have hopen : r.thenStart.sources (s.labels.size + 3) = r.afterCond.sources (s.labels.size + 3) :=
      sources_eq_of_jumps (jumps_opened _ _) _
    rw [hopen]
    exact hr.cond.adds.sources (Nat.le_of_eq (size_choiceLabels s).symm) (by simp)
  have hthen : r.afterThen.sources (s.labels.size + 3) = [] := by
    rw [hr.thenRegion.adds.sources h1 (hr.thenLoops ▸ hexit), hcond]
  have helse : t.sources (s.labels.size + 3) = r.thenEnd.sources (s.labels.size + 3) := by
    have hopen : r.elseStart.sources (s.labels.size + 3) = r.thenEnd.sources (s.labels.size + 3) :=
      sources_eq_of_jumps (jumps_opened _ _) _
    have hlabels := hr.elseRegion.adds.grows.labels
    rw [hr.join.sources (by omega) nofun,
      hr.elseRegion.adds.sources (by omega) (exits_else hr ▸ hexit), hopen]
  rw [helse]
  unfold ChoiceRun.thenEnd
  split
  case isTrue hlive => rw [sources_goto hlive, hthen, if_pos rfl, nil_append]
  case isFalse => exact hthen

lemma grows_joinStart : Grows (r.afterElse.opened (s.labels.size + 3)) t := by
  rw [hr.join_eq]
  exact (grows_inScope _ _).trans (grows_meetAll _ _)

lemma blocks_eq : t.blocks.size = r.afterElse.blocks.size + 1 := by
  rw [hr.join_eq, meetAll_eq]
  simp [joinStart, LowerState.inScope, LowerState.addPhis, addValues, opened]

lemma arrivals_join (h : Framed s) (hu : Complete s t u)
    (hd : Distinct u.all) : arrivals u.all t.blocks.size =
      (if r.afterThen.Live then [.jump r.afterThen.blocks.size] else []) ++
        if r.afterElse.Live then [.fall r.afterElse.blocks.size] else [] := by
  have hgrows := (grows_joinStart hr).trans hu.grows
  obtain ⟨b, hb, hlab⟩ := hgrows.label_of_opened
  have hlabels := hr.region.adds.grows.labels
  have hle := labels_le hr
  have hle' := (rest_cond hr).grows.labels
  have hsrc : u.sources (s.labels.size + 3) =
      if r.afterThen.Live then [r.afterThen.blocks.size] else [] := by
    rw [hu.sources _ (Nat.lt_add_of_pos_right (by decide)) (Nat.le_trans hle hle'),
      sources_join hr h]
  have hbefore : r.afterThen.blocks.size ≤ r.afterElse.blocks.size := by
    have h1 := hr.jump.grows.size
    have h2 := hr.elseRegion.adds.grows.size
    have h3 : r.elseStart.blocks.size = r.thenEnd.blocks.size + 1 := by
      simp [elseStart, LowerState.inScope, opened]
    omega
  rw [blocks_eq hr, arrivals_eq hd hb (by rw [hlab]; exact Nat.succ_ne_zero _), hlab, hsrc,
    fallsFrom, fallsInto_of_opened hgrows hr.elseRegion.framed.ends]
  by_cases hthen : r.afterThen.Live
  · by_cases helse : r.afterElse.Live <;> simp [hthen, helse, Nat.lt_succ_iff, hbefore]
  · by_cases helse : r.afterElse.Live <;> simp [hthen, helse]

end

end ChoiceRun

namespace LoopRun

variable {cond : Typed.Expr} {body : List Typed.Stmt} {run : Lower Unit}
  {r : LoopRun c cond body run s}

lemma afterBack_eq (r : LoopRun c cond body run s) : r.afterBack =
    if r.afterBody.Live then r.afterBody.close (.goto (s.labels.size + 1)) else r.afterBody := by
  rcases lowerBack_eq_ok.1 r.back_eq with ⟨hlive, -, heq⟩ | ⟨hlive, vals, -, -, heq⟩
  · rw [heq, if_neg hlive]
  · rw [heq, if_pos hlive]

lemma phis_afterBack (r : LoopRun c cond body run s) : r.afterBack.phis = r.afterBody.phis := by
  rw [r.afterBack_eq]
  split <;> rfl

lemma jumps_result (r : LoopRun c cond body run s) : r.result.jumps = r.afterBack.jumps := by
  unfold result
  rw [meetAll_eq]
  change r.closed.jumps = _
  unfold closed
  rw [jumps_opened, jumps_opened]
  rfl

lemma phis_result (r : LoopRun c cond body run s) : r.result.phis.toList =
    r.afterBody.phis.toList ++
      (r.phis ++ joinPhis (s.labels.size + 4) r.closed.types.size r.meets) := by
  unfold result
  rw [phis_meetAll, ← append_assoc, ← r.phis_afterBack]
  simp [closed, LowerState.addPhis, opened, LowerState.inScope, LowerState.inLoops]

lemma labels_le (hr : r.Layout) : s.labels.size + 4 ≤ r.afterCond.labels.size := by
  have hsize : (loopLabels c s body).labels.size = s.labels.size + 4 := size_labels_loopLabels
  exact hsize ▸ hr.cond.adds.grows.labels

lemma filter_phis (r : LoopRun c cond body run s) (l : Nat) :
    r.phis.filter (fun p => p.label = l) = if s.labels.size + 1 = l then r.phis else [] := by
  split
  case isTrue h =>
    exact filter_eq_self.2 fun p hp => decide_eq_true ((headPhis_label hp).trans h)
  case isFalse h =>
    refine filter_eq_nil_iff.2 fun p hp => ?_
    rw [decide_eq_true_eq, headPhis_label hp]
    exact h

lemma phisAt_result (hr : r.Layout) (h : Framed s) (hlo : s.labels.size < l)
    (hhi : l ≤ s.labels.size + 4) : r.result.phisAt l =
      (if s.labels.size + 1 = l then r.phis else []) ++ if s.labels.size + 4 = l then
          joinPhis (s.labels.size + 4) r.closed.types.size r.meets else [] := by
  have hle := labels_le hr
  have hcond : r.bodyStart.phisAt l = s.phisAt l := phisAt_eq_of_phis hr.cond.phis l
  have hbody : r.afterBody.phisAt l = [] := by
    rw [hr.body.adds.phisAt (show l ≤ r.afterCond.labels.size by omega) nofun, hcond,
      h.phisAt_eq_nil hlo]
  rw [phisAt_append r.phis_result, hbody, filter_append, filter_phis, filter_joinPhis, nil_append]

lemma sources_result (r : LoopRun c cond body run s) (l : Nat) : r.result.sources l =
    r.afterBody.sources l ++
      if r.afterBody.Live ∧ s.labels.size + 1 = l then [r.afterBody.blocks.size] else [] := by
  rw [sources_eq_of_jumps r.jumps_result, r.afterBack_eq]
  split
  case isTrue hlive => simp [sources_goto hlive, hlive]
  case isFalse hlive => simp [hlive]

lemma grows_closed (hr : r.Layout) : Grows r.afterBody r.closed :=
  hr.back.grows.trans (((((grows_inLoops _ _).trans (grows_inScope _ _)).trans
    (grows_addPhis _ _)).trans (grows_opened _ _)).trans (grows_opened _ _))

lemma labels_loopHead : (loopHead c s body).labels.size = s.labels.size + 4 := by
  change (loopLabels c s body).labels.size = _
  exact size_labels_loopLabels

lemma complete_head (hr : r.Layout) : Complete (loopHead c s body) r.afterBody r.result where
  grows := (grows_closed hr).trans (grows_meetAll _ _)
  sources l hlo hhi := by
    rw [labels_loopHead] at hlo
    rw [sources_result, if_neg (by omega), append_nil]
  phis l hlo hhi := by
    rw [labels_loopHead] at hlo
    rw [phisAt_append r.phis_result, filter_append, filter_phis, filter_joinPhis,
      if_neg (by omega), if_neg (Nat.ne_of_lt hlo), append_nil, append_nil]

lemma complete_body (hr : r.Layout) : Complete r.bodyStart r.afterBody r.result :=
  (complete_head hr).trans (.refl _ _) hr.cond.adds.grows.labels

lemma complete_cond (hr : r.Layout) : Complete (loopHead c s body) r.afterCond r.result := by
  have hrest : Adds [s.labels.size + 1, s.labels.size + 4] [s.labels.size + 2] [] r.afterCond
      r.afterBody :=
    ((Adds.opened r.afterCond (s.labels.size + 2)).inLoops _).trans hr.body.adds
  refine (complete_head hr).trans (hrest.complete ?_ ?_) (Nat.le_refl _)
  · rw [labels_loopHead]
    simp
  · rw [labels_loopHead]
    simp

lemma grows_head (hr : r.Layout) (hu : Grows r.result u) :
    Grows ((loopLabels c s body).opened (s.labels.size + 1)) u :=
  (grows_inScope _ _).trans (hr.cond.adds.grows.trans ((complete_cond hr).grows.trans hu))

lemma arrivals_start (hr : r.Layout) (hlive : s.Live) (h : Framed s)
    (hu : Complete s r.result u) (hd : Distinct u.all) :
    arrivals u.all (s.blocks.size + 1) =
      .fall s.blocks.size :: (u.sources (s.labels.size + 1)).map .jump := by
  have hgrows := grows_head hr hu.grows
  have hlive' : (loopLabels c s body).Live := hlive
  obtain ⟨b, hb, hlab⟩ : ∃ b, u.all[s.blocks.size + 1]? = some b ∧ b.label = s.labels.size + 1 :=
    hgrows.label_of_opened
  have hcurrent : u.all[s.blocks.size]? = some s.current := hgrows.all_of_opened
  -- the blocks so far do not know the label
  have hbehind : ∀ i ∈ u.sources (s.labels.size + 1), s.blocks.size + 1 ≤ i := by
    intro i hi
    by_contra hlt
    obtain ⟨b', hb', hmem⟩ := mem_sources.1 hi
    rcases Nat.lt_or_eq_of_le (Nat.le_of_lt_succ (Nat.not_le.1 hlt)) with hlt | rfl
    · have hold : u.all[i]? = s.all[i]? := (hr.region.adds.grows.trans hu.grows).done i hlt
      have hmem' : i ∈ s.sources (s.labels.size + 1) := mem_sources.2 ⟨b', hold ▸ hb', hmem⟩
      rw [h.sources_eq_nil (Nat.lt_succ_self _)] at hmem'
      cases hmem'
    · rw [hcurrent] at hb'
      cases hb'
      rw [show s.current.term = .none from hlive] at hmem
      cases hmem
  have hfalls : fallsInto u.all (s.blocks.size + 1) = true :=
    (fallsInto_of_opened hgrows fun _ => hlive').trans (decide_eq_true hlive')
  rw [arrivals_eq hd hb (by rw [hlab]; exact Nat.succ_ne_zero _), hlab, fallsFrom, hfalls,
    if_pos rfl, filter_eq_nil_iff.2 (by simpa using hbehind),
    filter_eq_self.2 (by simpa using hbehind)]
  rfl

lemma blocks_result (r : LoopRun c cond body run s) :
    r.result.blocks.size = r.afterBack.blocks.size + 2 := by
  unfold result
  rw [meetAll_eq]
  simp [closed, LowerState.inScope, LowerState.inLoops, LowerState.addPhis, addValues, opened]

lemma arrivals_stop (hr : r.Layout) (hu : Complete s r.result u) (hd : Distinct u.all) :
    arrivals u.all r.result.blocks.size =
      (u.sources (s.labels.size + 4)).map .jump ++ [.fall (r.afterBack.blocks.size + 1)] := by
  let exit := (((r.afterBack.inLoops r.afterBack.loops.tail).inScope s.scope).addPhis r.phis).opened
    (s.labels.size + 3)
  have hgrows : Grows (exit.opened (s.labels.size + 4)) u := (grows_meetAll _ _).trans hu.grows
  have hsize : exit.blocks.size = r.afterBack.blocks.size + 1 := by
    simp [exit, opened, LowerState.addPhis, LowerState.inScope, LowerState.inLoops]
  have hlive : exit.Live := rfl
  obtain ⟨b, hb, hlab⟩ := hgrows.label_of_opened
  have hlabels : s.labels.size + 4 ≤ r.result.labels.size :=
    Nat.le_trans (labels_le hr) (complete_cond hr).grows.labels
  have hbefore : ∀ i ∈ u.sources (s.labels.size + 4), i < exit.blocks.size + 1 := by
    intro i hi
    rw [hu.sources _ (Nat.lt_add_of_pos_right (by decide)) hlabels, sources_result,
      if_neg (by omega), append_nil] at hi
    have hlt := lt_of_mem_sources hi
    have hle := hr.back.grows.size
    omega
  have hfalls : fallsInto u.all (exit.blocks.size + 1) = true :=
    (fallsInto_of_opened hgrows fun _ => hlive).trans (decide_eq_true hlive)
  rw [show r.result.blocks.size = exit.blocks.size + 1 by rw [blocks_result, hsize],
    arrivals_eq hd hb (by rw [hlab]; exact Nat.succ_ne_zero _), hlab, fallsFrom, hfalls,
    if_pos rfl, filter_eq_self.2 (by simpa using hbefore),
    filter_eq_nil_iff.2 (by simpa using hbefore), hsize]
  simp

end LoopRun

end VecLang.Ssa
