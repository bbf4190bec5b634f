import VecLang.Proofs.Ssa.Flows

/-!
# The code of loops follows the plan

At the start of a loop the way from before and all ways back to it meet, and behind the loop all
ways out of it (`LoopRun.meeting_start`, `LoopRun.meeting_stop`). The order of the ways is that of
the jumps in the code, which is the order in which their values were written down, so a loop can be
certified when its body can (`stmtPlanned_loop`).
-/

namespace VecLang.Ssa

open Stateful LowerState List Option LoopRun Nat

variable {c : LowerContext} {S : Setting} {F s t u : LowerState} {σ : Point} {K V W : List VarId}

lemma nodup_sources (s : LowerState) (l : Nat) : (s.sources l).Nodup := by
  rw [sources_eq, nodup_flatMap]
  constructor
  · intro i _
    unfold jumpsFrom
    split
    · exact nodup_nil
    · rename_i b _
      cases b.term with
      | branch _ _ _ _ target | goto target =>
        by_cases h : target = l <;> simp [Term.targets, h]
      | none | ret _ | halt | unknown _ => simp [Term.targets]
  · refine nodup_range.imp fun {i j} hne k hi hj => hne ?_
    rw [← mem_jumpsFrom hi, ← mem_jumpsFrom hj]

variable {lo hi : Nat}

namespace LoopRun

variable {cond : Typed.Expr} {body : List Typed.Stmt} {run : Lower Unit}
  {r : LoopRun c cond body run s} {v : VarId} {row : List ValueId}

/-! ## The variables of a loop -/

/-- The value of a variable at a way back or out, given those of the variables that change. -/
def valueAt (_ : LoopRun c cond body run s) (row : List ValueId) (v : VarId) : Option ValueId :=
  if v ∈ carriedBy s body then row[(carriedBy s body).idxOf v]? else s.lookup v

variable {i : Nat}

lemma valueAt_of_carried (hi : (carriedBy s body)[i]? = some v) : r.valueAt row v = row[i]? := by
  obtain ⟨hlt, rfl⟩ := List.getElem?_eq_some_iff.1 hi
  rw [valueAt, if_pos (getElem_mem hlt), (nodup_carriedBy s body).idxOf_getElem]

lemma map_valueAt (hi : (carriedBy s body)[i]? = some v) (rows : List (List ValueId)) :
    rows.map (r.valueAt · v) = rows.map (·[i]?) :=
  map_congr_left fun _ _ => valueAt_of_carried hi

lemma valueAt_of_notMem (hv : v ∉ carriedBy s body) : r.valueAt row v = s.lookup v := if_neg hv

/-- The values of the changing variables at the ways back to the start. -/
def backs (r : LoopRun c cond body run s) : List (List ValueId) :=
  r.loop.continues.reverse ++ r.back.toList

def startWays (r : LoopRun c cond body run s) (v : VarId) : List (Option ValueId) :=
  s.lookup v :: r.backs.map (r.valueAt · v)

def stopWays (r : LoopRun c cond body run s) (v : VarId) : List (Option ValueId) :=
  r.loop.breaks.reverse.map (r.valueAt · v) ++ [(loopHead c s body).lookup v]

lemma carried_eq (hr : r.Layout) : r.loop.carried = carriedBy s body := hr.becomes.carried

lemma labels_le_result (hr : r.Layout) : s.labels.size + 4 ≤ r.result.labels.size :=
  Nat.le_trans (labels_le hr) (complete_cond hr).grows.labels

lemma ways_afterBody (hr : r.Layout) : Ways r.afterBody r.loop :=
  hr.body.framed.ways r.loop (by rw [hr.loops]; rfl)

lemma lt_length_of_mem_breaks (hr : r.Layout) (hi : (carriedBy s body)[i]? = some v)
    (h : row ∈ r.loop.breaks.reverse) : i < row.length := by
  rw [(ways_afterBody hr).vals row (mem_append_right _ (mem_reverse.1 h)), carried_eq hr]
  exact (List.getElem?_eq_some_iff.1 hi).1

lemma back_eq_some (hback : r.back = some row) : r.afterBody.Live ∧
    (carriedBy s body).map (fun v => (r.afterBody.lookup v).or (c.consts.get? v)) =
      row.map some := by
  rcases lowerBack_eq_ok.1 r.back_eq with ⟨-, hnone, -⟩ | ⟨hlive, vals, hvals, hsome, -⟩
  · rw [hback] at hnone
    cases hnone
  · cases hback.symm.trans hsome
    obtain ⟨ids, hids, heq⟩ := mapM_varValue_eq_ok.1 hvals
    cases heq
    exact ⟨hlive, hids⟩

lemma back_eq_none_iff : r.back = none ↔ ¬ r.afterBody.Live := by
  rcases lowerBack_eq_ok.1 r.back_eq with ⟨hlive, hnone, -⟩ | ⟨hlive, vals, -, hsome, -⟩
  · simp [hnone, hlive]
  · simp [hsome, hlive]

lemma lt_length_of_mem_backs (hr : r.Layout) (hi : (carriedBy s body)[i]? = some v)
    (h : row ∈ r.backs) : i < row.length := by
  have hlt := (List.getElem?_eq_some_iff.1 hi).1
  rcases mem_append.1 h with h | h
  · rwa [(ways_afterBody hr).vals row (mem_append_left _ (mem_reverse.1 h)), carried_eq hr]
  · have hlen := congrArg List.length (back_eq_some (mem_toList.1 h)).2
    rw [length_map, length_map] at hlen
    rwa [← hlen]

structure LoopPlan (r : LoopRun c cond body run s) (S : Setting) (V : List VarId) : Prop where
  startEntry : S.plan.entries[s.labels.size + 1]? = some ((loopHead c s body).env V)
  bodyEntry : S.plan.entries[s.labels.size + 2]? = some ((loopHead c s body).env V)
  exitEntry : S.plan.entries[s.labels.size + 3]? = some ((loopHead c s body).env V)
  stopEntry : S.plan.entries[s.labels.size + 4]? = some (r.result.env V)
  heads : ∀ (i : Nat) (v : VarId), (carriedBy s body)[i]? = some v →
    S.plan.owner (s.types.size + i) = some v
  owners : ∀ (k : Nat) (v : VarId), (joinVars r.meets)[k]? = some v →
    S.plan.owner (r.closed.types.size + k) = some v

/-! ## The start of a loop -/

lemma owned_head (hplan : r.LoopPlan S V) (hs : S.plan.Owned (s.env V)) :
    S.plan.Owned ((loopHead c s body).env V) := by
  intro v id hid
  obtain ⟨hV, hid⟩ := env_eq_some.1 hid
  by_cases hv : v ∈ carriedBy s body
  · obtain ⟨i, hi⟩ := mem_iff_getElem?.1 hv
    rw [lookup_loopHead hi] at hid
    cases hid
    exact hplan.heads i v hi
  · rw [lookup_loopHead_of_notMem hv] at hid
    exact hs v id ((if_pos hV).trans hid)

lemma exists_entry (hi : (carriedBy s body)[i]? = some v) : ∃ entry, s.lookup v = some entry ∧
      ((headsOf s body).zip ((carriedVars s.scope body).map (·.2)))[i]? =
        some (s.types.size + i, entry) := by
  have hentries := congrArg (·[i]?) (entries_eq s body)
  simp only [getElem?_map, hi, map_some] at hentries
  have hlt : i < (carriedBy s body).length := (List.getElem?_eq_some_iff.1 hi).1
  have hhead : (headsOf s body)[i]? = some (s.types.size + i) := by simp [headsOf, hlt]
  obtain ⟨entry, hentry, hlook⟩ := map_eq_some_iff.1 hentries
  refine ⟨entry, hlook.symm, ?_⟩
  rw [getElem?_zip_eq_some]
  exact ⟨hhead, by rw [getElem?_map]; exact hentry⟩

variable {p : Phi}

section Start

variable (hS : Finishes c S F) (h : Framed s) (hr : r.Layout) (hu : Complete s r.result F)

include hS h hr hu

lemma phis_start : S.func.phis.filter (fun p => p.label = s.labels.size + 1) = r.phis := by
  have hle := labels_le_result hr
  rw [hS.phisAt_eq, hu.phis _ (by omega) (by omega), phisAt_result hr h (by omega) (by omega),
    if_pos rfl, if_neg (by omega), append_nil]

lemma exists_of_mem_start (hp : p ∈ S.func.phis) (hl : p.label = s.labels.size + 1) :
    ∃ i v, (carriedBy s body)[i]? = some v ∧ p.dst = s.types.size + i ∧
      r.startWays v = p.branches.map some := by
  have hmem : p ∈ r.phis := by
    rw [← phis_start hS h hr hu]
    exact mem_filter.2 ⟨hp, decide_eq_true hl⟩
  obtain ⟨i, hi⟩ := mem_iff_getElem?.1 hmem
  rw [phis, getElem?_headPhis] at hi
  obtain ⟨x, hx, rfl⟩ := map_eq_some_iff.1 hi
  obtain ⟨hhead, -⟩ := getElem?_zip_eq_some.1 hx
  have hlt : i < (carriedBy s body).length := by
    rw [← length_headsOf]
    exact (List.getElem?_eq_some_iff.1 hhead).1
  have hv := getElem?_eq_getElem hlt
  obtain ⟨entry, hlook, hzip⟩ := exists_entry hv
  cases hx.symm.trans hzip
  refine ⟨i, _, hv, rfl, ?_⟩
  rw [startWays, hlook, map_cons, Nat.zero_add]
  change some entry :: _ = some entry :: (r.backs.map fun vals => vals.getD i 0).map some
  rw [map_getD_eq fun _ => lt_length_of_mem_backs hr hv, map_valueAt hv]

lemma meeting_start (hplan : r.LoopPlan S V) (hs : S.plan.Owned (s.env V))
    (hcarried : ∀ v ∈ carriedBy s body, v ∈ V) :
    Meeting S (s.labels.size + 1) V r.startWays ((loopHead c s body).env V) where
  scope v id hid := (env_eq_some.1 hid).1
  owned := owned_head hplan hs
  joins v hV := by
    rw [phis_start hS h hr hu, env, if_pos hV]
    by_cases hv : v ∈ carriedBy s body
    · obtain ⟨i, hi⟩ := mem_iff_getElem?.1 hv
      obtain ⟨entry, hlook, hzip⟩ := exists_entry hi
      have hjoins := joins_headPhis (s.labels.size + 1) hzip fun _ => lt_length_of_mem_backs hr hi
      rw [lookup_loopHead hi, startWays, hlook, map_valueAt hi]
      exact hjoins
    · -- all ways arrive with the value from before
      refine .inr fun w hw => ?_
      rw [lookup_loopHead_of_notMem hv]
      rcases mem_cons.1 hw with rfl | hw
      · rfl
      · obtain ⟨row, -, rfl⟩ := List.mem_map.1 hw
        exact valueAt_of_notMem hv
  phis p hp hl := by
    obtain ⟨i, v, hi, hdst, hways⟩ := exists_of_mem_start hS h hr hu hp hl
    exact ⟨v, hcarried v (mem_of_getElem? hi), hdst ▸ hplan.heads i v hi, hways⟩

end Start

/-! ## Behind a loop -/

lemma lookup_closed (r : LoopRun c cond body run s) (v : VarId) : r.closed.lookup v = s.lookup v :=
  rfl

lemma vars_zip_heads : ((carriedBy s body).zip (headsOf s body)).map (·.1) = carriedBy s body :=
  map_fst_zip (Nat.le_of_eq length_headsOf.symm)

lemma nodup_vars_zip_heads : (((carriedBy s body).zip (headsOf s body)).map (·.1)).Nodup := by
  rw [vars_zip_heads]
  exact nodup_carriedBy s body

lemma keys_meets (r : LoopRun c cond body run s) : (r.meets.map (·.1)).Nodup := by
  rw [meets, keys_exitMeets]
  exact nodup_vars_zip_heads

lemma getElem?_zip_heads (hi : (carriedBy s body)[i]? = some v) :
    ((carriedBy s body).zip (headsOf s body))[i]? = some (v, s.types.size + i) := by
  have hlt : i < (carriedBy s body).length := (List.getElem?_eq_some_iff.1 hi).1
  rw [getElem?_zip_eq_some]
  exact ⟨hi, by simp [headsOf, hlt]⟩

lemma lookup_result_of_notMem (hv : v ∉ carriedBy s body) : r.result.lookup v = s.lookup v := by
  have hnone : (settled r.closed.types.size r.meets).get? v = none := by
    refine Assoc.get?_eq_none_iff.2 fun hmem => hv ?_
    have hkey := keys_settled_subset _ _ hmem
    rwa [meets, keys_exitMeets, vars_zip_heads] at hkey
  rw [result, lookup_meetAll _ r.keys_meets, hnone, none_or, lookup_closed]

lemma owned_result (hplan : r.LoopPlan S V) (hs : S.plan.Owned (s.env V)) :
    S.plan.Owned (r.result.env V) := by
  intro v id hid
  obtain ⟨hV, hid⟩ := env_eq_some.1 hid
  rw [result, lookup_meetAll _ r.keys_meets, lookup_closed, or_eq_some_iff] at hid
  rcases hid with hid | ⟨-, hid⟩
  · rcases settled_cases hid with ⟨k, rfl, hk⟩ | hmem
    · exact hplan.owners k v hk
    · -- without a way out of the body the value of the head is taken over
      obtain ⟨i, hi⟩ := mem_iff_getElem?.1 hmem
      rw [meets, getElem?_exitMeets] at hi
      obtain ⟨⟨w, head⟩, hw, heq⟩ := map_eq_some_iff.1 hi
      have hcar := (getElem?_zip_eq_some.1 hw).1
      cases hw.symm.trans (getElem?_zip_heads hcar)
      split_ifs at heq
      · cases heq
        exact hplan.heads i w hcar
      · cases heq
  · exact hs v id ((if_pos hV).trans hid)

section Stop

variable (hS : Finishes c S F) (h : Framed s) (hr : r.Layout) (hu : Complete s r.result F)

include hS h hr hu

lemma phis_stop : S.func.phis.filter (fun p => p.label = s.labels.size + 4) =
    joinPhis (s.labels.size + 4) r.closed.types.size r.meets := by
  have hle := labels_le_result hr
  rw [hS.phisAt_eq, hu.phis _ (by omega) hle, phisAt_result hr h (by omega) (Nat.le_refl _),
    if_neg (by omega), if_pos rfl, nil_append]

lemma exists_of_mem_stop (hp : p ∈ S.func.phis) (hl : p.label = s.labels.size + 4) :
    ∃ v ∈ carriedBy s body, r.result.lookup v = some p.dst ∧
      r.stopWays v = p.branches.map some := by
  have hmem : p ∈ joinPhis (s.labels.size + 4) r.closed.types.size r.meets := by
    rw [← phis_stop hS h hr hu]
    exact mem_filter.2 ⟨hp, decide_eq_true hl⟩
  obtain ⟨i, v, head, hi, hget, hbranches⟩ := exists_of_mem_exitPhis nodup_vars_zip_heads hmem
  have hcar := (getElem?_zip_eq_some.1 hi).1
  cases hi.symm.trans (getElem?_zip_heads hcar)
  refine ⟨v, mem_of_getElem? hcar, ?_, ?_⟩
  · rw [result, lookup_meetAll _ r.keys_meets, meets, hget, some_or]
  · rw [stopWays, hbranches, map_append, lookup_loopHead hcar,
      map_getD_eq fun _ => lt_length_of_mem_breaks hr hcar, map_valueAt hcar]
    rfl

lemma meeting_stop (hplan : r.LoopPlan S V) (hs : S.plan.Owned (s.env V))
    (hcarried : ∀ v ∈ carriedBy s body, v ∈ V) :
    Meeting S (s.labels.size + 4) V r.stopWays (r.result.env V) where
  scope v id hid := (env_eq_some.1 hid).1
  owned := owned_result hplan hs
  joins v hV := by
    rw [phis_stop hS h hr hu, env, if_pos hV]
    by_cases hv : v ∈ carriedBy s body
    · obtain ⟨i, hi⟩ := mem_iff_getElem?.1 hv
      have hjoins := joins_exitMeets (c := c) (s := r.closed) (s.labels.size + 4)
        nodup_vars_zip_heads (getElem?_zip_heads hi) fun _ => lt_length_of_mem_breaks hr hi
      rw [stopWays, lookup_loopHead hi, map_valueAt hi]
      exact hjoins
    · -- all ways arrive with the value from before
      refine .inr fun w hw => ?_
      rw [lookup_result_of_notMem hv]
      rcases mem_append.1 hw with hw | hw
      · obtain ⟨row, -, rfl⟩ := List.mem_map.1 hw
        exact valueAt_of_notMem hv
      · rw [mem_singleton.1 hw, lookup_loopHead_of_notMem hv]
  phis p hp hl := by
    obtain ⟨v, hv, hlook, hways⟩ := exists_of_mem_stop hS h hr hu hp hl
    exact ⟨v, hcarried v hv, owned_result hplan hs v _ ((if_pos (hcarried v hv)).trans hlook), hways⟩

end Stop

/-! ## Ways back and out -/

variable {e : Env}

lemma valueAt_eq (hr : r.Layout)
    (h : r.loop.Leaves V ((loopHead c s body).env V) row e) (hV : v ∈ V) :
    r.valueAt row v = e v := by
  by_cases hv : v ∈ carriedBy s body
  · obtain ⟨i, hi⟩ := mem_iff_getElem?.1 hv
    rw [valueAt_of_carried hi, h.carried i v (by rw [carried_eq hr]; exact hi)]
  · rw [valueAt_of_notMem hv, h.others v hV (by rwa [carried_eq hr]), env, if_pos hV,
      lookup_loopHead_of_notMem hv]

variable {k j : Nat}

lemma eq_of_jump {l k' : Nat} (hk : (F.sources l)[k]? = some j)
    (hk' : ((F.sources l).map Way.jump)[k']? = some (.jump j)) : k' = k := by
  rw [getElem?_map] at hk'
  obtain ⟨j', hj', heq⟩ := map_eq_some_iff.1 hk'
  cases heq
  exact (getElem?_inj (List.getElem?_eq_some_iff.1 hj').1 (nodup_sources F l)).1
    (hj'.trans hk.symm)

def exitStart (r : LoopRun c cond body run s) : LowerState :=
  (((r.afterBack.inLoops r.afterBack.loops.tail).inScope s.scope).addPhis r.phis).opened
    (s.labels.size + 3)

lemma blocks_exitStart (r : LoopRun c cond body run s) :
    r.exitStart.blocks.size = r.afterBack.blocks.size + 1 := Array.size_push _

lemma grows_exitStart (hu : Complete s r.result F) :
    Grows (r.exitStart.opened (s.labels.size + 4)) F := (grows_meetAll _ _).trans hu.grows

lemma sources_start (hr : r.Layout) (hu : Complete s r.result F) :
    F.sources (s.labels.size + 1) = r.afterBody.sources (s.labels.size + 1) ++
      if r.afterBody.Live then [r.afterBody.blocks.size] else [] := by
  have hle := labels_le_result hr
  rw [hu.sources _ (by omega) (by omega), sources_result]
  simp

lemma length_continues (hr : r.Layout) :
    (r.afterBody.sources (s.labels.size + 1)).length = r.loop.continues.length := by
  rw [← (ways_afterBody hr).continues, hr.becomes.start]
  rfl

lemma length_backs (hr : r.Layout) (hu : Complete s r.result F) :
    (F.sources (s.labels.size + 1)).length = r.backs.length := by
  rw [sources_start hr hu, length_append, length_continues hr, backs, length_append, length_reverse]
  congr 1
  cases hback : r.back with
  | none => rw [if_neg (back_eq_none_iff.1 hback)]; rfl
  | some row => rw [if_pos (back_eq_some hback).1]; rfl

lemma sources_stop (hr : r.Layout) (hu : Complete s r.result F) :
    F.sources (s.labels.size + 4) = r.afterBody.sources (s.labels.size + 4) := by
  have hle := labels_le_result hr
  rw [hu.sources _ (by omega) hle, sources_result, if_neg (by omega), append_nil]

lemma length_breaks (hr : r.Layout) (hu : Complete s r.result F) :
    (F.sources (s.labels.size + 4)).length = r.loop.breaks.length := by
  rw [sources_stop hr hu, ← (ways_afterBody hr).breaks, hr.becomes.stop]
  rfl

section Arrives

variable (hS : Finishes c S F) (h : Framed s) (hr : r.Layout) (hu : Complete s r.result F)

include hS hr hu

lemma block_start : ∃ b, S.func.blocks[s.blocks.size + 1]? = some b ∧
    b.label = s.labels.size + 1 := by
  obtain ⟨b, hb, hl⟩ := (grows_head hr hu.grows).label_of_opened
  exact ⟨b, by rw [hS.blocks]; exact hb, hl⟩

omit hr in
lemma block_stop : ∃ b, S.func.blocks[r.result.blocks.size]? = some b ∧
    b.label = s.labels.size + 4 := by
  obtain ⟨b, hb, hl⟩ := (grows_exitStart hu).label_of_opened
  rw [blocks_exitStart] at hb
  exact ⟨b, by rw [hS.blocks, blocks_result]; exact hb, hl⟩

variable (hlive : s.Live) (hplan : r.LoopPlan S V) (hs : S.plan.Owned (s.env V))
  (hcarried : ∀ v ∈ carriedBy s body, v ∈ V)

include h hlive hplan hs hcarried

lemma arrives_start {w : Way} (hk : ∀ k : Nat, (Way.fall s.blocks.size ::
      (F.sources (s.labels.size + 1)).map Way.jump)[k]? = some w →
      ∀ v ∈ V, (r.startWays v)[k]? = some (e v)) : S.Arrives w (s.blocks.size + 1) e := by
  refine (meeting_start hS h hr hu hplan hs hcarried).arrives hplan.startEntry
    (block_start hS hr hu) fun k hway => hk k ?_
  rwa [hS.blocks, arrivals_start hr hlive h hu hS.distinct] at hway

lemma arrives_enter (hag : Agrees V e s) :
    S.Arrives (.fall s.blocks.size) (s.blocks.size + 1) e := by
  refine arrives_start hS h hr hu hlive hplan hs hcarried fun k hk v hV => ?_
  cases k with
  | zero => rw [hag v hV]; rfl
  | succ k =>
    rw [getElem?_cons_succ, getElem?_map] at hk
    obtain ⟨j, -, heq⟩ := map_eq_some_iff.1 hk
    cases heq

lemma arrives_again (hk : (F.sources (s.labels.size + 1))[k]? = some j)
    (hrow : r.backs[k]? = some row) (hleaves : r.loop.Leaves V ((loopHead c s body).env V) row e) :
    S.Arrives (.jump j) (s.blocks.size + 1) e := by
  refine arrives_start hS h hr hu hlive hplan hs hcarried fun k' hk' v hV => ?_
  cases k' with
  | zero => cases hk'
  | succ k' =>
    cases eq_of_jump hk hk'
    rw [startWays, getElem?_cons_succ, getElem?_map, hrow]
    exact congrArg some (valueAt_eq hr hleaves hV)

omit hlive in
lemma arrives_behind {w : Way} (hk : ∀ k : Nat, ((F.sources (s.labels.size + 4)).map Way.jump ++
      [.fall (r.afterBack.blocks.size + 1)])[k]? = some w →
      ∀ v ∈ V, (r.stopWays v)[k]? = some (e v)) : S.Arrives w r.result.blocks.size e := by
  refine (meeting_stop hS h hr hu hplan hs hcarried).arrives hplan.stopEntry (block_stop hS hu)
    fun k hway => hk k ?_
  rwa [hS.blocks, arrivals_stop hr hu hS.distinct] at hway

omit hlive in
lemma arrives_out (hk : (F.sources (s.labels.size + 4))[k]? = some j)
    (hrow : r.loop.breaks.reverse[k]? = some row)
    (hleaves : r.loop.Leaves V ((loopHead c s body).env V) row e) :
    S.Arrives (.jump j) r.result.blocks.size e := by
  refine arrives_behind hS h hr hu hplan hs hcarried fun k' hk' v hV => ?_
  by_cases hlt : k' < ((F.sources (s.labels.size + 4)).map Way.jump).length
  · rw [getElem?_append_left hlt] at hk'
    cases eq_of_jump hk hk'
    have hlt : k < (r.loop.breaks.reverse.map (r.valueAt · v)).length := by
      rw [length_map]
      exact (List.getElem?_eq_some_iff.1 hrow).1
    rw [stopWays, getElem?_append_left hlt, getElem?_map, hrow]
    exact congrArg some (valueAt_eq hr hleaves hV)
  · rw [getElem?_append_right (Nat.not_lt.1 hlt)] at hk'
    cases mem_singleton.1 (mem_of_getElem? hk')

omit hlive in
lemma arrives_exit (hag : Agrees V e (loopHead c s body)) :
    S.Arrives (.fall (r.afterBack.blocks.size + 1)) r.result.blocks.size e := by
  refine arrives_behind hS h hr hu hplan hs hcarried fun k hk v hV => ?_
  by_cases hlt : k < ((F.sources (s.labels.size + 4)).map Way.jump).length
  · rw [getElem?_append_left hlt, getElem?_map] at hk
    obtain ⟨j, -, heq⟩ := map_eq_some_iff.1 hk
    cases heq
  · rw [getElem?_append_right (Nat.not_lt.1 hlt)] at hk
    have hlen : ((F.sources (s.labels.size + 4)).map Way.jump).length =
        (r.loop.breaks.reverse.map (r.valueAt · v)).length := by
      simp [length_breaks hr hu]
    have hlast := (List.getElem?_eq_some_iff.1 hk).1
    rw [length_singleton, hlen] at hlast
    rw [stopWays, getElem?_append_right (by omega), lt_one_iff.1 hlast, hag v hV]
    rfl

lemma loopContext : LoopContext S F r.loop V ((loopHead c s body).env V) where
  carried v hv := hcarried v (by rwa [carried_eq hr] at hv)
  leaves again k row j j' e hrow hsrc hleaves hj' := by
    cases again with
    | true =>
      obtain ⟨b, hb, hl⟩ := block_start hS hr hu
      have hstart : r.loop.exit true = s.labels.size + 1 := hr.becomes.start
      rw [hstart] at hsrc hj'
      rw [hS.eq_of_label hb hl hj']
      refine arrives_again hS h hr hu hlive hplan hs hcarried hsrc ?_ hleaves
      exact (getElem?_append_left (List.getElem?_eq_some_iff.1 hrow).1).trans hrow
    | false =>
      obtain ⟨b, hb, hl⟩ := block_stop hS hu
      have hstop : r.loop.exit false = s.labels.size + 4 := hr.becomes.stop
      rw [hstop] at hsrc hj'
      rw [hS.eq_of_label hb hl hj']
      exact arrives_out hS h hr hu hplan hs hcarried hsrc hrow hleaves

end Arrives

/-! ## The code of a loop -/

section Body

variable {lo hi : Nat} (hr : r.Layout) (hn : Names K V lo s)
  (hk : Keeps (assignedAll body) lo hi r.bodyStart r.afterBody)

lemma lookup_bodyStart (hr : r.Layout) (v : VarId) :
    r.bodyStart.lookup v = (loopHead c s body).lookup v := congrArg (lookupIn · v) hr.cond.scope

include hr hn

lemma names_bodyStart : Names K V lo r.bodyStart := by
  refine Names.of_lookup ⟨fun v hV => ?_, fun v hv => ?_, fun v hK => ?_,
    hn.const_lt⟩ (lookup_bodyStart hr)
  · by_cases hv : v ∈ carriedBy s body
    · obtain ⟨i, hi⟩ := mem_iff_getElem?.1 hv
      rw [lookup_loopHead hi]
      rfl
    · rw [lookup_loopHead_of_notMem hv]
      exact hn.visible v hV
  · by_cases hmem : v ∈ carriedBy s body
    · exact hn.below v (mem_carriedBy.1 hmem).2
    · rw [lookup_loopHead_of_notMem hmem] at hv
      exact hn.below v hv
  · have hnone := hn.const v hK
    rw [lookup_loopHead_of_notMem fun hmem => ?_, hnone]
    have hsome := (mem_carriedBy.1 hmem).2
    rw [hnone] at hsome
    cases hsome

include hk

lemma lookup_afterBody (hV : v ∈ V) (hv : v ∉ carriedBy s body) :
    r.afterBody.lookup v = (loopHead c s body).lookup v := by
  rw [← lookup_bodyStart hr]
  refine hk.lookup hr.framed.scope hr.body.framed.scope hr.body.tail (fun hmem => hv ?_) ?_
  · exact mem_carriedBy.2 ⟨hmem, hn.visible v hV⟩
  · have := hn.lt hV
    omega

lemma leaves_back (hcarried : ∀ v ∈ carriedBy s body, v ∈ V) (hback : r.back = some row)
    (hag : Agrees V e r.afterBody) : r.loop.Leaves V ((loopHead c s body).env V) row e where
  carried i v hi := by
    rw [carried_eq hr] at hi
    have hV := hcarried v (mem_of_getElem? hi)
    obtain ⟨id, hid⟩ := isSome_iff_exists.1
      (hk.mono v ((names_bodyStart hr hn).visible v hV))
    have hrow := congrArg (·[i]?) (back_eq_some hback).2
    simp only [getElem?_map, hi, map_some, hid, some_or] at hrow
    obtain ⟨id', hid', heq⟩ := map_eq_some_iff.1 hrow.symm
    cases heq
    rw [hag v hV, hid, hid']
  others v hV hv := by
    rw [carried_eq hr] at hv
    rw [hag v hV, lookup_afterBody hr hn hk hV hv, env, if_pos hV]

end Body

lemma same_afterBack (r : LoopRun c cond body run s) :
    r.afterBack.types = r.afterBody.types ∧ r.afterBack.labels = r.afterBody.labels ∧
      r.afterBack.blocks = r.afterBody.blocks ∧ r.afterBack.loops = r.afterBody.loops := by
  rw [r.afterBack_eq]
  split
  · exact ⟨rfl, rfl, rfl, rfl⟩
  · exact ⟨rfl, rfl, rfl, rfl⟩

lemma planned (hr : r.Layout) {P1 P2 : Setting → LowerState → Prop}
    (hcond : Planned c (loopHead c s body) r.afterCond P1)
    (hbody : Planned c r.bodyStart r.afterBody P2) :
    Planned c s r.result fun S F => r.LoopPlan S V ∧ P1 S F ∧ P2 S F := by
  let head := (loopHead c s body).env V
  let labels := (((s.addLabel "while").addLabel "body").addLabel "exit").addLabel "endwhile"
  have hsize : (loopLabels c s body).labels.size = s.labels.size + 4 := size_labels_loopLabels
  have hlabels : Planned c s labels _ :=
    planned_labels [head, head, head, r.result.env V] rfl hsize rfl
  have hvars : Planned c labels (loopLabels c s body) _ :=
    planned_vars (carriedBy s body) rfl rfl rfl
  have hhead : Planned c (loopLabels c s body) (loopHead c s body) fun _ _ => True :=
    planned_block rfl rfl (Array.size_push _)
  have hopen : Planned c r.afterCond r.bodyStart fun _ _ => True :=
    planned_block rfl rfl (Array.size_push _)
  have hclose : Planned c r.afterBody r.closed fun _ _ => True := by
    refine Planned.mono (planned_starts [head, head] ?_ ?_ ?_) fun _ _ _ _ _ => trivial
    · exact r.same_afterBack.1
    · exact congrArg Array.size r.same_afterBack.2.1
    · rw [length_cons, length_singleton, ← r.same_afterBack.2.2.1]
      simp [closed, inScope, inLoops, addPhis, opened]
  have hall := ((((((hlabels.trans hvars (grows_addValues _ _)).trans hhead hr.head.grows).trans hcond
    hr.cond.adds.grows).trans hopen ((grows_opened _ _).trans (grows_inLoops _ _))).trans hbody
    hr.body.adds.grows).trans hclose (grows_closed hr)).trans
    (planned_meetAll (s.labels.size + 4) r.meets) (grows_meetAll _ _)
  refine hall.mono ?_
  rintro S F - - ⟨⟨⟨⟨⟨⟨⟨hentry, hheads⟩, -⟩, h1⟩, -⟩, h2⟩, -⟩, howners⟩
  exact ⟨⟨hentry 0 _ rfl, hentry 1 _ rfl, hentry 2 _ rfl, hentry 3 _ rfl, hheads, howners⟩, h1, h2⟩

lemma no_phis (hS : Finishes c S F) (h : Framed s) (hr : r.Layout) (hu : Complete s r.result F)
    {l : Nat} (hlo : s.labels.size + 1 < l) (hhi : l ≤ r.afterCond.labels.size)
    (hne : l ≠ s.labels.size + 4) : ∀ p ∈ S.func.phis, p.label ≠ l := by
  have hle := (complete_cond hr).grows.labels
  apply hS.no_phis
  rw [hu.phis l (by omega) (by omega)]
  by_cases hin : l < s.labels.size + 4
  · rw [phisAt_result hr h (by omega) (by omega), if_neg (by omega), if_neg (by omega)]
    rfl
  · have hlt : (loopHead c s body).labels.size < l := by rw [labels_loopHead]; omega
    rw [(complete_cond hr).phis l hlt hhi, phisAt_eq_of_phis hr.cond.phis]
    exact h.phisAt_eq_nil (by omega)

lemma condSetting (hS : Finishes c S F) (h : Framed s) (hr : r.Layout)
    (hu : Complete s r.result F) (hplan : r.LoopPlan S V) (hcond : CondTyped c K V cond S)
    (hn : Names K V lo s) : CondSetting c S K V cond (s.labels.size + 2) (s.labels.size + 3)
      (loopHead c s body) r.afterCond where
  wellFormed := hcond.1
  wellTyped := hcond.2.1
  bool := hcond.2.2
  const v hv := by rw [← lookup_bodyStart hr]; exact (names_bodyStart hr hn).const v hv
  yes := ⟨hplan.bodyEntry, no_phis hS h hr hu (by omega) (by have := labels_le hr; omega) (by omega)⟩
  no := ⟨hplan.exitEntry, no_phis hS h hr hu (by omega) (by have := labels_le hr; omega) (by omega)⟩
  quiet l hlo hhi := by
    rw [labels_loopHead] at hlo
    exact no_phis hS h hr hu (by omega) hhi (by omega)

lemma certified_loopHead (hplan : r.LoopPlan S V) (hcert : Certified S V s) :
    Certified S V (loopHead c s body) := by
  have hgrows : Grows s (loopLabels c s body) := grows_loopLabels
  have hpos : 0 < (loopHead c s body).types.size := Nat.lt_of_lt_of_le hcert.pos hgrows.types_size
  exact certified_begin rfl hpos hplan.startEntry (owned_head hplan hcert.owned) (agrees_env V _)

lemma certified_bodyStart (hr : r.Layout) (hplan : r.LoopPlan S V) (hcert : Certified S V s)
    (hcond : Certified S V r.afterCond) : Certified S V r.bodyStart := by
  refine certified_begin rfl hcond.pos hplan.bodyEntry (owned_head hplan hcert.owned) fun v hv => ?_
  rw [lookup_bodyStart hr, agrees_env V _ v hv]

lemma certified_result (hr : r.Layout) (hplan : r.LoopPlan S V) (hcert : Certified S V s) :
    Certified S V r.result := by
  have hpos := Nat.lt_of_lt_of_le hcert.pos hr.region.adds.grows.types_size
  have hcurrent : r.result.current = { label := s.labels.size + 4 } := by
    rw [result, meetAll_eq]
    rfl
  exact certified_begin hcurrent hpos hplan.stopEntry (owned_result hplan hcert.owned)
    (agrees_env V _)

section Made

variable (hS : Finishes c S F) (h : Framed s) (hr : r.Layout) (hu : Complete s r.result F)
  (hlive : s.Live) (hplan : r.LoopPlan S V) (hcarried : ∀ v ∈ carriedBy s body, v ∈ V)
  (hcert : Certified S V s)

include hS h hr hu hplan hcarried hcert

include hlive in
lemma blockOk_enter : S.BlockOk s.blocks.size := by
  obtain ⟨σ, hat, hend⟩ := hcert.exists_end fun _ σ hag =>
    arrives_enter hS h hr hu hlive hplan hcert.owned hcarried hag
  exact blockOk_of_opened (s := loopLabels c s body) hS (grows_head hr hu.grows) hat hend

lemma blockOk_exit : S.BlockOk (r.afterBack.blocks.size + 1) := by
  rw [← blocks_exitStart]
  refine blockOk_of_opened (σ := ⟨(loopHead c s body).env V, []⟩) hS
    (grows_exitStart hu) ⟨_, hplan.exitEntry, owned_head hplan hcert.owned, trivial, rfl⟩
    ⟨trivial, nofun, fun _ => ?_⟩
  have harrives := arrives_exit hS h hr hu hplan hcert.owned hcarried (agrees_env V _)
  rwa [blocks_result, show r.afterBack.blocks.size + 2 = r.exitStart.blocks.size + 1 by
    rw [blocks_exitStart], ← blocks_exitStart] at harrives

include hlive in
lemma blockOk_back (hn : Names K V lo s)
    (hk : Keeps (assignedAll body) lo hi r.bodyStart r.afterBody)
    (hbody : Certified S V r.afterBody) : S.BlockOk r.afterBody.blocks.size := by
  have hF : Grows r.exitStart F :=
    (grows_opened r.exitStart (s.labels.size + 4)).trans (grows_exitStart hu)
  obtain ⟨σ, hat, hag, hended⟩ := hbody.here
  -- the block ends as it is, or with the jump back
  have hback : S.At r.afterBack σ ∧ S.EndOk r.afterBack.blocks.size σ r.afterBack.current.term := by
    by_cases hlive' : r.afterBody.Live
    · rw [r.afterBack_eq, if_pos hlive']
      refine ⟨hat, trivial, fun l hl j hj => ?_, nofun⟩
      cases mem_singleton.1 hl
      obtain ⟨b, hb, hlab⟩ := block_start hS hr hu
      obtain ⟨row, hrow⟩ := ne_none_iff_exists'.1 (mt back_eq_none_iff.1 (not_not.2 hlive'))
      rw [hS.eq_of_label hb hlab hj]
      refine arrives_again hS h hr hu hlive hplan hcert.owned hcarried ?_ ?_
        (leaves_back hr hn hk hcarried hrow hag) (k := r.loop.continues.length)
      · rw [sources_start hr hu, if_pos hlive', ← length_continues hr]
        exact getElem?_concat_length
      · rw [backs, hrow, ← length_reverse]
        exact getElem?_concat_length
    · rw [r.afterBack_eq, if_neg hlive']
      exact ⟨hat, hended hlive'⟩
  rw [← r.same_afterBack.2.2.1]
  exact blockOk_of_opened
    (s := ((r.afterBack.inLoops r.afterBack.loops.tail).inScope s.scope).addPhis r.phis)
    hS hF hback.1 hback.2

omit hS h hu hplan hcarried hcert in
lemma rows_afterBody (hmade : Made S r.bodyStart r.afterBody) : S.RowsOwned r.loop := by
  refine hmade.rows (fun loop hloop => ?_) r.loop (by rw [hr.loops]; rfl)
  cases hloop
  exact nofun

variable (hrows : S.RowsOwned r.loop)

include hlive hrows in
lemma phiOk_start (hn : Names K V lo s)
    (hk : Keeps (assignedAll body) lo hi r.bodyStart r.afterBody)
    (hbody : Certified S V r.afterBody) (hp : p ∈ S.func.phis)
    (hl : p.label = s.labels.size + 1) : S.PhiOk p := by
  obtain ⟨i, v, hi, hdst, hways⟩ := exists_of_mem_start hS h hr hu hp hl
  have hV := hcarried v (mem_of_getElem? hi)
  refine ⟨v, _, hdst ▸ hplan.heads i v hi, hl ▸ hplan.startEntry, ?_, fun b hb => ?_,
    fun j hj => ?_⟩
  · rw [env, if_pos hV, lookup_loopHead hi, hdst]
  · have hmem : some b ∈ r.startWays v := by
      rw [hways]
      exact List.mem_map_of_mem hb
    rcases mem_cons.1 hmem with hb | hb
    · exact hcert.owned v b ((if_pos hV).trans hb.symm)
    obtain ⟨row, hrow, hb⟩ := List.mem_map.1 hb
    rw [valueAt_of_carried hi] at hb
    rcases mem_append.1 hrow with hrow | hrow
    · obtain ⟨id, hid, howner⟩ := hrows row
        (mem_append_left _ (mem_reverse.1 hrow)) i v (by rw [carried_eq hr]; exact hi)
      cases hb.symm.trans hid
      exact howner
    · have hleaves := leaves_back hr hn hk hcarried (mem_toList.1 hrow) (agrees_env V _)
      exact hbody.owned v b ((hleaves.carried i v (by rw [carried_eq hr]; exact hi)).trans hb)
  · obtain ⟨b, hb, hlab⟩ := block_start hS hr hu
    rw [hl] at hj
    rw [hS.eq_of_label hb hlab hj, hS.blocks, arrivals_start hr hlive h hu hS.distinct,
      ← length_map, ← hways]
    simp [startWays, length_backs hr hu]

include hrows in
lemma phiOk_stop (hp : p ∈ S.func.phis) (hl : p.label = s.labels.size + 4) : S.PhiOk p := by
  obtain ⟨v, hv, hlook, hways⟩ := exists_of_mem_stop hS h hr hu hp hl
  have hV := hcarried v hv
  refine ⟨v, _, owned_result hplan hcert.owned v _ ((if_pos hV).trans hlook), hl ▸ hplan.stopEntry,
    (if_pos hV).trans hlook, fun b hb => ?_, fun j hj => ?_⟩
  · have hmem : some b ∈ r.stopWays v := by
      rw [hways]
      exact List.mem_map_of_mem hb
    rcases mem_append.1 hmem with hb | hb
    · obtain ⟨row, hrow, hb⟩ := List.mem_map.1 hb
      obtain ⟨i, hi⟩ := mem_iff_getElem?.1 hv
      rw [valueAt_of_carried hi] at hb
      obtain ⟨id, hid, howner⟩ := hrows row
        (mem_append_right _ (mem_reverse.1 hrow)) i v (by rw [carried_eq hr]; exact hi)
      cases hb.symm.trans hid
      exact howner
    · exact owned_head hplan hcert.owned v b ((if_pos hV).trans (mem_singleton.1 hb).symm)
  · obtain ⟨b, hb, hlab⟩ := block_stop hS hu
    rw [hl] at hj
    rw [hS.eq_of_label hb hlab hj, hS.blocks, arrivals_stop hr hu hS.distinct,
      ← length_map, ← hways]
    simp [stopWays, length_breaks hr hu]

omit hS h hu hplan hcarried hcert in
lemma loops_result : r.result.loops = s.loops := by
  rw [result, meetAll_eq]
  change r.afterBack.loops.tail = s.loops
  rw [r.same_afterBack.2.2.2, hr.loops]
  rfl

include hlive in
lemma made_result (hn : Names K V lo s)
    (hk : Keeps (assignedAll body) lo hi r.bodyStart r.afterBody)
    (hcond : Certified S V r.afterCond) (hmadec : Made S (loopHead c s body) r.afterCond)
    (hbody : Certified S V r.afterBody) (hmadeb : Made S r.bodyStart r.afterBody) :
    Made S s r.result where
  done j hlo hhi := by
    have hhead : (loopHead c s body).blocks.size = s.blocks.size + 1 := Array.size_push _
    have hstart : r.bodyStart.blocks.size = r.afterCond.blocks.size + 1 := Array.size_push _
    have hback := congrArg Array.size r.same_afterBack.2.2.1
    rw [blocks_result] at hhi
    by_cases h1 : j < r.afterCond.blocks.size
    · by_cases h0 : j = s.blocks.size
      · exact h0 ▸ blockOk_enter hS h hr hu hlive hplan hcarried hcert
      · exact hmadec.done j (by omega) h1
    by_cases h2 : j < r.afterBody.blocks.size
    · by_cases h0 : j = r.afterCond.blocks.size
      · have hF : Grows (r.afterCond.opened (s.labels.size + 2)) F :=
          (grows_inLoops _ _).trans (hr.body.adds.grows.trans ((complete_body hr).grows.trans hu.grows))
        exact h0 ▸ hcond.blockOk hS hF hr.cond.not_live
      · exact hmadeb.done j (by omega) h2
    by_cases h0 : j = r.afterBody.blocks.size
    · exact h0 ▸ blockOk_back hS h hr hu hlive hplan hcarried hcert hn hk hbody
    · rw [show j = r.afterBack.blocks.size + 1 by omega]
      exact blockOk_exit hS h hr hu hplan hcarried hcert
  phis p hp := by
    have hmem : p ∈ S.func.phis := hS.phis ▸ hu.grows.phis.subset hp
    have hrows := rows_afterBody hr hmadeb
    rw [phis_result, mem_append, mem_append] at hp
    rcases hp with hp | hp | hp
    · exact (hmadeb.phis p hp).elim (hmadec.phis p) .inr
    · exact .inr (phiOk_start hS h hr hu hlive hplan hcarried hcert hrows hn hk hbody hmem
        (headPhis_label hp))
    · exact .inr (phiOk_stop hS h hr hu hplan hcarried hcert hrows hmem (label_joinPhis hp))
  rows hs := by
    rw [loops_result hr]
    exact hs

end Made

end LoopRun

lemma stmtPlanned_loop {cond : Typed.Expr} {body : List Typed.Stmt} {run : Lower Unit}
    {r : LoopRun c cond body run s} {T : Setting → Prop} {A : List VarId}
    (h : Framed s) (hlive : s.Live) (hr : r.Layout)
    (hcond : CondPlanned c K V cond (s.labels.size + 2) (s.labels.size + 3) (loopHead c s body)
      r.afterCond) (hbody : StmtPlanned c T K V (assignedAll body) V lo r.bodyStart r.afterBody)
    (hk : Keeps (assignedAll body) lo hi r.bodyStart r.afterBody)
    (hassigned : ∀ v : Nat, v ∈ assignedAll body → v ∈ V ∨ (lo ≤ v ∧ v < hi)) :
    StmtPlanned c (fun S => CondTyped c K V cond S ∧ T S) K V A V lo s r.result := by
  refine (LoopRun.planned (V := V) hr hcond hbody).mono ?_
  rintro S F hS hF ⟨hplan, hcond, hbody⟩ ⟨hTc, hT⟩ hset hcert
  have hu := hset.complete
  have hn := hset.names
  have hcarried : ∀ v ∈ carriedBy s body, v ∈ V := by
    intro v hv
    obtain ⟨hmem, hsome⟩ := mem_carriedBy.1 hv
    have hlt := hn.below v hsome
    rcases hassigned v hmem with hV | hr
    · exact hV
    · omega
  -- the condition
  obtain ⟨hcond, hmadec⟩ := hcond (LoopRun.condSetting hS h hr hu hplan hTc hn)
    (certified_loopHead hplan hcert)
  -- the body
  have hle : s.labels.size ≤ r.bodyStart.labels.size := by
    have := labels_le hr
    change s.labels.size ≤ r.afterCond.labels.size
    omega
  have hubody : Complete r.bodyStart r.afterBody F := hu.trans (complete_body hr) hle
  have hin : InLoop S F (assignedAll body) V lo r.bodyStart r.afterBody := by
    intro loop hloop
    rw [hr.loops] at hloop
    cases hloop
    refine ⟨r.loop, V, _, .refl _,
      LoopRun.loopContext hS h hr hu hlive hplan hcert.owned hcarried, fun v hv => hv,
      fun v hv => hn.lt hv, fun v hv hV => ?_, fun v hV _ => ?_⟩
    · rw [carried_eq hr]
      exact mem_carriedBy.2 ⟨hv, hn.visible v hV⟩
    · rw [lookup_bodyStart hr, env, if_pos hV]
  obtain ⟨hbody, hmadeb⟩ := hbody hT ⟨names_bodyStart hr hn, hubody, hin⟩
    (certified_bodyStart hr hplan hcert hcond)
  exact ⟨certified_result hr hplan hcert,
    made_result hS h hr hu hlive hplan hcarried hcert hn hk hcond hmadec hbody hmadeb⟩

end VecLang.Ssa
