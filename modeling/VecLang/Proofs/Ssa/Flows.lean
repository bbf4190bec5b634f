import VecLang.Proofs.Ssa.Conditions

/-!
# The code of choices follows the plan

Where ways meet, each way brings the values that its branch of the phis says (`flow_of_joins`). So
behind a choice the plan can be followed again, whichever arm was taken (`stmtPlanned_choice`).
-/

namespace VecLang.Ssa

open Stateful LowerState List Option ChoiceRun

variable {c : LowerContext} {S : Setting} {F s t u : LowerState} {σ : Point} {K V W : List VarId}

/-! ## Ways that meet -/

lemma Finishes.phisAt_eq (hS : Finishes c S F) (l : LabelId) :
    S.func.phis.filter (fun p => p.label = l) = F.phisAt l := by rw [hS.phis]; rfl

variable {l : LabelId}

lemma Finishes.no_phis (hS : Finishes c S F) (h : F.phisAt l = []) :
    ∀ p ∈ S.func.phis, p.label ≠ l := by
  intro p hp hl
  have hmem : p ∈ F.phisAt l := by
    rw [← hS.phisAt_eq]
    exact mem_filter.2 ⟨hp, decide_eq_true hl⟩
  rw [h] at hmem
  cases hmem

variable {j : Nat}

lemma Finishes.eq_of_label (hS : Finishes c S F) {b : Block} {j' : Nat}
    (hb : S.func.blocks[j]? = some b) (hl : b.label = l)
    (hj' : blockOf? S.func.blocks l = some j') : j' = j := by
  obtain ⟨hne, b', hb', hl'⟩ := blockOf?_eq_some hj'
  rw [hS.blocks] at hb hb'
  exact hS.distinct hb' hb (hl'.trans hl.symm) (hl'.symm ▸ hne)

/-- Ways arrive at a label with the values `ways` of the variables `V`, and each phi there stands for
the ways of the variable it belongs to. -/
structure Meeting (S : Setting) (l : LabelId) (V : List VarId)
    (ways : VarId → List (Option ValueId)) (e : Env) : Prop where
  scope : ∀ v id, e v = some id → v ∈ V
  owned : S.plan.Owned e
  joins : ∀ v ∈ V, Joins (S.func.phis.filter fun p => p.label = l) (ways v) (e v)
  phis : ∀ p ∈ S.func.phis, p.label = l →
    ∃ v ∈ V, S.plan.owner p.dst = some v ∧ ways v = p.branches.map some

variable {e : Env}

lemma Meeting.flow {ways : VarId → List (Option ValueId)} {e' : Env}
    (h : Meeting S l V ways e') {k : Nat} (hk : ∀ v ∈ V, (ways v)[k]? = some (e v)) :
    S.Flow l k e e' := by
  intro v id hv
  have hV := h.scope v id hv
  by_cases hphi : ∃ p ∈ S.func.phis, p.label = l ∧ p.dst = id
  · -- the phi is that of the variable itself
    obtain ⟨p, hp, hl, rfl⟩ := hphi
    obtain ⟨w, -, hw, hways⟩ := h.phis p hp hl
    cases hw.symm.trans (h.owned v _ hv)
    have hb := hk v hV
    rw [hways, getElem?_map] at hb
    obtain ⟨b, hb, hbe⟩ := map_eq_some_iff.1 hb
    exact .inl ⟨p, hp, hl, rfl, b, hbe.symm, hb⟩
  · refine .inr ⟨?_, fun p hp hl hdst => hphi ⟨p, hp, hl, hdst⟩⟩
    rcases h.joins v hV with ⟨p, hp, hr, -⟩ | hsame
    · obtain ⟨hp, hl⟩ := mem_filter.1 hp
      rw [hv] at hr
      exact absurd ⟨p, hp, of_decide_eq_true hl, (Option.some.inj hr).symm⟩ hphi
    · rw [hsame _ (mem_of_getElem? (hk v hV)), hv]

lemma Meeting.arrives {ways : VarId → List (Option ValueId)} {e' : Env}
    (h : Meeting S l V ways e') (hentry : S.plan.entryAt l j = some e')
    (hat : ∃ b, S.func.blocks[j]? = some b ∧ b.label = l) {w : Way}
    (hk : ∀ k : Nat, (arrivals S.func.blocks j)[k]? = some w → ∀ v ∈ V, (ways v)[k]? = some (e v)) :
    S.Arrives w j e := by
  intro b k hb hw
  obtain ⟨b', hb', rfl⟩ := hat
  cases hb.symm.trans hb'
  exact ⟨e', hentry, h.flow (hk k hw)⟩

/-! ## Statements -/

/-- The values of the variables of a loop at a way back to its start, or out of it. -/
def LoopFrame.rows (loop : LoopFrame) (again : Bool) : List (List ValueId) :=
  if again then loop.continues else loop.breaks

/-- The variables `e` leave the round of a loop with the values of `row`, and what the loop does not
change is as it was at its start. -/
structure LoopFrame.Leaves (loop : LoopFrame) (U : List VarId) (base : Env) (row : List ValueId)
    (e : Env) : Prop where
  carried : ∀ (i : Nat) (v : VarId), loop.carried[i]? = some v → e v = row[i]?
  others : ∀ v ∈ U, v ∉ loop.carried → e v = base v

/-- Ways back and out of a loop arrive as the plan says. -/
structure LoopContext (S : Setting) (F : LowerState) (loop : LoopFrame) (U : List VarId)
    (base : Env) : Prop where
  carried : ∀ v ∈ loop.carried, v ∈ U
  leaves : ∀ (again : Bool) (k : Nat) (row : List ValueId) (j j' : Nat) (e : Env),
    (loop.rows again).reverse[k]? = some row → (F.sources (loop.exit again))[k]? = some j →
    loop.Leaves U base row e → blockOf? S.func.blocks (loop.exit again) = some j' →
    S.Arrives (.jump j) j' e

/-- The code between `s` and `t` stands in a loop that changes all variables `A` of those that were
in scope before it. -/
def InLoop (S : Setting) (F : LowerState) (A V : List VarId) (lo : Nat) (s t : LowerState) : Prop :=
  ∀ loop ∈ t.loops.head?, ∃ loop' U base, loop.Becomes loop' ∧ LoopContext S F loop' U base ∧
    U ⊆ V ∧ (∀ v : Nat, v ∈ U → v < lo) ∧ (∀ v ∈ A, v ∈ U → v ∈ loop'.carried) ∧
    ∀ v ∈ U, v ∉ loop'.carried → s.lookup v = base v

/-- What the code of statements relies on. They assign to the variables `A`. -/
structure StmtSetting (S : Setting) (F : LowerState) (K V A : List VarId) (lo : Nat)
    (s t : LowerState) : Prop where
  names : Names K V lo s
  complete : Complete s t F
  loop : InLoop S F A V lo s t

def StmtPlanned (c : LowerContext) (T : Setting → Prop) (K V A W : List VarId) (lo : Nat)
    (s t : LowerState) : Prop :=
  Planned c s t fun S F => T S → StmtSetting S F K V A lo s t → Certified S V s →
    Certified S W t ∧ Made S s t

/-! ## Choices -/

lemma armMeet_eq_take {aLive bLive : Bool} {outer a b : Option ValueId} {id : ValueId}
    (h : armMeet aLive bLive outer a b = .take id) :
    (aLive = true ∧ a = some id) ∨ (bLive = true ∧ b = some id) := by
  unfold armMeet at h
  cases aLive <;> cases bLive <;> cases a <;> cases b <;> cases outer <;> simp_all

lemma lookup_cons_nil (scope : List Bindings) (v : VarId) :
    lookupIn ([] :: scope) v = lookupIn scope v := by
  rw [lookupIn_cons]
  rfl

lemma LoopsBecome.head {loops loops' : List LoopFrame} (h : LoopsBecome loops loops') :
    ∀ loop ∈ loops.head?, ∃ loop' ∈ loops'.head?, loop.Becomes loop' := by
  intro loop hloop
  cases loops with
  | nil => cases hloop
  | cons first outer =>
    cases hloop
    obtain ⟨loop', rfl, hbecomes⟩ := h
    exact ⟨loop', rfl, hbecomes⟩

lemma InLoop.part {A A' : List VarId} {lo lo' : Nat} {s' t' : LowerState}
    (h : InLoop S F A V lo s t) (hA : A' ⊆ A) (hV : V ⊆ W) (hlo : lo ≤ lo')
    (hloops : ∀ loop ∈ t'.loops.head?, ∃ loop' ∈ t.loops.head?, loop.Becomes loop')
    (hlook : ∀ v : Nat, v < lo → v ∉ A → s'.lookup v = s.lookup v) :
    InLoop S F A' W lo' s' t' := by
  intro loop hloop
  obtain ⟨loop', hloop', hbecomes⟩ := hloops loop hloop
  obtain ⟨final, U, base, hfinal, hctx, hU, hlt, hchanged, hsame⟩ := h loop' hloop'
  refine ⟨final, U, base, hbecomes.trans hfinal, hctx, fun v hv => hV (hU hv),
    fun v hv => Nat.lt_of_lt_of_le (hlt v hv) hlo, fun v hv => hchanged v (hA hv), ?_⟩
  intro v hv hnot
  rw [hlook v (hlt v hv) fun hA => hnot (hchanged v hA hv)]
  exact hsame v hv hnot

/-- Of two things that may be there, the one that is there is found at the same place as what goes
with it. -/
lemma getElem?_pair {α β : Type} {a b : Prop} [Decidable a] [Decidable b] {x y z : α} {p q w : β}
    {k : Nat} (hk : ((if a then [x] else []) ++ if b then [y] else [])[k]? = some z) (hne : x ≠ y)
    (h : (a ∧ z = x ∧ w = p) ∨ (b ∧ z = y ∧ w = q)) :
    ((if a then [p] else []) ++ if b then [q] else [])[k]? = some w := by
  rcases h with ⟨ha, rfl, rfl⟩ | ⟨hb, rfl, rfl⟩
  · rw [if_pos ha] at hk ⊢
    rcases k with _ | _ | k <;> split_ifs at hk ⊢ <;> simp_all
  · rw [if_pos hb] at hk ⊢
    rcases k with _ | _ | k <;> split_ifs at hk ⊢ <;> simp_all

lemma planned_meetAll (label : LabelId) (ms : List (VarId × Meet)) :
    Planned c s (s.meetAll c label ms) fun S _ => ∀ (k : Nat) (v : VarId),
      (joinVars ms)[k]? = some v → S.plan.owner (s.types.size + k) = some v := by
  rw [meetAll_eq]
  exact planned_vars _ rfl rfl rfl

namespace ChoiceRun

variable {cond : Typed.Expr} {thenArm elseArm : Lower Unit}
  {r : ChoiceRun c cond thenArm elseArm s}

def ways (r : ChoiceRun c cond thenArm elseArm s) (v : VarId) : List (Option ValueId) :=
  armWays (decide r.afterThen.Live) (decide r.afterElse.Live) (r.afterThen.lookup v)
    (r.afterElse.lookup v)

section

variable (hr : r.Layout t)
include hr

lemma scope_afterCond : r.afterCond.scope = s.scope := hr.cond.scope

lemma lookup_thenStart (v : VarId) : r.thenStart.lookup v = s.lookup v := by
  rw [thenStart, LowerState.lookup, LowerState.lookup, ← scope_afterCond hr]
  exact lookup_cons_nil _ v

lemma lookup_elseStart (v : VarId) : r.elseStart.lookup v = s.lookup v := by
  rw [elseStart, LowerState.lookup, LowerState.lookup, ← scope_afterCond hr]
  exact lookup_cons_nil _ v

lemma lookup_joinStart (v : VarId) : r.joinStart.lookup v = s.lookup v := by
  rw [joinStart, LowerState.lookup, LowerState.lookup, ← scope_afterCond hr]
  rfl

lemma lookup_afterThen (v : VarId) :
    r.afterThen.lookup v = (r.afterThen.arm.get? v).or (s.lookup v) := by
  rw [lookup_eq hr.thenRegion.framed.scope, hr.thenRegion.tail, LowerState.lookup,
    ← scope_afterCond hr]
  rfl

lemma lookup_afterElse (v : VarId) :
    r.afterElse.lookup v = (r.afterElse.arm.get? v).or (s.lookup v) := by
  rw [lookup_eq hr.elseRegion.framed.scope, hr.elseRegion.tail, LowerState.lookup,
    ← scope_afterCond hr]
  rfl

end

structure JoinPlan (r : ChoiceRun c cond thenArm elseArm s) (S : Setting) (V : List VarId)
    (t : LowerState) : Prop where
  entry : S.plan.entries[s.labels.size + 3]? = some (t.env V)
  owners : ∀ (k : Nat) (v : VarId), (joinVars r.meets)[k]? = some v →
    S.plan.owner (r.joinStart.types.size + k) = some v

structure ArmVars (r : ChoiceRun c cond thenArm elseArm s) (q : Plan) (V : List VarId)
    (lo mid : Nat) : Prop where
  le : lo ≤ mid
  visible : ∀ v ∈ V, (s.lookup v).isSome
  below : ∀ v : Nat, (s.lookup v).isSome → v < lo
  thenVars : ∀ v : Nat, (r.afterThen.arm.get? v).isSome → v ∈ V ∨ (lo ≤ v ∧ v < mid)
  elseVars : ∀ v : Nat, (r.afterElse.arm.get? v).isSome → v ∈ V ∨ mid ≤ v
  owned : q.Owned (s.env V)
  thenOwned : q.Owned (r.afterThen.env V)
  elseOwned : q.Owned (r.afterElse.env V)

variable {lo mid : Nat}

lemma keys_meets (r : ChoiceRun c cond thenArm elseArm s) (hr : r.Layout t) :
    (r.meets.map (·.1)).Nodup := by
  rw [meets, keys_armMeets]
  exact nodup_touched hr.thenRegion.framed.nodup hr.elseRegion.framed.nodup

lemma owned_join (hr : r.Layout t) (hplan : r.JoinPlan S V t) (hv : r.ArmVars S.plan V lo mid) :
    S.plan.Owned (t.env V) := by
  intro v id hid
  obtain ⟨hV, hid⟩ := env_eq_some.1 hid
  rw [hr.join_eq, lookup_meetAll _ (r.keys_meets hr), lookup_joinStart hr] at hid
  have hin : ∀ {u : LowerState}, S.plan.Owned (u.env V) → u.lookup v = some id →
      S.plan.owner id = some v := fun h hu => h v id ((if_pos hV).trans hu)
  cases hset : (settled r.joinStart.types.size r.meets).get? v with
  | none =>
    rw [hset, none_or] at hid
    exact hin hv.owned hid
  | some id' =>
    rw [hset, some_or] at hid
    cases hid
    rcases settled_cases hset with ⟨k, rfl, hk⟩ | htake
    · exact hplan.owners k v hk
    · -- one of the arms has set the variable
      obtain ⟨w, -, hw⟩ := List.mem_map.1 htake
      obtain ⟨rfl, hmeet⟩ := Prod.mk.inj hw
      rcases armMeet_eq_take hmeet with ⟨-, ha⟩ | ⟨-, hb⟩
      · exact hin hv.thenOwned (by rw [lookup_afterThen hr, ha, some_or])
      · exact hin hv.elseOwned (by rw [lookup_afterElse hr, hb, some_or])

lemma mem_of_touched (hr : r.Layout t) {q : Plan} (hv : r.ArmVars q V lo mid) {v : Nat}
    (htouched : v ∈ touched r.afterThen.arm r.afterElse.arm)
    (ha : (r.afterThen.lookup v).isSome) (hb : (r.afterElse.lookup v).isSome) : v ∈ V := by
  rw [lookup_afterThen hr, isSome_or, Bool.or_eq_true] at ha
  rw [lookup_afterElse hr, isSome_or, Bool.or_eq_true] at hb
  by_contra hV
  have hthen := fun h => (hv.thenVars v h).resolve_left hV
  have helse := fun h => (hv.elseVars v h).resolve_left hV
  have hbelow := hv.below v
  have hle := hv.le
  -- otherwise it would be declared in one of the arms, and the other has no value for it
  rcases mem_touched.1 htouched with h | h
  · obtain ⟨hlo, hmid⟩ := hthen (Assoc.isSome_get?_iff.2 h)
    rcases hb with hb | hb
    · exact absurd (helse hb) (Nat.not_le.2 hmid)
    · exact absurd (hbelow hb) (Nat.not_lt.2 hlo)
  · have hmid := helse (Assoc.isSome_get?_iff.2 h)
    rcases ha with ha | ha
    · exact absurd (hthen ha).2 (Nat.not_lt.2 hmid)
    · exact absurd (hbelow ha) (Nat.not_lt.2 (Nat.le_trans hle hmid))

section Join

variable (hS : Finishes c S F) (h : Framed s) (hr : r.Layout t) (hu : Complete s t F)

include hS h hr hu

lemma phis_join : S.func.phis.filter (fun p => p.label = s.labels.size + 3) =
    joinPhis (s.labels.size + 3) r.joinStart.types.size r.meets := by
  have hle : s.labels.size + 3 ≤ t.labels.size := by
    have := labels_le hr
    have := (rest_cond hr).grows.labels
    omega
  rw [hS.phisAt_eq, hu.phis _ (by omega) hle, phisAt_join hr h]

lemma exists_of_mem_phis (hplan : r.JoinPlan S V t) (hv : r.ArmVars S.plan V lo mid) {p : Phi}
    (hp : p ∈ S.func.phis) (hl : p.label = s.labels.size + 3) :
    ∃ v ∈ V, S.plan.owner p.dst = some v ∧ t.lookup v = some p.dst ∧ r.afterThen.Live ∧
      r.afterElse.Live ∧ [r.afterThen.lookup v, r.afterElse.lookup v] = p.branches.map some := by
  have hmem : p ∈ joinPhis (s.labels.size + 3) r.joinStart.types.size r.meets := by
    rw [← phis_join hS h hr hu]
    exact mem_filter.2 ⟨hp, decide_eq_true hl⟩
  obtain ⟨v, htouched, hset, ha, hb, hways⟩ := exists_of_mem_armPhis
    hr.thenRegion.framed.nodup hr.elseRegion.framed.nodup hmem
  rw [lookup_joinStart hr, ← lookup_afterThen hr, ← lookup_afterElse hr] at hways
  have hlook : t.lookup v = some p.dst := by
    rw [hr.join_eq, lookup_meetAll _ (r.keys_meets hr)]
    exact (congrArg (Option.or · _) hset).trans (some_or ..)
  have hV : v ∈ V := by
    refine mem_of_touched hr hv htouched ?_ ?_
    all_goals
      obtain ⟨b1, b2, hbr⟩ : ∃ b1 b2, p.branches = [b1, b2] := by
        have hlen := congrArg List.length hways
        rw [length_map] at hlen
        exact length_eq_two.1 hlen.symm
      rw [hbr] at hways
      simp only [map_cons, map_nil, List.cons.injEq] at hways
    · rw [hways.1]; rfl
    · rw [hways.2.1]; rfl
  exact ⟨v, hV, owned_join hr hplan hv v _ ((if_pos hV).trans hlook), hlook,
    of_decide_eq_true ha, of_decide_eq_true hb, hways⟩

lemma meeting_join (hplan : r.JoinPlan S V t) (hv : r.ArmVars S.plan V lo mid) :
    Meeting S (s.labels.size + 3) V r.ways (t.env V) where
  scope v id hid := (env_eq_some.1 hid).1
  owned := owned_join hr hplan hv
  joins v hV := by
    have hsome : (r.joinStart.lookup v).isSome := by rw [lookup_joinStart hr]; exact hv.visible v hV
    rw [phis_join hS h hr hu, ways, lookup_afterThen hr, lookup_afterElse hr,
      ← lookup_joinStart hr, LowerState.env, if_pos hV, hr.join_eq]
    exact joins_armMeets _ hr.thenRegion.framed.nodup hr.elseRegion.framed.nodup hsome
  phis p hp hl := by
    obtain ⟨v, hV, howner, -, ha, hb, hways⟩ := exists_of_mem_phis hS h hr hu hplan hv hp hl
    refine ⟨v, hV, howner, ?_⟩
    rw [← hways, ways, armWays, decide_eq_true ha, decide_eq_true hb]
    rfl

omit h in
lemma block_join : ∃ b, S.func.blocks[t.blocks.size]? = some b ∧ b.label = s.labels.size + 3 := by
  obtain ⟨b, hb, hl⟩ := ((grows_joinStart hr).trans hu.grows).label_of_opened
  exact ⟨b, by rw [hS.blocks, blocks_eq hr]; exact hb, hl⟩

omit h in
lemma blockOf?_join (hj : blockOf? S.func.blocks (s.labels.size + 3) = some j) :
    j = t.blocks.size := by
  obtain ⟨b, hb, hl⟩ := block_join hS hr hu
  exact hS.eq_of_label hb hl hj

lemma arrives_join (hplan : r.JoinPlan S V t) (hv : r.ArmVars S.plan V lo mid) {w : Way}
    (hw : (w = .jump r.afterThen.blocks.size ∧ r.afterThen.Live ∧ Agrees V e r.afterThen) ∨
      (w = .fall r.afterElse.blocks.size ∧ r.afterElse.Live ∧ Agrees V e r.afterElse)) :
    S.Arrives w t.blocks.size e := by
  refine (meeting_join hS h hr hu hplan hv).arrives hplan.entry (block_join hS hr hu)
    fun k hk v hV => ?_
  rw [hS.blocks, arrivals_join hr h hu hS.distinct] at hk
  simp only [ways, armWays, decide_eq_true_eq]
  rcases hw with ⟨rfl, hlive, hag⟩ | ⟨rfl, hlive, hag⟩
  · rw [hag v hV]
    exact getElem?_pair hk (by simp) (.inl ⟨hlive, rfl, rfl⟩)
  · rw [hag v hV]
    exact getElem?_pair hk (by simp) (.inr ⟨hlive, rfl, rfl⟩)

lemma phiOk_join (hplan : r.JoinPlan S V t) (hv : r.ArmVars S.plan V lo mid) {p : Phi}
    (hp : p ∈ S.func.phis) (hl : p.label = s.labels.size + 3) : S.PhiOk p := by
  obtain ⟨v, hV, howner, hlook, ha, hb, hways⟩ := exists_of_mem_phis hS h hr hu hplan hv hp hl
  refine ⟨v, t.env V, howner, hl ▸ hplan.entry, (if_pos hV).trans hlook, fun b hb => ?_, ?_⟩
  · have hmem : some b ∈ [r.afterThen.lookup v, r.afterElse.lookup v] := by
      rw [hways]
      exact List.mem_map_of_mem hb
    rcases mem_pair.1 hmem with hb | hb
    · exact hv.thenOwned v b ((if_pos hV).trans hb.symm)
    · exact hv.elseOwned v b ((if_pos hV).trans hb.symm)
  · intro j hj
    rw [hl] at hj
    rw [blockOf?_join hS hr hu hj, hS.blocks, arrivals_join hr h hu hS.distinct, if_pos ha,
      if_pos hb, ← length_map, ← hways]
    rfl

end Join

end ChoiceRun

def CondTyped (c : LowerContext) (K V : List VarId) (e : Typed.Expr) (S : Setting) : Prop :=
  e.erase.WellFormed c.table (fun v => v ∈ V ∨ v ∈ K) ∧
    e.WellTyped c.table c.module.varType S.fits ∧ e.ty = .bool

section Choice

variable {cond : Typed.Expr} {thenArm elseArm : Lower Unit}
  {r : ChoiceRun c cond thenArm elseArm s} {T1 T2 : Setting → Prop} {A1 A2 : List VarId}
  {lo mid hi : Nat}

namespace ChoiceRun

structure ChoicePlan (r : ChoiceRun c cond thenArm elseArm s) (S : Setting) (V : List VarId)
    (t : LowerState) : Prop where
  thenEntry : S.plan.entries[s.labels.size + 1]? = some (s.env V)
  elseEntry : S.plan.entries[s.labels.size + 2]? = some (s.env V)
  join : r.JoinPlan S V t

section

variable (hr : r.Layout t)
include hr

lemma grows_join : Grows r.joinStart t := by
  rw [hr.join_eq]
  exact grows_meetAll _ _

lemma planned_join : Planned c r.joinStart t fun S _ =>
    ∀ (k : Nat) (v : VarId), (joinVars r.meets)[k]? = some v →
      S.plan.owner (r.joinStart.types.size + k) = some v := by
  rw [hr.join_eq]
  exact planned_meetAll _ _

lemma planned {P1 P2 P3 : Setting → LowerState → Prop}
    (hcond : Planned c (choiceLabels s) r.afterCond P1)
    (hthen : Planned c r.thenStart r.afterThen P2) (helse : Planned c r.elseStart r.afterElse P3) :
    Planned c s t fun S F => r.ChoicePlan S V t ∧ P1 S F ∧ P2 S F ∧ P3 S F := by
  have hlabels : Planned c s (choiceLabels s) _ :=
    planned_labels [s.env V, s.env V, t.env V] rfl (size_choiceLabels s) rfl
  have hopen1 : Planned c r.afterCond r.thenStart fun _ _ => True :=
    planned_block rfl rfl (Array.size_push _)
  have hgrows1 : Grows r.afterCond r.thenStart := (grows_opened _ _).trans (grows_inScope _ _)
  have hopen2 : Planned c r.afterThen r.elseStart fun _ _ => True := by
    unfold elseStart thenEnd
    split
    · exact planned_block rfl rfl (Array.size_push _)
    · exact planned_block rfl rfl (Array.size_push _)
  have hgrows2 : Grows r.afterThen r.elseStart :=
    hr.jump.grows.trans ((grows_opened _ _).trans (grows_inScope _ _))
  have hopen3 : Planned c r.afterElse r.joinStart fun _ _ => True :=
    planned_block rfl rfl (Array.size_push _)
  have hgrows3 : Grows r.afterElse r.joinStart := (grows_opened _ _).trans (grows_inScope _ _)
  have hall := ((((((hlabels.trans hcond hr.cond.adds.grows).trans hopen1 hgrows1).trans hthen
    hr.thenRegion.adds.grows).trans hopen2 hgrows2).trans helse hr.elseRegion.adds.grows).trans
    hopen3 hgrows3).trans (planned_join hr) (grows_join hr)
  refine hall.mono ?_
  rintro S F - - ⟨⟨⟨⟨⟨⟨⟨hentry, h1⟩, -⟩, h2⟩, -⟩, h3⟩, -⟩, howners⟩
  exact ⟨⟨hentry 0 _ rfl, hentry 1 _ rfl, hentry 2 _ rfl, howners⟩, h1, h2, h3⟩

lemma made_elseStart (hblock : S.BlockOk r.afterThen.blocks.size) :
    Made S r.afterThen r.elseStart := by
  have hsame : r.elseStart.blocks.size = r.afterThen.blocks.size + 1 ∧
      r.elseStart.phis = r.afterThen.phis := by
    unfold elseStart thenEnd
    split
    · exact ⟨Array.size_push _, rfl⟩
    · exact ⟨Array.size_push _, rfl⟩
  exact .of_block hsame.1 hsame.2 (by rw [hr.elseLoops]) hblock

lemma loops_join : t.loops = r.afterElse.loops := by
  rw [hr.join_eq, meetAll_eq]
  rfl

lemma current_join : t.current = { label := s.labels.size + 3 } := by
  rw [hr.join_eq, meetAll_eq]
  rfl

lemma complete_parts (h : Framed s) (hu : Complete s t F) :
    Complete (choiceLabels s) r.afterCond F ∧ Complete r.thenStart r.afterThen F ∧
      Complete r.elseStart r.afterElse F := by
  have h0 := (grows_choiceLabels s).labels
  have h1 := Nat.le_trans h0 hr.cond.adds.grows.labels
  have h2 : s.labels.size ≤ r.elseStart.labels.size :=
    Nat.le_trans h1 (Nat.le_trans (labels_then hr) (labels_else hr))
  exact ⟨hu.trans (complete_cond hr h) h0, hu.trans (complete_then hr h) h1,
    hu.trans (complete_else hr) h2⟩

end

lemma no_phis (hS : Finishes c S F) (hr : r.Layout t) (h : Framed s) (hu : Complete s t F)
    {l : Nat} (hlo : s.labels.size < l) (hhi : l ≤ r.afterCond.labels.size)
    (hne : l ≠ s.labels.size + 3) : ∀ p ∈ S.func.phis, p.label ≠ l := by
  apply hS.no_phis
  by_cases harm : l < s.labels.size + 3
  · rw [hu.phis l hlo (Nat.le_trans hhi (rest_cond hr).grows.labels), phisAt_arm hr h hlo harm]
  · have hlt : (choiceLabels s).labels.size < l := by rw [size_choiceLabels]; omega
    rw [(complete_parts hr h hu).1.phis l hlt hhi, phisAt_eq_of_phis hr.cond.phis,
      h.choiceLabels.phisAt_eq_nil hlt]

lemma condSetting (hS : Finishes c S F) (hr : r.Layout t) (h : Framed s) (hu : Complete s t F)
    (hplan : r.ChoicePlan S V t) (hcond : CondTyped c K V cond S)
    (hK : ∀ v ∈ K, s.lookup v = none) :
    CondSetting c S K V cond (s.labels.size + 1) (s.labels.size + 2) (choiceLabels s)
      r.afterCond where
  wellFormed := hcond.1
  wellTyped := hcond.2.1
  bool := hcond.2.2
  const := hK
  yes := ⟨hplan.thenEntry, no_phis hS hr h hu (by omega) (by have := labels_le hr; omega) (by omega)⟩
  no := ⟨hplan.elseEntry, no_phis hS hr h hu (by omega) (by have := labels_le hr; omega) (by omega)⟩
  quiet l hlo hhi := by
    rw [size_choiceLabels] at hlo
    exact no_phis hS hr h hu (by omega) hhi (by omega)

lemma certified_thenStart (hr : r.Layout t) (hplan : r.ChoicePlan S V t)
    (hcert : Certified S V s) (hcond : Certified S V r.afterCond) : Certified S V r.thenStart := by
  refine certified_begin rfl hcond.pos hplan.thenEntry hcert.owned fun v hv => ?_
  rw [lookup_thenStart hr, agrees_env V s v hv]

lemma certified_elseStart (hr : r.Layout t) (hplan : r.ChoicePlan S V t)
    (hcert : Certified S V s) (hthen : Certified S V r.afterThen) :
    Certified S V r.elseStart := by
  have hpos : 0 < r.elseStart.types.size := Nat.lt_of_lt_of_le hthen.pos hr.jump.grows.types_size
  refine certified_begin rfl hpos hplan.elseEntry hcert.owned fun v hv => ?_
  rw [lookup_elseStart hr, agrees_env V s v hv]

section Made

variable (hS : Finishes c S F) (h : Framed s) (hr : r.Layout t) (hu : Complete s t F)
  (hplan : r.JoinPlan S V t) (hv : r.ArmVars S.plan V lo mid)

include hS h hr hu hplan hv

lemma blockOk_then (hthen : Certified S V r.afterThen) : S.BlockOk r.afterThen.blocks.size := by
  have hF : Grows (r.thenEnd.opened (s.labels.size + 2)) F :=
    ((grows_inScope _ _).trans (hr.elseRegion.adds.grows.trans hr.join.grows)).trans hu.grows
  obtain ⟨σ, hat, hag, hended⟩ := hthen.here
  by_cases hlive : r.afterThen.Live
  · have hend : r.thenEnd = r.afterThen.close (.goto (s.labels.size + 3)) := if_pos hlive
    rw [hend] at hF
    refine blockOk_of_opened (s := r.afterThen.close (.goto (s.labels.size + 3))) hS hF hat
      ⟨trivial, fun l hl j hj => ?_, nofun⟩
    cases mem_singleton.1 hl
    rw [blockOf?_join hS hr hu hj]
    exact arrives_join hS h hr hu hplan hv (.inl ⟨rfl, hlive, hag⟩)
  · have hend : r.thenEnd = r.afterThen := if_neg hlive
    rw [hend] at hF
    exact blockOk_of_opened hS hF hat (hended hlive)

lemma blockOk_else (helse : Certified S V r.afterElse) : S.BlockOk r.afterElse.blocks.size := by
  obtain ⟨σ, hat, hend⟩ := helse.exists_end fun hlive σ hag => by
    rw [← blocks_eq hr]
    exact arrives_join hS h hr hu hplan hv (.inr ⟨rfl, hlive, hag⟩)
  exact blockOk_of_opened hS ((grows_joinStart hr).trans hu.grows) hat hend

lemma made_join (helse : Certified S V r.afterElse) : Made S r.afterElse t where
  done j hlo hhi := by
    rw [blocks_eq hr] at hhi
    rw [show j = r.afterElse.blocks.size by omega]
    exact blockOk_else hS h hr hu hplan hv helse
  phis p hp := by
    have hmem : p ∈ S.func.phis := hS.phis ▸ hu.grows.phis.subset hp
    rw [hr.join_eq, phis_meetAll, mem_append] at hp
    rcases hp with hp | hp
    · exact .inl hp
    · exact .inr (phiOk_join hS h hr hu hplan hv hmem (label_joinPhis hp))
  rows hs := by
    rw [loops_join hr]
    exact hs

omit hS h hu in
lemma certified_join (helse : Certified S V r.afterElse) : Certified S V t := by
  have hpos := Nat.lt_of_lt_of_le helse.pos hr.join.grows.types_size
  exact certified_begin (current_join hr) hpos hplan.entry (owned_join hr hplan hv) (agrees_env V t)

end Made

end ChoiceRun

lemma stmtPlanned_choice (h : Framed s) (hr : r.Layout t)
    (hcond : CondPlanned c K V cond (s.labels.size + 1) (s.labels.size + 2) (choiceLabels s)
      r.afterCond) (hthen : StmtPlanned c T1 K V A1 V lo r.thenStart r.afterThen)
    (helse : StmtPlanned c T2 K V A2 V mid r.elseStart r.afterElse)
    (hkthen : Keeps A1 lo mid r.thenStart r.afterThen)
    (hkelse : Keeps A2 mid hi r.elseStart r.afterElse) (hlo : lo ≤ mid)
    (hA1 : ∀ v : Nat, v ∈ A1 → v ∈ V ∨ (lo ≤ v ∧ v < mid))
    (hA2 : ∀ v : Nat, v ∈ A2 → v ∈ V ∨ (mid ≤ v ∧ v < hi)) :
    StmtPlanned c (fun S => CondTyped c K V cond S ∧ T1 S ∧ T2 S) K V (A1 ++ A2) V lo s t := by
  refine (ChoiceRun.planned (V := V) hr hcond hthen helse).mono ?_
  rintro S F hS hF ⟨hplan, hcond, hthen, helse⟩ ⟨hTc, hT1, hT2⟩ hset hcert
  have hu := hset.complete
  obtain ⟨-, hcthen, hcelse⟩ := complete_parts hr h hu
  have hnames := hset.names
  -- the condition
  obtain ⟨hcond, hmadec⟩ := hcond (ChoiceRun.condSetting hS hr h hu hplan hTc hnames.const)
    ⟨hcert.pos, hcert.here⟩
  have hFthen : Grows (r.afterCond.opened (s.labels.size + 1)) F :=
    ((grows_inScope _ _).trans hr.thenRegion.adds.grows).trans hcthen.grows
  have hmadeo : Made S r.afterCond r.thenStart :=
    .of_block (Array.size_push _) rfl rfl (hcond.blockOk hS hFthen hr.cond.not_live)
  -- the arms
  have hloops : ∀ loop ∈ r.afterThen.loops.head?, ∃ loop' ∈ t.loops.head?, loop.Becomes loop' := by
    rw [loops_join hr, ← hr.elseLoops]
    exact hr.elseRegion.loops.head
  have hloop1 : InLoop S F A1 V lo r.thenStart r.afterThen :=
    hset.loop.part (fun v hv => mem_append_left _ hv) (fun v hv => hv) (Nat.le_refl _) hloops
      fun v _ _ => lookup_thenStart hr v
  have hloop2 : InLoop S F A2 V mid r.elseStart r.afterElse := by
    refine hset.loop.part (fun v hv => mem_append_right _ hv) (fun v hv => hv) hlo ?_
      fun v _ _ => lookup_elseStart hr v
    rw [loops_join hr]
    exact fun loop hloop => ⟨loop, hloop, .refl loop⟩
  obtain ⟨hthen, hmade1⟩ := hthen hT1
    ⟨hnames.of_lookup (lookup_thenStart hr), hcthen, hloop1⟩
    (certified_thenStart hr hplan hcert hcond)
  obtain ⟨helse, hmade2⟩ := helse hT2
    ⟨(hnames.of_lookup (lookup_elseStart hr)).weaken hlo, hcelse, hloop2⟩
    (certified_elseStart hr hplan hcert hthen)
  have hvars : r.ArmVars S.plan V lo mid := by
    refine ⟨hlo, hnames.visible, hnames.below, fun v hv => ?_, fun v hv => ?_, hcert.owned,
      hthen.owned, helse.owned⟩
    · by_contra hno
      rw [hkthen.arm v (fun hmem => hno (hA1 v hmem)) fun hr => hno (.inr hr)] at hv
      cases hv
    · by_contra hno
      rw [hkelse.arm v (fun hmem => hno ((hA2 v hmem).imp_right And.left))
        fun hr => hno (.inr hr.1)] at hv
      cases hv
  -- where the arms meet
  have hmadee := made_elseStart hr
    (blockOk_then hS h hr hu hplan.join hvars hthen)
  have hmades : Made S s (choiceLabels s) := .of_same rfl rfl rfl
  have hmadet : Made S s r.afterThen := ((hmades.trans hmadec).trans hmadeo).trans hmade1
  exact ⟨certified_join hr hplan.join hvars helse, ((hmadet.trans hmadee).trans
    hmade2).trans (made_join hS h hr hu hplan.join hvars helse)⟩

end Choice

end VecLang.Ssa
