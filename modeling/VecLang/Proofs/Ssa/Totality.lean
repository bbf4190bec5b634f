import VecLang.Proofs.Ssa.Programs

/-!
# Code for every program

Lowering never breaks down on a program that is accepted: every variable that is read has a value,
every function that is called is in the table, what is folded has as many lanes as its type, and a
loop is left only from inside one.
-/

namespace VecLang.Ssa

open Stateful LowerState List Typed
open Option hiding or_assoc

variable {c : LowerContext} {K V : List VarId} {fits : Fits} {types : VarId → Ty}

def Sees (c : LowerContext) (K V : List VarId) (s : LowerState) : Prop :=
  ∀ v, v ∈ V ∨ v ∈ K → ((s.lookup v).or (c.consts.get? v)).isSome

variable {s : LowerState}

lemma Sees.of_scope {t : LowerState} (h : Sees c K V s) (hscope : t.scope = s.scope) :
    Sees c K V t := by
  unfold Sees LowerState.lookup
  rw [hscope]
  exact h

/-! ## Expressions -/

lemma exists_result (known : Option Value) (ty : Ty) (instr : ValueId → Instr) (s : LowerState) :
    ∃ a t, result known ty instr s = .ok (a, t) := by
  cases known with
  | none => exact ⟨_, _, rfl⟩
  | some v => exact ⟨_, _, rfl⟩

mutual

lemma exists_lowerExpr (e : Expr) (hwf : Resolved.Visible c.table K V e.erase)
    (hwt : e.WellTyped c.table types fits) {s : LowerState} (hsees : Sees c K V s) (hlive : s.Live) :
    ∃ a t, lowerExpr c e s = .ok (a, t) := by
  match e with
  | .lit _ _ v => exact ⟨.lit v, s, by rw [lowerExpr]; rfl⟩
  | .var ty _ id =>
    obtain ⟨id', hid⟩ := isSome_iff_exists.1 (hsees id hwf)
    rw [lowerExpr, bind_of_eq_ok (varValue_eq_ok.2 ⟨id', hid, rfl⟩)]
    exact ⟨_, _, rfl⟩
  | .unary ty _ op x =>
    obtain ⟨a, s1, hx⟩ := exists_lowerExpr x hwf.2 hwt.1 hsees hlive
    rw [lowerExpr, bind_of_eq_ok hx]
    exact exists_result _ _ _ _
  | .binary ty _ op operand scaling x y =>
    obtain ⟨l, s1, hx⟩ := exists_lowerExpr x hwf.2.1 hwt.1 hsees hlive
    have hemits := emits_lowerExpr x hlive hx
    obtain ⟨r, s2, hy⟩ := exists_lowerExpr y hwf.2.2 hwt.2.1 (hsees.of_scope hemits.scope)
      (hemits.live hlive)
    rw [lowerExpr, bind_of_eq_ok hx, bind_of_eq_ok hy]
    exact exists_result _ _ _ _
  | .call ty _ callee args =>
    obtain ⟨⟨f, hf, -⟩, hwf⟩ := hwf
    obtain ⟨_, -, -, hwt⟩ := hwt
    obtain ⟨as, s1, has, -⟩ := exists_lowerExprs args (allWellFormed_eraseAll.1 hwf)
      (fun e he => by
        obtain ⟨p, -, hp⟩ := exists_of_mem_left (argsWellTyped_iff.1 hwt) he
        exact hp.1) hsees hlive
    rw [lowerExpr, bind_of_eq_ok has]
    simp only [hf]
    split
    · exact ⟨_, _, rfl⟩
    · exact ⟨_, _, rfl⟩
  | .pack ty _ elems =>
    obtain ⟨-, hlen, hwfs⟩ := hwf
    rw [length_eraseAll] at hlen
    obtain ⟨as, s1, has, hlen'⟩ := exists_lowerExprs elems (allWellFormed_eraseAll.1 hwfs)
      (fun e he => (elemsWellTyped_iff.1 hwt.2.2 e he).1) hsees hlive
    rw [lowerExpr, bind_of_eq_ok has]
    cases hk : as.mapM c.constant? with
    | none => exact exists_result _ _ _ _
    | some vs =>
      -- the components are packed right away
      obtain ⟨v, hv⟩ := Value.exists_pack
        ((Value.length_of_mapM_eq_some hk).trans (hlen'.trans hlen))
      exact ⟨.lit v, s1, bind_eq_ok.2 ⟨v, s1, lift_eq_ok.2 ⟨v, hv, rfl⟩, rfl⟩⟩
  | .swizzle ty _ lanes x =>
    obtain ⟨-, hlanes, hwf⟩ := hwf
    obtain ⟨hwt, -, -, hres⟩ := hwt
    obtain ⟨a, s1, hx⟩ := exists_lowerExpr x hwf hwt hsees hlive
    rw [lowerExpr, bind_of_eq_ok hx]
    cases hk : c.constant? a with
    | none => exact exists_result _ _ _ _
    | some w =>
      obtain ⟨v, hv⟩ := w.exists_swizzle hres hlanes
      exact ⟨.lit v, s1, bind_eq_ok.2 ⟨v, s1, lift_eq_ok.2 ⟨v, hv, rfl⟩, rfl⟩⟩

lemma exists_lowerExprs (es : List Expr) (hwf : ∀ e ∈ es, Resolved.Visible c.table K V e.erase)
    (hwt : ∀ e ∈ es, e.WellTyped c.table types fits) {s : LowerState} (hsees : Sees c K V s)
    (hlive : s.Live) : ∃ as t, lowerExprs c es s = .ok (as, t) ∧ as.length = es.length := by
  match es with
  | [] => exact ⟨[], s, by rw [lowerExprs]; rfl, rfl⟩
  | e :: es =>
    obtain ⟨a, s1, he⟩ := exists_lowerExpr e (hwf e mem_cons_self) (hwt e mem_cons_self)
      hsees hlive
    have hemits := emits_lowerExpr e hlive he
    obtain ⟨as, t, hes, hlen⟩ := exists_lowerExprs es
      (fun e he => hwf e (mem_cons_of_mem _ he)) (fun e he => hwt e (mem_cons_of_mem _ he))
      (hsees.of_scope hemits.scope) (hemits.live hlive)
    rw [lowerExprs, bind_of_eq_ok he, bind_of_eq_ok hes]
    exact ⟨_, _, rfl, congrArg (· + 1) hlen⟩

end

/-! ## Conditions -/

lemma exists_lowerTest {e : Expr} (hwf : Resolved.Visible c.table K V e.erase)
    (hwt : e.WellTyped c.table types fits) (hsees : Sees c K V s) (hlive : s.Live)
    (yes no : LabelId) : ∃ t, lowerTest c e yes no s = .ok ((), t) := by
  obtain ⟨a, s1, he⟩ := exists_lowerExpr e hwf hwt hsees hlive
  exact ⟨_, lowerTest_eq_ok.2 ⟨a, s1, he, rfl⟩⟩

lemma exists_lowerCond (e : Expr) (hwf : Resolved.Visible c.table K V e.erase)
    (hwt : e.WellTyped c.table types fits) {s : LowerState} (hsees : Sees c K V s) (hlive : s.Live)
    (yes no : LabelId) : ∃ t, lowerCond c e yes no s = .ok ((), t) := by
  match e with
  | .unary ty span op x =>
    rw [lowerCond]
    split
    · exact exists_lowerCond x hwf.2 hwt.1 hsees hlive no yes
    · exact exists_lowerTest hwf hwt hsees hlive yes no
  | .binary ty span op operand scaling x y =>
    -- the second operand of `and` or `or` comes behind the first
    have hthen (hint : Bytes) (yes' no' : LabelId) : ∃ t, (do
        lowerCond c x yes' no'
        startBlock (s.labels.size + 1)
        lowerCond c y yes no : Lower Unit) (s.addLabel hint) = .ok ((), t) := by
      have hlive' : (s.addLabel hint).Live := hlive
      obtain ⟨s1, hx⟩ := exists_lowerCond x hwf.2.1 hwt.1 (hsees.of_scope (t := s.addLabel hint) rfl)
        hlive' yes' no'
      have hscope : s1.scope = s.scope := (branches_lowerCond x hlive' hx).scope
      obtain ⟨t, hy⟩ := exists_lowerCond y hwf.2.2 hwt.2.1
        (hsees.of_scope (t := s1.opened (s.labels.size + 1)) hscope) rfl yes no
      rw [bind_of_eq_ok hx]
      exact ⟨t, hy⟩
    rw [lowerCond]
    split
    · exact hthen "and" (s.labels.size + 1) no
    split
    · exact hthen "or" yes (s.labels.size + 1)
    split
    · obtain ⟨l, s1, hx⟩ := exists_lowerExpr x hwf.2.1 hwt.1 hsees hlive
      have hemits := emits_lowerExpr x hlive hx
      obtain ⟨r, s2, hy⟩ := exists_lowerExpr y hwf.2.2 hwt.2.1 (hsees.of_scope hemits.scope)
        (hemits.live hlive)
      rw [bind_of_eq_ok hx, bind_of_eq_ok hy]
      exact ⟨_, lowerBranch_eq l op r operand _ _⟩
    · exact exists_lowerTest hwf hwt hsees hlive yes no
  | .lit _ _ _ | .var _ _ _ | .call _ _ _ _ | .pack _ _ _ | .swizzle _ _ _ _ =>
    exact exists_lowerTest hwf hwt hsees hlive yes no

/-! ## Statements -/

def Readable (c : LowerContext) (s : LowerState) (v : VarId) : Prop :=
  ((s.lookup v).or (c.consts.get? v)).isSome

structure Ready (c : LowerContext) (K V : List VarId) (inLoop : Bool) (s : LowerState) : Prop where
  live : s.Live
  sees : Sees c K V s
  /-- Inside a loop, its variables have values. -/
  loop : inLoop = true → ∃ loop outer, s.loops = loop :: outer ∧ ∀ v ∈ loop.carried, Readable c s v

/-- From `s` to `t` no variable loses its value, and the loops are the same. -/
structure Leads (c : LowerContext) (s t : LowerState) : Prop where
  mono : ∀ v, Readable c s v → Readable c t v
  carried : t.loops.map (·.carried) = s.loops.map (·.carried)

section Leads

variable {s t u : LowerState} {inLoop : Bool}

lemma Leads.trans (hst : Leads c s t) (htu : Leads c t u) : Leads c s u where
  mono v hv := htu.mono v (hst.mono v hv)
  carried := htu.carried.trans hst.carried

lemma Leads.of_eq (hscope : t.scope = s.scope) (hloops : t.loops = s.loops) : Leads c s t where
  mono v hv := by rwa [Readable, LowerState.lookup, hscope]
  carried := by rw [hloops]

lemma leads_bound (s : LowerState) (v : VarId) (id : ValueId) : Leads c s (s.bound v id) where
  mono w hw := by
    unfold Readable at hw ⊢
    rw [lookup_bound]
    split
    · rfl
    · exact hw
  carried := rfl

lemma leads_meet (label : LabelId) (s : LowerState) (v : VarId) (m : Meet) :
    Leads c s (s.meet c label v m) := by
  cases m with
  | phi branches =>
    have hphi : Leads c s ((s.addValue (c.module.varType v)).addPhis
      [⟨s.types.size, label, branches⟩]) := .of_eq rfl rfl
    exact hphi.trans (leads_bound _ v _)
  | take id => exact leads_bound s v id
  | keep => exact .of_eq rfl rfl

lemma leads_meetAll (label : LabelId) (ms : List (VarId × Meet)) (s : LowerState) :
    Leads c s (s.meetAll c label ms) := by
  induction ms generalizing s with
  | nil => exact .of_eq rfl rfl
  | cons m ms ih => exact (leads_meet label s m.1 m.2).trans (ih _)

lemma exists_mergeArms (label : LabelId) (a b : Bindings) (aLive bLive : Bool) (s : LowerState) :
    ∃ t, mergeArms c label a b aLive bLive s = .ok ((), t) ∧ Leads c s t := by
  unfold mergeArms
  generalize a.keys ++ b.keys.filter (fun v => (a.get? v).isNone) = vs
  induction vs generalizing s with
  | nil => exact ⟨s, rfl, .of_eq rfl rfl⟩
  | cons v vs ih =>
    obtain ⟨t, ht, hleads⟩ := ih (s.meet c label v (armMeet aLive bLive (lookupIn s.scope v)
      (a.get? v) (b.get? v)))
    refine ⟨t, bind_eq_ok.2 ⟨(), _, bind_eq_ok.2 ⟨s, s, rfl, mergeVar_eq _ _ _ _ _ _ _⟩, ht⟩,
      (leads_meet label s v _).trans hleads⟩

lemma Ready.of_leads (h : Ready c K V inLoop s) (hlive : t.Live) (hleads : Leads c s t) :
    Ready c K V inLoop t where
  live := hlive
  sees v hv := hleads.mono v (h.sees v hv)
  loop hin := by
    obtain ⟨loop, outer, hloops, hcarried⟩ := h.loop hin
    have heq := hleads.carried
    rw [hloops] at heq
    obtain ⟨loop', outer', hloops', hloop, -⟩ := map_eq_cons_iff.1 heq
    refine ⟨loop', outer', hloops', fun v hv => hleads.mono v (hcarried v ?_)⟩
    rwa [hloop] at hv

/-- What is lowered where it stands, whatever comes before it. -/
def Total (c : LowerContext) (K V : List VarId) (inLoop : Bool) (m : Lower Unit) : Prop :=
  ∀ {s}, Ready c K V inLoop s → ∃ t, m s = .ok ((), t) ∧ Leads c s t

variable {cond : Expr}

lemma total_lowerChoice {thenArm elseArm : Lower Unit}
    (hwf : Resolved.Visible c.table K V cond.erase) (hwt : cond.WellTyped c.table types fits)
    (hthen : Total c K V inLoop thenArm) (helse : Total c K V inLoop elseArm) :
    Total c K V inLoop (lowerChoice c cond thenArm elseArm) := by
  intro s hs
  -- the condition
  have hlabels : Leads c s (choiceLabels s) := .of_eq rfl rfl
  have hlive : (choiceLabels s).Live := hs.live
  obtain ⟨s1, hcond⟩ := exists_lowerCond cond hwf hwt (hs.of_leads hlive hlabels).sees hlive
    (s.labels.size + 1) (s.labels.size + 2)
  have hbranches := branches_lowerCond cond hlive hcond
  -- the first arm
  have hlook (u : LowerState) (v : VarId) (hu : u.scope = [] :: s1.scope) (hv : Readable c s v) :
      Readable c u v := by
    unfold Readable LowerState.lookup
    rw [hu, lookupIn_cons, hbranches.scope]
    exact hv
  set s2 := (s1.opened (s.labels.size + 1)).inScope ([] :: s1.scope)
  have hs2 : Leads c s s2 :=
    ⟨fun v hv => hlook s2 v rfl hv, congrArg (List.map (·.carried)) hbranches.loops⟩
  obtain ⟨s3, hrun, hs3⟩ := hthen (hs.of_leads (t := s2) rfl hs2)
  -- the second arm
  set s4 := ((if s3.Live then s3.close (.goto (s.labels.size + 3)) else s3).opened
    (s.labels.size + 2)).inScope ([] :: s1.scope)
  have hs4 : Leads c s s4 := by
    refine ⟨fun v hv => hlook s4 v rfl hv, Eq.trans ?_ (hs3.carried.trans hs2.carried)⟩
    simp only [s4]
    split <;> rfl
  obtain ⟨s5, hrun', hs5⟩ := helse (hs.of_leads (t := s4) rfl hs4)
  -- where the arms meet
  set s6 := (s5.opened (s.labels.size + 3)).inScope s1.scope
  have hs6 : Leads c s s6 := by
    refine ⟨fun v hv => ?_, hs5.carried.trans hs4.carried⟩
    unfold Readable LowerState.lookup
    rw [show s6.scope = s.scope from hbranches.scope]
    exact hv
  obtain ⟨t, hmerge, hleads⟩ := exists_mergeArms (c := c) (s.labels.size + 3) s3.arm s5.arm
    (decide s3.Live) (decide s5.Live) s6
  exact ⟨t, lowerChoice_eq_ok.2 ⟨⟨s1, s3, s5, hcond, hrun, hrun'⟩, hmerge⟩, hs6.trans hleads⟩

lemma exists_mapM_varValue {vs : List VarId} (h : ∀ v ∈ vs, Readable c s v) :
    ∃ ids, vs.mapM (varValue c) s = .ok (ids, s) := by
  have hids : ∃ ids : List ValueId,
      vs.map (fun v => (s.lookup v).or (c.consts.get? v)) = ids.map some := by
    induction vs with
    | nil => exact ⟨[], rfl⟩
    | cons v vs ih =>
      obtain ⟨ids, hids⟩ := ih fun w hw => h w (mem_cons_of_mem _ hw)
      obtain ⟨id, hid⟩ := isSome_iff_exists.1 (h v mem_cons_self)
      exact ⟨id :: ids, by rw [map_cons, map_cons, hid, hids]⟩
  obtain ⟨ids, hids⟩ := hids
  exact ⟨ids, mapM_varValue_eq_ok.2 ⟨ids, hids, rfl⟩⟩

lemma exists_lowerBack (start : LabelId) {vs : List VarId} (h : ∀ v ∈ vs, Readable c s v) :
    ∃ back t, lowerBack c start vs s = .ok (back, t) ∧ t.loops = s.loops := by
  by_cases hlive : s.Live
  · obtain ⟨ids, hids⟩ := exists_mapM_varValue h
    exact ⟨some ids, _, lowerBack_eq_ok.2 (.inr ⟨hlive, ids, hids, rfl, rfl⟩), rfl⟩
  · exact ⟨none, s, lowerBack_eq_ok.2 (.inl ⟨hlive, rfl, rfl⟩), rfl⟩

lemma readable_of_carriedBy {body : List Typed.Stmt} {v : VarId} (hv : v ∈ carriedBy s body) :
    Readable c s v := by
  obtain ⟨⟨w, id⟩, hmem, rfl⟩ := List.mem_map.1 hv
  obtain ⟨v, -, hv⟩ := mem_filterMap.1 hmem
  obtain ⟨id', hid, heq⟩ := map_eq_some_iff.1 hv
  cases heq
  unfold Readable LowerState.lookup
  rw [hid]
  rfl

lemma total_lowerLoop {body : List Typed.Stmt} {run : Lower Unit}
    (hwf : Resolved.Visible c.table K V cond.erase) (hwt : cond.WellTyped c.table types fits)
    (hrun : Total c K V true run) : Total c K V inLoop (lowerLoop c cond body run) := by
  intro s hs
  -- the condition
  have hhead : Leads c s (loopHead c s body) := by
    refine ⟨fun v hv => ?_, rfl⟩
    unfold Readable LowerState.lookup
    rw [show (loopHead c s body).scope = _ :: s.scope from rfl, lookupIn_cons, Option.or_assoc,
      isSome_or]
    exact Bool.or_eq_true_iff.2 (.inr hv)
  have hlive : (loopHead c s body).Live := rfl
  obtain ⟨s1, hcond⟩ := exists_lowerCond cond hwf hwt (hs.of_leads hlive hhead).sees hlive
    (s.labels.size + 2) (s.labels.size + 3)
  have hbranches := branches_lowerCond cond hlive hcond
  -- the body
  set s2 := (s1.opened (s.labels.size + 2)).inLoops
    (⟨s.labels.size + 1, s.labels.size + 4, carriedBy s body, [], []⟩ :: s1.loops)
  have hread (v : VarId) (hv : Readable c s v) : Readable c s2 v := by
    have hv' := hhead.mono v hv
    unfold Readable LowerState.lookup at hv' ⊢
    rwa [show s2.scope = (loopHead c s body).scope from hbranches.scope]
  have hready : Ready c K V true s2 :=
    ⟨rfl, fun v hv => hread v (hs.sees v hv), fun _ => ⟨_, _, rfl, fun v hv =>
      hread v (readable_of_carriedBy hv)⟩⟩
  obtain ⟨s3, hbody, hs3⟩ := hrun hready
  obtain ⟨back, s4, hback, hloops⟩ := exists_lowerBack (c := c) (s.labels.size + 1)
    fun v (hv : v ∈ carriedBy s body) => hs3.mono v (hread v (readable_of_carriedBy hv))
  let r : LoopRun c cond body run s := ⟨s1, s3, s4, back, hcond, hbody, hback⟩
  refine ⟨_, lowerLoop_eq_ok.2 ⟨r, rfl⟩, Leads.trans ?_ (leads_meetAll _ r.meets r.closed)⟩
  have hcarried : s4.loops.map (·.carried) = carriedBy s body :: s.loops.map (·.carried) := by
    rw [hloops, hs3.carried]
    exact congrArg (carriedBy s body :: ·.map (·.carried)) hbranches.loops
  refine ⟨fun v hv => hv, ?_⟩
  change s4.loops.tail.map (·.carried) = _
  rw [map_tail, hcarried]
  rfl

lemma total_lowerLoopExit (again : Bool) : Total c K V true (lowerLoopExit c again) := by
  intro s hs
  obtain ⟨loop, outer, hloops, hcarried⟩ := hs.loop rfl
  obtain ⟨ids, hids⟩ := exists_mapM_varValue hcarried
  refine ⟨_, lowerLoopExit_eq_ok.2 ⟨loop, outer, ids, hloops, hids, rfl⟩, fun v hv => hv, ?_⟩
  have hsame : (loop.left again ids).carried = loop.carried := by
    unfold LoopFrame.left
    split <;> rfl
  rw [hloops]
  exact congrArg (· :: outer.map (·.carried)) hsame

end Leads

lemma exists_bindVar {e : Expr} (hwf : Resolved.Visible c.table K V e.erase)
    (hwt : e.WellTyped c.table types fits) {inLoop : Bool}
    (hready : Ready c K V inLoop s) (v : VarId) :
    ∃ t, (lowerExpr c e >>= bindVar c v) s = .ok ((), t) ∧ Leads c s t ∧ Readable c t v := by
  obtain ⟨a, s1, he⟩ := exists_lowerExpr e hwf hwt hready.sees hready.live
  have hemits := emits_lowerExpr e hready.live he
  have hleads : Leads c s ((s1.addValue (c.module.varType v)).append (.assign s1.types.size a)) :=
    .of_eq hemits.scope hemits.loops
  refine ⟨_, bind_eq_ok.2 ⟨a, s1, he, bindVar_eq v a⟩, hleads.trans (leads_bound _ v _), ?_⟩
  unfold Readable
  rw [lookup_bound, if_pos rfl]
  rfl

mutual

lemma exists_lowerStmt (st : Typed.Stmt) {inLoop : Bool} {V : List VarId} {lo : Nat}
    (hs : st.Scoped (fun V e => Resolved.Visible c.table K V e.erase) inLoop V lo)
    (hwt : st.Obeys (.all (·.WellTyped c.table types fits))) {s : LowerState}
    (hready : Ready c K V inLoop s) : ∃ t, lowerStmt c st s = .ok ((), t) ∧ Leads c s t ∧
      ∀ v ∈ st.declares, Readable c t v := by
  match st with
  | .letVar _ v e =>
    obtain ⟨t, ht, hleads, hv⟩ := exists_bindVar hs.1 hwt hready v
    refine ⟨t, by rw [lowerStmt]; exact ht, hleads, fun w hw => ?_⟩
    cases mem_singleton.1 hw
    exact hv
  | .assign _ v e =>
    obtain ⟨t, ht, hleads, -⟩ := exists_bindVar hs.1 hwt hready v
    exact ⟨t, by rw [lowerStmt]; exact ht, hleads, nofun⟩
  | .expr _ e =>
    obtain ⟨a, t, he⟩ := exists_lowerExpr e hs hwt hready.sees hready.live
    have hemits := emits_lowerExpr e hready.live he
    exact ⟨t, by rw [lowerStmt]; exact bind_eq_ok.2 ⟨a, t, he, rfl⟩,
      .of_eq hemits.scope hemits.loops, nofun⟩
  | .ret _ none => exact ⟨s.close (.ret none), by rw [lowerStmt]; rfl, .of_eq rfl rfl, nofun⟩
  | .ret _ (some e) =>
    obtain ⟨a, t, he⟩ := exists_lowerExpr e hs (hwt e rfl) hready.sees hready.live
    have hemits := emits_lowerExpr e hready.live he
    exact ⟨t.close (.ret (if a = .none then none else some a)), by
      exact bind_eq_ok.2 ⟨a, t, he, rfl⟩, .of_eq hemits.scope hemits.loops, nofun⟩
  | .breakLoop _ =>
    cases hs
    obtain ⟨t, ht, hleads⟩ := total_lowerLoopExit false hready
    exact ⟨t, by rw [lowerStmt]; exact ht, hleads, nofun⟩
  | .continueLoop _ =>
    cases hs
    obtain ⟨t, ht, hleads⟩ := total_lowerLoopExit true hready
    exact ⟨t, by rw [lowerStmt]; exact ht, hleads, nofun⟩
  | .ifElse _ e body none =>
    obtain ⟨t, ht, hleads⟩ := total_lowerChoice hs.1 hwt.1 (total_lowerStmts body hs.2 hwt.2)
      (fun {s} _ => ⟨s, rfl, .of_eq rfl rfl⟩) hready
    exact ⟨t, by rw [lowerStmt]; exact ht, hleads, nofun⟩
  | .ifElse _ e body (some other) =>
    obtain ⟨t, ht, hleads⟩ := total_lowerChoice hs.1 hwt.1 (total_lowerStmts body hs.2.1 hwt.2.1)
      (total_lowerStmts other hs.2.2 hwt.2.2) hready
    exact ⟨t, by rw [lowerStmt]; exact ht, hleads, nofun⟩
  | .whileDo _ e body =>
    obtain ⟨t, ht, hleads⟩ := total_lowerLoop hs.1 hwt.1 (total_lowerStmts body hs.2 hwt.2) hready
    exact ⟨t, by rw [lowerStmt]; exact ht, hleads, nofun⟩

lemma total_lowerStmts (sts : List Typed.Stmt) {inLoop : Bool} {V : List VarId} {lo : Nat}
    (hs : Stmt.AllScoped (fun V e => Resolved.Visible c.table K V e.erase) inLoop V lo sts)
    (hwt : Stmt.AllObey (.all (·.WellTyped c.table types fits)) sts) :
    Total c K V inLoop (lowerStmts c sts) := by
  intro s hready
  match sts with
  | [] => exact ⟨s, by rw [lowerStmts]; rfl, .of_eq rfl rfl⟩
  | st :: sts =>
    obtain ⟨s1, hst, hleads, hdecl⟩ := exists_lowerStmt st hs.1 hwt.1 hready
    by_cases hlive : s1.Live
    · have hready1 := hready.of_leads hlive hleads
      have hready' : Ready c K (st.declares ++ V) inLoop s1 := by
        refine ⟨hlive, fun v hv => ?_, hready1.loop⟩
        rw [mem_append, or_assoc] at hv
        exact hv.elim (hdecl v) (hready1.sees v)
      obtain ⟨t, ht, hleads'⟩ := total_lowerStmts sts hs.2 hwt.2 hready'
      exact ⟨t, (lowerStmts_cons_eq_ok hready.live).2 ⟨s1, hst, ht⟩, hleads.trans hleads'⟩
    · exact ⟨s1, (lowerStmts_cons_eq_ok hready.live).2 ⟨s1, hst, lowerStmts_of_not_live hlive⟩, hleads⟩

end

/-! ## Programs -/

variable {table : SymbolTable} {lo : VarId} {m : Resolved.Module} {tm : Typed.Module}

lemma isSome_consts {v : VarId} (hv : v ∈ tm.consts.map (·.var)) :
    ((contextOf tm table).consts.get? v).isSome := by
  have hkeys (n : Nat) (ks : List Const) :
      Assoc.keys ((constValues n ks).map fun x => (x.1, x.2.1)) = ks.map (·.var) := by
    induction ks generalizing n with
    | nil => rfl
    | cons k ks ih => exact congrArg (k.var :: ·) (ih (n + 1))
  exact Assoc.isSome_get?_iff.2 ((hkeys 1 tm.consts).symm ▸ hv)

lemma exists_lowerFunc (hacc : Accepted table lo m tm) {g : Typed.Func} (hg : g ∈ tm.funcs)
    (s : LowerState) : ∃ f t, lowerFunc (contextOf tm table) g s = .ok (f, t) := by
  obtain ⟨a, sym, -, -, -, -, -, hnd, -, -, -, -, hscoped⟩ := func_of_accepted hacc hg
  obtain ⟨-, hobeys⟩ := hacc.wellTyped.funcs g hg
  have himplies : (rules table tm.varType (Declared table) g.result).Implies
      (.all (·.WellTyped table tm.varType (Declared table))) := by
    refine ⟨fun h => h.1, fun h => h, fun {e} h x hx => ?_, fun h => h.1⟩
    cases hx
    exact h.1
  have hwt := Stmt.AllObey.mono himplies g.body hobeys
  have hready : Ready (contextOf tm table) (tm.consts.map (·.var)) g.params false
      (funcStart (contextOf tm table) s g) := by
    refine ⟨rfl, fun v hv => ?_, nofun⟩
    rw [isSome_or]
    rcases hv with hv | hv
    · obtain ⟨i, hi⟩ := getElem?_of_mem hv
      rw [lookup_funcStart hnd hi]
      rfl
    · exact Bool.or_eq_true_iff.2 (.inr (isSome_consts hv))
  obtain ⟨t, ht, -⟩ := total_lowerStmts g.body hscoped hwt hready
  exact ⟨_, _, lowerFunc_eq_ok.2 ⟨⟨t, ht⟩, rfl, rfl⟩⟩

lemma exists_lowerModule (hacc : Accepted table lo m tm) : ∃ M, lowerModule tm table = .ok M := by
  have hall (gs : List Typed.Func) (hgs : ∀ g ∈ gs, g ∈ tm.funcs) (s : LowerState) :
      ∃ fs t, gs.mapM (lowerFunc (contextOf tm table)) s = .ok (fs, t) := by
    induction gs generalizing s with
    | nil => exact ⟨[], s, rfl⟩
    | cons g gs ih =>
      obtain ⟨f, s1, hf⟩ := exists_lowerFunc hacc (hgs g mem_cons_self) s
      obtain ⟨fs, t, hfs⟩ := ih (fun g hg => hgs g (mem_cons_of_mem _ hg)) s1
      exact ⟨f :: fs, t, mapM_cons_eq_ok.2 ⟨f, s1, fs, t, hf, hfs, rfl⟩⟩
  obtain ⟨fs, t, hrun⟩ := hall tm.funcs (fun _ hg => hg) (constState tm)
  exact ⟨_, lowerModule_eq_ok.2 ⟨fs, t, hrun, rfl⟩⟩

end VecLang.Ssa
