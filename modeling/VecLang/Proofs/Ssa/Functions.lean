import VecLang.Proofs.Ssa.Certificates
import VecLang.Ssa.Validate

/-!
# The code of functions

The code of a function is complete: each value is defined once, each label stands on one block, and
control never leaves the last block for the next one (`FuncRun.adds`). Together with a plan for it
(`Certificate`) this is all that a machine needs to know of a function in order to run it.
-/

namespace VecLang.Ssa

open List hiding all

open Stateful LowerState

variable {c : LowerContext} {S : Setting} {F s t u : LowerState} {σ : Point} {K V W : List VarId}
  {f : Typed.Func} {g : Func}

lemma definitions_eq (g : Func) : g.definitions.map (·.2) = (g.args ++ g.phis.map (·.dst)
    ++ g.blocks.toList.flatMap fun b => b.instrs.toList.map Instr.dst).filter (· ≠ 0) := by
  have hblock (i : Nat) (b : Block) : (b.placed i).map (·.2) = b.instrs.toList := by
    simp [Block.placed, Function.comp_def]
  have hnumbered : g.numbered.map (·.2) = g.blocks.toList := by
    simp [Func.numbered, Function.comp_def]
  have hinstrs : (g.numbered.flatMap fun x => (x.2.placed x.1).map fun y => y.2.dst) =
      g.blocks.toList.flatMap fun b => b.instrs.toList.map Instr.dst := by
    rw [← hnumbered, flatMap_map]
    refine flatMap_congr fun x _ => ?_
    rw [← hblock x.1 x.2, map_map]
    rfl
  rw [← hinstrs]
  simp [Func.definitions, filter_map, filter_append, filter_flatMap, map_flatMap, Function.comp_def]

/-! ## Runs -/

def argsOf (s : LowerState) (f : Typed.Func) : List ValueId := List.range' s.types.size f.params.length

def funcStart (c : LowerContext) (s : LowerState) (f : Typed.Func) : LowerState :=
  { s.addValues (f.params.map c.module.varType) with
    blocks := #[]
    current := {}
    phis := #[]
    scope := [(f.params.zip (argsOf s f)).foldl (fun (b : Bindings) (p, id) => b.set p id) []]
    loops := [] }

/-- The end of a function whose body is left at its end: one that should have returned a value stops
the program. -/
def endOf (f : Typed.Func) : Term := if f.result = .invalid then .ret none else .halt

lemma targets_endOf (f : Typed.Func) : (endOf f).targets = [] := by
  unfold endOf
  split <;> rfl

lemma fallsThrough_endOf (f : Typed.Func) : (endOf f).fallsThrough = false := by
  unfold endOf
  split <;> rfl

structure FuncRun (c : LowerContext) (f : Typed.Func) (s : LowerState) where
  afterBody : LowerState
  body_eq : lowerStmts c f.body (funcStart c s f) = .ok ((), afterBody)

namespace FuncRun

def result (r : FuncRun c f s) : LowerState :=
  if r.afterBody.Live then r.afterBody.close (endOf f) else r.afterBody

def func (r : FuncRun c f s) : Func :=
  { id := f.id, name := f.name, span := f.span, result := f.result, args := argsOf s f,
    blocks := r.result.all, phis := r.result.phis.toList }

end FuncRun

lemma lowerFunc_end (args : List ValueId) (u : LowerState) : (do
      if !(← terminated) then
        terminate (if f.result = .invalid then .ret none else .halt)
      let s ← get
      return { id := f.id, name := f.name, span := f.span, result := f.result, args,
               blocks := s.blocks.push s.current, phis := s.phis.toList } : Lower Func) u =
      let t := if u.Live then u.close (endOf f) else u
      .ok ({ id := f.id, name := f.name, span := f.span, result := f.result, args,
             blocks := t.all, phis := t.phis.toList }, t) := by
  by_cases hlive : u.Live
  · have hterm : terminated u = .ok (false, u) := by rw [terminated_eq, decide_eq_true hlive]; rfl
    rw [if_pos hlive]
    exact bind_eq_ok.2 ⟨false, u, hterm, rfl⟩
  · have hterm : terminated u = .ok (true, u) := by rw [terminated_eq, decide_eq_false hlive]; rfl
    rw [if_neg hlive]
    exact bind_eq_ok.2 ⟨true, u, hterm, rfl⟩

lemma lowerFunc_eq_ok : lowerFunc c f s = .ok (g, t) ↔
    ∃ r : FuncRun c f s, g = r.func ∧ t = r.result := by
  have hargs : (f.params.mapM fun p => newValue (c.module.varType p)) s =
      .ok (argsOf s f, s.addValues (f.params.map c.module.varType)) := mapM_newValue f.params s
  rw [lowerFunc, bind_of_eq_ok hargs, modify_bind, unit_bind_eq_ok]
  constructor
  · rintro ⟨u, hbody, h⟩
    obtain ⟨hg, ht⟩ := Prod.mk.inj (Except.ok.inj ((lowerFunc_end _ u).symm.trans h))
    exact ⟨⟨u, hbody⟩, hg.symm, ht.symm⟩
  · rintro ⟨⟨u, hbody⟩, rfl, rfl⟩
    exact ⟨u, hbody, lowerFunc_end _ u⟩

/-! ## Arguments -/

variable {v : VarId}

section Args

variable (hnd : f.params.Nodup)

lemma length_argsOf (s : LowerState) (f : Typed.Func) :
    (argsOf s f).length = f.params.length := length_range'

lemma keys_zip_args : Assoc.keys (f.params.zip (argsOf s f)) = f.params :=
  map_fst_zip (Nat.le_of_eq (length_argsOf s f).symm)

include hnd

lemma scope_funcStart : (funcStart c s f).scope = [f.params.zip (argsOf s f)] := by
  have hkeys : Assoc.keys (f.params.zip (argsOf s f)) = f.params := keys_zip_args
  refine congrArg (· :: []) ?_
  exact (Assoc.foldl_set _ (by rw [hkeys]; exact hnd)).trans (nil_append _)

lemma lookup_funcStart {i : Nat} (hi : f.params[i]? = some v) :
    (funcStart c s f).lookup v = some (s.types.size + i) := by
  have hlt : i < f.params.length := (List.getElem?_eq_some_iff.1 hi).1
  have hzip : (f.params.zip (argsOf s f))[i]? = some (v, s.types.size + i) := by
    rw [getElem?_zip_eq_some]
    exact ⟨hi, by simp [argsOf, hlt]⟩
  rw [LowerState.lookup, scope_funcStart hnd, lookupIn_cons,
    Assoc.get?_eq_some_of_mem (by rw [keys_zip_args]; exact hnd) (mem_of_getElem? hzip)]
  rfl

lemma lookup_funcStart_of_notMem (hv : v ∉ f.params) : (funcStart c s f).lookup v = none := by
  rw [LowerState.lookup, scope_funcStart hnd, lookupIn_cons,
    Assoc.get?_eq_none_iff.2 (by rwa [keys_zip_args])]
  rfl

lemma framed_funcStart : Framed (funcStart c s f) where
  scope := cons_ne_nil _ _
  nodup := by
    rw [LowerState.arm, scope_funcStart hnd]
    change (Assoc.keys (f.params.zip (argsOf s f))).Nodup
    rw [keys_zip_args]
    exact hnd
  targets := nofun
  sites := nofun
  ends _ := rfl
  ways := nofun

lemma names_funcStart {lo : Nat} (hparams : ∀ v : Nat, v ∈ f.params → v < lo)
    (hK : ∀ v : Nat, v ∈ K → v < lo ∧ v ∉ f.params) : Names K f.params lo (funcStart c s f) where
  visible v hv := by
    obtain ⟨i, hi⟩ := mem_iff_getElem?.1 hv
    rw [lookup_funcStart hnd hi]
    rfl
  below v hv := by
    by_contra hlt
    rw [lookup_funcStart_of_notMem hnd fun hmem => hlt (hparams v hmem)] at hv
    cases hv
  const v hv := lookup_funcStart_of_notMem hnd (hK v hv).2
  const_lt v hv := (hK v hv).1

end Args

variable {id : ValueId}

namespace FuncRun

variable (r : FuncRun c f s) (hnd : f.params.Nodup)

include hnd

lemma region : Region (funcStart c s f) r.afterBody :=
  region_lowerStmts f.body rfl (framed_funcStart hnd) r.body_eq

lemma adds : Adds [] [] [] (funcStart c s f) r.result := by
  have hbody : Adds [] [] [] (funcStart c s f) r.afterBody := (r.region hnd).adds
  unfold result
  split
  case isTrue hlive =>
    refine hbody.trans (.close hlive fun l hl => ?_)
    rw [targets_endOf] at hl
    cases hl
  case isFalse => exact hbody

lemma not_fallsThrough : r.result.current.term.fallsThrough = false := by
  unfold result
  split
  case isTrue => exact fallsThrough_endOf f
  case isFalse hlive => exact Bool.eq_false_iff.2 fun h => hlive ((r.region hnd).framed.ends h)

variable {l : LabelId}

lemma started_eq (hl : l ≠ 0) :
    r.result.started l = within (s.labels.size + 1) (r.result.labels.size + 1) l := by
  have hzero : (funcStart c s f).started l = 0 := by
    simp [started, all, funcStart, hl.symm]
  rw [(r.adds hnd).started l hl, hzero]
  simp [funcStart, LowerState.addValues]

lemma defs_eq (hid : id ≠ 0) : r.result.defs id =
    within (s.types.size + f.params.length) r.result.types.size id := by
  have hzero : (funcStart c s f).defs id = 0 := by simp [defs, all, funcStart]
  have hsize : (funcStart c s f).types.size = s.types.size + f.params.length := by
    simp [funcStart, LowerState.addValues]
  rw [(r.adds hnd).defs id hid, hzero, hsize]
  simp

lemma distinct : Distinct r.result.all := by
  refine distinct_of_count fun l hl => ?_
  change r.result.started l ≤ 1
  rw [r.started_eq hnd hl]
  unfold within
  split <;> omega

lemma taken_of_phi {p : Phi} (hp : p ∈ r.result.phis.toList) :
    s.labels.size < p.label ∧ p.label ≤ r.result.labels.size := by
  obtain ⟨new, hnew, hsites⟩ := (r.adds hnd).phis
  rw [hnew] at hp
  exact (hsites p hp).resolve_left nofun

lemma sites {p : Phi} (hp : p ∈ r.result.phis.toList) : p.label ≠ 0 :=
  Nat.ne_of_gt (Nat.lt_of_le_of_lt (Nat.zero_le _) (r.taken_of_phi hnd hp).1)

lemma isSome_blockOf?_of_taken (h : s.labels.size < l ∧ l ≤ r.result.labels.size) :
    (blockOf? r.result.all l).isSome := by
  have hne : l ≠ 0 := Nat.ne_of_gt (Nat.lt_of_le_of_lt (Nat.zero_le _) h.1)
  have hcount : 0 < (r.result.all.toList.map (·.label)).count l := by
    change 0 < r.result.started l
    rw [r.started_eq hnd hne, within, if_pos ⟨h.1, Nat.lt_succ_of_le h.2⟩]
    exact Nat.one_pos
  obtain ⟨b', hb', hlab⟩ := mem_map.1 (count_pos_iff.1 hcount)
  obtain ⟨i, hi⟩ := mem_iff_getElem?.1 hb'
  rw [Array.getElem?_toList] at hi
  rw [Distinct.blockOf?_eq (r.distinct hnd) hne hi hlab]
  rfl

lemma isSome_blockOf? {j : Nat} {b : Block} (hb : r.result.all[j]? = some b)
    (hl : l ∈ b.term.targets) : (blockOf? r.result.all l).isSome := by
  obtain ⟨new, hnew, hjumps⟩ := (r.adds hnd).jumps
  have hmem : (j, l) ∈ r.result.jumps := by
    refine mem_flatMap.2 ⟨(b, j), ?_, mem_map_of_mem hl⟩
    rw [mk_mem_zipIdx_iff_getElem?, Array.getElem?_toList]
    exact hb
  rw [hnew] at hmem
  exact r.isSome_blockOf?_of_taken hnd ((hjumps _ hmem).resolve_left nofun)

lemma lt_of_fallsThrough {j : Nat} {b : Block} (hb : r.result.all[j]? = some b)
    (hfalls : b.term.fallsThrough = true) : j + 1 < r.result.all.size := by
  have hlt : j < r.result.all.size := (Array.getElem?_eq_some_iff.1 hb).1
  have hsize : r.result.all.size = r.result.blocks.size + 1 := Array.size_push _
  by_contra hlast
  have hj : j = r.result.blocks.size := by omega
  rw [hj, getElem?_all_size] at hb
  cases hb
  rw [r.not_fallsThrough hnd] at hfalls
  cases hfalls

lemma count_definitions (hpos : 0 < s.types.size) (id : ValueId) :
    (r.func.definitions.map (·.2)).count id = within s.types.size r.result.types.size id := by
  have hsize : s.types.size + f.params.length ≤ r.result.types.size := by
    simpa [funcStart, LowerState.addValues] using (r.adds hnd).grows.types_size
  rw [definitions_eq]
  by_cases hid : id = 0
  · subst hid
    rw [count_eq_zero.2 (by simp), within, if_neg (by omega)]
  · have hdefs := r.defs_eq hnd hid
    rw [count_filter (by simpa using hid), append_assoc, count_append,
      count_append, ← within_add (Nat.le_add_right _ _) hsize, ← hdefs, ← count_range']
    rfl

lemma nodup_definitions (hpos : 0 < s.types.size) : (r.func.definitions.map (·.2)).Nodup := by
  refine nodup_iff_count_le_one.2 fun id => ?_
  rw [r.count_definitions hnd hpos, within]
  split <;> omega

lemma mem_definitions (hpos : 0 < s.types.size) :
    id ∈ r.func.definitions.map (·.2) ↔ s.types.size ≤ id ∧ id < r.result.types.size := by
  rw [← count_pos_iff, r.count_definitions hnd hpos, within]
  split <;> simp_all

end FuncRun

/-! ## Certificates -/

/-- All that a machine has to know of a function in order to run it. -/
structure Certificate (S : Setting) (params : List VarId) : Prop where
  blocks : ∀ j < S.func.blocks.size, S.BlockOk j
  phis : ∀ p ∈ S.func.phis, S.PhiOk p
  sites : ∀ p ∈ S.func.phis, p.label ≠ 0
  /-- No two phis define the same value. -/
  single : (S.func.phis.map (·.dst)).Nodup
  length : S.func.args.length = params.length
  /-- A function begins with its arguments. -/
  start : ∃ b e, S.func.blocks[0]? = some b ∧ S.plan.entryAt b.label 0 = some e ∧
    ∀ v id, e v = some id ↔ ∃ i : Nat, params[i]? = some v ∧ S.func.args[i]? = some id
  targets : ∀ {j : Nat} {b : Block} {l : LabelId}, S.func.blocks[j]? = some b →
    l ∈ b.term.targets → (blockOf? S.func.blocks l).isSome
  last : ∀ {j : Nat} {b : Block}, S.func.blocks[j]? = some b → b.term.fallsThrough = true →
    j + 1 < S.func.blocks.size
  /-- No instruction defines a constant or the value of a phi. -/
  dst : ∀ {j : Nat} {b : Block} {i : Instr}, S.func.blocks[j]? = some b → i ∈ b.instrs.toList →
    i.dst ≠ 0 → S.module.pool.get? i.dst = none ∧ ∀ p ∈ S.func.phis, p.dst ≠ i.dst
  arg : ∀ a ∈ S.func.args, ∀ p ∈ S.func.phis, p.dst ≠ a
  /-- A value of a variable is no constant. -/
  owned : ∀ {id v}, S.plan.owner id = some v → id ≠ 0 ∧ S.module.pool.get? id = none
  /-- A value of a variable is a value of the function. -/
  defined : ∀ {id v}, S.plan.owner id = some v → id ∈ S.func.definitions.map (·.2)
  placed : ∀ p ∈ S.func.phis, (blockOf? S.func.blocks p.label).isSome

namespace FuncRun

def startPlan (c : LowerContext) (s : LowerState) (f : Typed.Func) : Plan where
  owners := List.replicate s.types.size none ++ f.params.map some
  entries := List.replicate (s.labels.size + 1) fun _ => none
  starts := [(funcStart c s f).env f.params]

lemma owner_startPlan_lt (hid : id < s.types.size) : (startPlan c s f).owner id = none := by
  have hlt : id < (List.replicate s.types.size (none : Option VarId)).length := by simpa using hid
  rw [Plan.owner, startPlan, getElem?_append_left hlt, getElem?_replicate, if_pos hid]
  rfl

lemma owner_startPlan_add (k : Nat) :
    (startPlan c s f).owner (s.types.size + k) = f.params[k]? := by
  have hle : (List.replicate s.types.size (none : Option VarId)).length ≤ s.types.size + k := by simp
  rw [Plan.owner, startPlan, getElem?_append_right hle, length_replicate,
    Nat.add_sub_cancel_left, getElem?_map]
  cases f.params[k]? <;> rfl

lemma covers_startPlan : (startPlan c s f).Covers c (funcStart c s f) where
  owners := by simp [startPlan, funcStart, LowerState.addValues]
  entries := by simp [startPlan, funcStart, LowerState.addValues]
  starts := rfl
  typed id v hid := by
    by_cases hlt : id < s.types.size
    · rw [owner_startPlan_lt hlt] at hid
      cases hid
    · obtain ⟨k, rfl⟩ := Nat.exists_eq_add_of_le (Nat.not_lt.1 hlt)
      rw [owner_startPlan_add] at hid
      change (s.types ++ (f.params.map c.module.varType).toArray)[s.types.size + k]? = _
      rw [Array.getElem?_append_right (Nat.le_add_right _ _), Nat.add_sub_cancel_left,
        getElem?_toArray, getElem?_map, hid]
      rfl

variable (r : FuncRun c f s) (hnd : f.params.Nodup)

lemma same_result : r.result.types = r.afterBody.types ∧ r.result.labels = r.afterBody.labels ∧
    r.result.blocks = r.afterBody.blocks ∧ r.result.phis = r.afterBody.phis := by
  unfold result
  split
  · exact ⟨rfl, rfl, rfl, rfl⟩
  · exact ⟨rfl, rfl, rfl, rfl⟩

lemma grows_result : Grows r.afterBody r.result := by
  unfold result
  split
  case isTrue hlive => exact grows_close hlive _
  case isFalse => exact .refl _

lemma complete : Complete (funcStart c s f) r.afterBody r.result := by
  have hadds : Adds [] [] [] r.afterBody r.result := by
    unfold result
    split
    case isTrue hlive =>
      refine .close hlive fun l hl => ?_
      rw [targets_endOf] at hl
      cases hl
    case isFalse => exact .refl _ _
  exact hadds.complete nofun nofun

lemma blockOk_last (hS : Finishes c S r.result) (hres : S.func.result = f.result)
    (hcert : Certified S V r.afterBody) : S.BlockOk r.result.blocks.size := by
  obtain ⟨σ, hat, -, hended⟩ := hcert.here
  have hlast : S.At r.result σ ∧ S.EndOk r.result.blocks.size σ r.result.current.term := by
    unfold result
    split
    case isTrue =>
      refine ⟨hat, Setting.TermOk.endOk ?_ (targets_endOf f) (fallsThrough_endOf f)⟩
      unfold endOf
      split
      case isTrue hvoid => exact hres.trans hvoid
      case isFalse => trivial
    case isFalse hlive => exact ⟨hat, hended hlive⟩
  obtain ⟨⟨e, hentry, hown, hcode, rfl⟩, hend⟩ := hlast
  exact ⟨r.result.current, e, by rw [hS.blocks, getElem?_all_size], hentry, hown, hcode, hend⟩

lemma env_funcStart (hnd : f.params.Nodup) : (funcStart c s f).env f.params v = some id ↔
      ∃ i : Nat, f.params[i]? = some v ∧ (argsOf s f)[i]? = some id := by
  have harg {i : Nat} (hi : f.params[i]? = some v) : (argsOf s f)[i]? = some (s.types.size + i) := by
    have hlt : i < f.params.length := (List.getElem?_eq_some_iff.1 hi).1
    simp [argsOf, hlt]
  constructor
  · intro hid
    obtain ⟨hv, hid⟩ := env_eq_some.1 hid
    obtain ⟨i, hi⟩ := mem_iff_getElem?.1 hv
    rw [lookup_funcStart hnd hi] at hid
    exact ⟨i, hi, hid ▸ harg hi⟩
  · rintro ⟨i, hi, hid⟩
    rw [LowerState.env, if_pos (mem_of_getElem? hi), lookup_funcStart hnd hi, ← hid, harg hi]

section Plan

variable {r} (hbegins : (startPlan c s f).Begins S.plan)

include hbegins

lemma start_entry : S.plan.starts[0]? = some ((funcStart c s f).env f.params) := by
  obtain ⟨rest, hrest⟩ := hbegins.starts
  rw [← hrest]
  rfl

lemma le_of_owner {id : Nat} (hid : S.plan.owner id = some v) : s.types.size ≤ id := by
  by_contra hlt
  have hlt := Nat.not_le.1 hlt
  have hlen : id < (startPlan c s f).owners.length := by
    simp only [startPlan, length_append, length_replicate]
    omega
  rw [hbegins.owner_eq hlen, owner_startPlan_lt hlt] at hid
  cases hid

include hnd

lemma owned_funcStart : S.plan.Owned ((funcStart c s f).env f.params) := by
  intro v id hid
  obtain ⟨i, hi, hid⟩ := (env_funcStart hnd).1 hid
  have hlt : i < f.params.length := (List.getElem?_eq_some_iff.1 hi).1
  have hid : s.types.size + i = id := by simpa [argsOf, hlt] using hid
  rw [← hid, hbegins.owner_eq (by simpa [startPlan] using hlt), owner_startPlan_add, hi]

lemma certified_funcStart (hpos : 0 < s.types.size) : Certified S f.params (funcStart c s f) := by
  refine certified_begin rfl ?_ (start_entry hbegins) (owned_funcStart hnd hbegins) (agrees_env _ _)
  simp only [funcStart, LowerState.addValues, Array.size_append]
  omega

lemma certificate (hS : Finishes c S r.result) (hfunc : S.func = r.func) (hpos : 0 < s.types.size)
    (hpool : ∀ id : Nat, (S.module.pool.get? id).isSome → id < s.types.size)
    (howners : S.plan.owners.length = r.result.types.size)
    (hcert : Certified S f.params r.afterBody) (hmade : Made S (funcStart c s f) r.afterBody) :
    Certificate S f.params := by
  have hpool {id : Nat} (hid : s.types.size ≤ id) : S.module.pool.get? id = none := by
    by_contra hsome
    exact absurd (hpool id (Option.isSome_iff_ne_none.2 hsome)) (Nat.not_lt.2 hid)
  have hsame := r.same_result
  have hblocks : S.func.blocks = r.result.all := hS.blocks
  have hphis : S.func.phis = r.result.phis.toList := hS.phis
  have hargs : S.func.args = argsOf s f := by rw [hfunc]; rfl
  have hphi : ∀ p ∈ S.func.phis, S.PhiOk p := fun p hp => by
    rw [hphis, hsame.2.2.2] at hp
    exact (hmade.phis p hp).resolve_left nofun
  have hne : ∀ id ∈ S.func.phis.map (·.dst), id ≠ 0 := fun id hid => by
    -- the value of a phi belongs to a variable
    obtain ⟨p, hp, rfl⟩ := mem_map.1 hid
    obtain ⟨v, e, howner, -⟩ := hphi p hp
    exact Nat.ne_of_gt (Nat.lt_of_lt_of_le hpos (le_of_owner hbegins howner))
  have hmemphi (p : Phi) (hp : p ∈ S.func.phis) : p.dst ∈ (S.func.phis.map (·.dst)).filter (· ≠ 0) :=
    have hmem := mem_map_of_mem hp
    mem_filter.2 ⟨hmem, decide_eq_true (hne _ hmem)⟩
  have hnodup := r.nodup_definitions hnd hpos
  rw [← hfunc, definitions_eq, filter_append, filter_append, nodup_append, nodup_append] at hnodup
  obtain ⟨⟨-, hsingle, harg⟩, -, hdst⟩ := hnodup
  refine ⟨fun j hj => ?_, hphi, fun p hp => ?_, ?_, ?_, ?_, ?_, ?_, ?_, ?_, fun hid => ?_,
    fun {id v} hid => ?_, fun p hp => ?_⟩
  · rw [hblocks, LowerState.all, Array.size_push] at hj
    by_cases hlast : j = r.result.blocks.size
    · exact hlast ▸ r.blockOk_last hS (by rw [hfunc]; rfl) hcert
    · rw [hsame.2.2.1] at hj hlast
      exact hmade.done j (Nat.zero_le _) (by omega)
  · rw [hphis] at hp
    exact r.sites hnd hp
  · rw [← filter_eq_self.2 fun id hid => decide_eq_true (hne id hid)]
    exact hsingle
  · rw [hargs, length_argsOf]
  · obtain ⟨b, hb, hbegun⟩ := (r.adds hnd).grows.current
    rw [hblocks, hargs]
    refine ⟨b, (funcStart c s f).env f.params, hb, ?_, fun v id => env_funcStart hnd⟩
    rw [← hbegun.label]
    exact start_entry hbegins
  · rw [hblocks]
    exact r.isSome_blockOf? hnd
  · rw [hblocks]
    exact r.lt_of_fallsThrough hnd
  · intro j b i hb hi hi0
    have hmem : i.dst ∈ (S.func.blocks.toList.flatMap fun b => b.instrs.toList.map Instr.dst).filter
        (· ≠ 0) := by
      refine mem_filter.2 ⟨mem_flatMap.2 ⟨b, ?_, mem_map_of_mem hi⟩, decide_eq_true hi0⟩
      exact Array.mem_toList_iff.2 (Array.mem_of_getElem? hb)
    refine ⟨hpool ((r.mem_definitions hnd hpos).1 ?_).1, fun p hp =>
      hdst _ (mem_append_right _ (hmemphi p hp)) _ hmem⟩
    rw [← hfunc, definitions_eq, filter_append]
    exact mem_append_right _ hmem
  · intro a ha p hp heq
    have hpdst := hmemphi p hp
    refine harg a (mem_filter.2 ⟨ha, ?_⟩) _ hpdst heq.symm
    exact heq ▸ (mem_filter.1 hpdst).2
  · have hle := le_of_owner hbegins hid
    exact ⟨Nat.ne_of_gt (Nat.lt_of_lt_of_le hpos hle), hpool hle⟩
  · have hlt : id < S.plan.owners.length :=
      (List.getElem?_eq_some_iff.1 (Option.join_eq_some_iff.1 hid)).1
    rw [hfunc]
    exact (r.mem_definitions hnd hpos).2 ⟨le_of_owner hbegins hid, howners ▸ hlt⟩
  · rw [hphis] at hp
    rw [hblocks]
    exact r.isSome_blockOf?_of_taken hnd (r.taken_of_phi hnd hp)

end Plan

lemma exists_plan (hnd : f.params.Nodup) (hpos : 0 < s.types.size) {lo : Nat}
    (hscoped : Stmt.AllScoped (fun V e => Resolved.Visible c.table K V e.erase) false f.params lo
      f.body) (hparams : ∀ v : Nat, v ∈ f.params → v < lo)
    (hK : ∀ v : Nat, v ∈ K → v < lo ∧ v ∉ f.params) :
    ∃ q : Plan, q.Covers c r.result ∧ ∀ S : Setting, S.plan = q → S.func = r.func →
      Finishes c S r.result → Stmt.AllObey (codeRules c S) f.body →
      (∀ id : Nat, (S.module.pool.get? id).isSome → id < s.types.size) →
      Certificate S f.params := by
  have hplanned := stmtsPlanned f.body hscoped (s := funcStart c s f) rfl (framed_funcStart hnd)
    r.body_eq
  obtain ⟨q, hbegins, hcovers, hcert⟩ := hplanned _ covers_startPlan
  have hsame := r.same_result
  refine ⟨q, ⟨by rw [hsame.1]; exact hcovers.owners, by rw [hsame.2.1]; exact hcovers.entries,
    by rw [hsame.2.2.1]; exact hcovers.starts, by rw [hsame.1]; exact hcovers.typed⟩, ?_⟩
  rintro S rfl hfunc hS hobeys hpool
  have hset : StmtSetting S r.result K f.params (assignedAll f.body) lo (funcStart c s f)
      r.afterBody := by
    refine ⟨names_funcStart hnd hparams hK, r.complete, ?_⟩
    rw [InLoop, (r.region hnd).loops]
    exact nofun
  obtain ⟨hcert, hmade⟩ := hcert S r.result hS (.refl _) r.grows_result hobeys hset
    (certified_funcStart hnd hbegins hpos)
  exact certificate hnd hbegins hS hfunc hpos hpool (by rw [hsame.1]; exact hcovers.owners) hcert
    hmade

end FuncRun

end VecLang.Ssa
