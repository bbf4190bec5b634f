import VecLang.Proofs.Machine.Textbook
import VecLang.Proofs.Ssa.Chains
import VecLang.Proofs.Ssa.Programs

/-!
# Calls that follow a plan

A call of the machine keeps pace with a call of the textbook machine (`Tracks`): what is at hand
where control stands has the value of its textbook register, be it in a register or in a cell. The
cell of a chain is shared by values of one variable, so it is the value of that variable that it
holds; a value of another variable is never taken for it.
-/

namespace VecLang.Machine

open Ssa Textbook Stateful List Option Assoc Machine.Frame

variable {S : Setting} {σ : Point} {fr : Frame} {c : Call} {params : List VarId}

/-- The cell of a chain was written in this call: a value of the chain, other than that of a phi, has
been defined. -/
def Frame.Written (fr : Frame) (i : Nat) : Prop :=
  ∃ id, fr.routine.isPhi id = false ∧ fr.routine.chains.indexOf? id = some i ∧
    (fr.registers.get? id).isSome

/-- A value is held for a variable: in its register unless it is that of a phi, and in the cell of its
chain if it is on one, as it must be if it is that of a phi. -/
structure Frame.Holds (fr : Frame) (id : ValueId) (x : Value) : Prop where
  register : fr.routine.isPhi id = false → fr.registers.get? id = some x
  phi : fr.routine.isPhi id = true → (fr.routine.chains.indexOf? id).isSome
  cell : ∀ i, fr.routine.chains.indexOf? id = some i → fr.cells[i]? = some x ∧ fr.Written i

def Frame.Source (m : Module) (fr : Frame) (id : ValueId) (x : Value) : Prop :=
  m.pool.get? id = some x ∨ fr.registers.get? id = some x ∨
    ∃ i, fr.routine.chains.indexOf? id = some i ∧ fr.Written i ∧ fr.cells[i]? = some x

/-- A call of the machine and one of the textbook machine stand at the same place, and what is at
hand there is the same. -/
structure Tracks (S : Setting) (fr : Frame) (c : Call) (σ : Point) : Prop where
  routine : fr.routine = .ofFunc S.func
  func : c.func = S.func
  block : c.block = fr.block
  next : c.next = fr.next
  resultTo : c.resultTo = fr.resultTo
  size : fr.cells.size = fr.routine.chains.length
  owned : S.plan.Owned σ.env
  temps : ∀ id ∈ σ.temps, S.module.pool.get? id = none ∧ fr.routine.isPhi id = false ∧
    ∃ x, c.registers.get? id = some x ∧ fr.registers.get? id = some x
  vars : ∀ v id, σ.env v = some id → ∃ x, c.registers.get? id = some x ∧ fr.Holds id x

variable {id : ValueId}

namespace Frame

lemma Holds.moved {x : Value} (h : fr.Holds id x) (block next : Nat) :
    { fr with block, next }.Holds id x := ⟨h.register, h.phi, h.cell⟩

lemma define_eq (fr : Frame) (id : ValueId) (x : Value) : fr.define id x =
    { fr with registers := fr.registers.set id x, cells := (fr.define id x).cells } := by
  unfold define
  dsimp only
  split
  · rfl
  · split <;> rfl

@[simp] lemma routine_define (fr : Frame) (id : ValueId) (x : Value) :
    (fr.define id x).routine = fr.routine := by
  rw [define_eq]

@[simp] lemma registers_define (fr : Frame) (id : ValueId) (x : Value) :
    (fr.define id x).registers = fr.registers.set id x := by
  rw [define_eq]

lemma place_define (fr : Frame) (id : ValueId) (x : Value) :
    (fr.define id x).block = fr.block ∧ (fr.define id x).next = fr.next ∧
      (fr.define id x).resultTo = fr.resultTo := by
  rw [define_eq]
  exact ⟨rfl, rfl, rfl⟩

lemma place_bindArgs {fr' : Frame} {as : List ValueId} {vs : List Value}
    (h : fr.bindArgs as vs = .ok fr') :
    fr'.block = fr.block ∧ fr'.next = fr.next ∧ fr'.resultTo = fr.resultTo := by
  fun_induction bindArgs fr as vs with
  | case1 => cases h; exact ⟨rfl, rfl, rfl⟩
  | case2 => cases h
  | case3 fr a as v vs ih =>
    obtain ⟨hblock, hnext, hto⟩ := fr.place_define a v
    rw [← hblock, ← hnext, ← hto]
    exact ih h

lemma size_cells_define (fr : Frame) (id : ValueId) (x : Value) :
    (fr.define id x).cells.size = fr.cells.size := by
  unfold define
  dsimp only
  split
  · rfl
  · split
    · exact Array.size_setIfInBounds
    · rfl

lemma cells_define (fr : Frame) (hphi : fr.routine.isPhi id = false) (x : Value)
    (i : Nat) : (fr.define id x).cells[i]? =
      if fr.routine.chains.indexOf? id = some i ∧ i < fr.cells.size then some x
      else fr.cells[i]? := by
  unfold define
  simp only [hphi, Bool.false_eq_true, if_false]
  split
  case h_1 j hj =>
    rw [Array.getElem?_setIfInBounds, hj]
    by_cases hij : j = i
    · subst hij
      by_cases hlt : j < fr.cells.size
      · simp [hlt]
      · simp [hlt]
    · simp [hij]
  case h_2 hnone => simp [hnone]

lemma written_define (fr : Frame) (hphi : fr.routine.isPhi id = false) (x : Value)
    (i : Nat) : (fr.define id x).Written i ↔
      fr.routine.chains.indexOf? id = some i ∨ fr.Written i := by
  simp only [Written, routine_define, registers_define, get?_set]
  constructor
  · rintro ⟨a, ha, hi, hreg⟩
    by_cases heq : id = a
    · exact .inl (heq ▸ hi)
    · rw [if_neg heq] at hreg
      exact .inr ⟨a, ha, hi, hreg⟩
  · rintro (hi | ⟨a, ha, hi, hreg⟩)
    · exact ⟨id, hphi, hi, by rw [if_pos rfl]; rfl⟩
    · refine ⟨a, ha, hi, ?_⟩
      split
      · rfl
      · exact hreg

end Frame

namespace Tracks

/-! ## Chains of variables -/

lemma isPhi_iff (h : Tracks S fr c σ) :
    fr.routine.isPhi id = true ↔ ∃ p ∈ S.func.phis, p.dst = id := by
  rw [h.routine]
  simp [Routine.isPhi, Routine.ofFunc]

lemma uniform (hcert : Certificate S params) : (Chains.ofPhis S.func.phis).Uniform S.plan.owner := by
  refine Chains.uniform_ofPhis fun p hp b hb => ?_
  obtain ⟨v, e, hdst, -, -, hbranches, -⟩ := hcert.phis p hp
  rw [hdst, hbranches b hb]

lemma members (hcert : Certificate S params) :
    (Chains.ofPhis S.func.phis).Members fun id => (S.plan.owner id).isSome := by
  refine Chains.members_ofPhis fun p hp => ?_
  obtain ⟨v, e, hdst, -, -, hbranches, -⟩ := hcert.phis p hp
  exact ⟨by rw [hdst]; rfl, fun b hb => by rw [hbranches b hb]; rfl⟩

/-! ## Reading -/

section

variable (h : Tracks S fr c σ)
include h

lemma exists_value (hcert : Certificate S params)
    (hid : S.Knows σ id) : ∃ x, fr.value S.module id = .ok x ∧ c.value S.module id = .ok x ∧
      fr.Source S.module id x := by
  unfold value Call.value
  rcases hid with hpool | htemp | ⟨v, hv⟩
  · obtain ⟨x, hx⟩ := isSome_iff_exists.1 hpool
    rw [hx]
    exact ⟨x, rfl, rfl, .inl hx⟩
  · obtain ⟨hpool, hphi, x, hx, hx'⟩ := h.temps id htemp
    rw [hpool, hphi, hx, hx']
    exact ⟨x, rfl, rfl, .inr (.inl hx')⟩
  · obtain ⟨x, hx, hholds⟩ := h.vars v id hv
    rw [(hcert.owned (h.owned v id hv)).2, hx]
    cases hphi : fr.routine.isPhi id with
    | false =>
      rw [hholds.register hphi]
      exact ⟨x, rfl, rfl, .inr (.inl (hholds.register hphi))⟩
    | true =>
      obtain ⟨i, hi⟩ := isSome_iff_exists.1 (hholds.phi hphi)
      obtain ⟨hcell, hwritten⟩ := hholds.cell i hi
      rw [hi, getD_some, hcell]
      exact ⟨x, rfl, rfl, .inr (.inr ⟨i, hi, hwritten, hcell⟩)⟩

lemma written_of_knows (hcert : Certificate S params)
    (hid : S.Knows σ id) (hphi : fr.routine.isPhi id = true) :
    ∃ i, fr.routine.chains.indexOf? id = some i ∧ fr.Written i := by
  obtain ⟨p, hp, rfl⟩ := h.isPhi_iff.1 hphi
  obtain ⟨v, -, hown, -⟩ := hcert.phis p hp
  rcases hid with hpool | htemp | ⟨w, hw⟩
  · rw [(hcert.owned hown).2] at hpool
    cases hpool
  · obtain ⟨-, hno, -⟩ := h.temps _ htemp
    rw [hphi] at hno
    cases hno
  · obtain ⟨x, -, hholds⟩ := h.vars w _ hw
    obtain ⟨i, hi⟩ := isSome_iff_exists.1 (hholds.phi hphi)
    exact ⟨i, hi, (hholds.cell i hi).2⟩

/-! ## Defining -/

lemma within {σ' : Point} (henv : σ'.env.Within σ.env)
    (htemps : σ'.temps ⊆ σ.temps) : Tracks S fr c σ' where
  routine := h.routine
  func := h.func
  block := h.block
  next := h.next
  resultTo := h.resultTo
  size := h.size
  owned v id hid := h.owned v id (henv v id hid)
  temps id hid := h.temps id (htemps hid)
  vars v id hid := h.vars v id (henv v id hid)

lemma moved (next : Nat) :
    Tracks S { fr with next } { c with next } σ where
  routine := h.routine
  func := h.func
  block := h.block
  next := rfl
  resultTo := h.resultTo
  size := h.size
  owned := h.owned
  temps := h.temps
  vars v id hid := (h.vars v id hid).imp fun _ hx => ⟨hx.1, hx.2.moved _ _⟩

lemma owner_eq (hcert : Certificate S params) {a b : ValueId} {i : Nat}
    (ha : fr.routine.chains.indexOf? a = some i) (hb : fr.routine.chains.indexOf? b = some i) :
    ∃ v, S.plan.owner a = some v ∧ S.plan.owner b = some v := by
  rw [h.routine] at ha hb
  obtain ⟨v, hv⟩ := isSome_iff_exists.1 ((members hcert).of_indexOf? ha)
  exact ⟨v, hv, ((uniform hcert).eq ha hb) ▸ hv⟩

lemma isPhi_eq_false (hid : ∀ p ∈ S.func.phis, p.dst ≠ id) : fr.routine.isPhi id = false := by
  refine Bool.eq_false_iff.2 fun hphi => ?_
  obtain ⟨p, hp, hdst⟩ := h.isPhi_iff.1 hphi
  exact hid p hp hdst

lemma define (hcert : Certificate S params) {i : Instr} (hdst : i.dst ≠ 0)
    (hpool : S.module.pool.get? i.dst = none) (hphis : ∀ p ∈ S.func.phis, p.dst ≠ i.dst) (x : Value) :
    Tracks S (fr.define i.dst x) (c.define i.dst x) (σ.after S.plan i) := by
  have hphi := h.isPhi_eq_false hphis
  obtain ⟨hblock, hnext, hto⟩ := fr.place_define i.dst x
  have hreg (id : ValueId) : (c.define i.dst x).registers.get? id =
      if i.dst = id then some x else c.registers.get? id := get?_set _ _ _ _
  have hreg' (id : ValueId) : (fr.define i.dst x).registers.get? id =
      if i.dst = id then some x else fr.registers.get? id := by
    rw [registers_define, get?_set]
  -- a value that was at hand before is not on the chain of the new one, unless it is replaced
  have hold (v : VarId) (id : ValueId) (hid : σ.env v = some id) (hne : i.dst ≠ id)
      (hv : S.plan.owner i.dst ≠ some v) : ∃ y, (c.define i.dst x).registers.get? id = some y ∧
        (fr.define i.dst x).Holds id y := by
    obtain ⟨y, hy, hholds⟩ := h.vars v id hid
    refine ⟨y, by rw [hreg, if_neg hne, hy], fun hp => ?_, fun hp => ?_, fun j hj => ?_⟩
    · rw [routine_define] at hp
      rw [hreg', if_neg hne, hholds.register hp]
    · rw [routine_define] at hp ⊢
      exact hholds.phi hp
    · rw [routine_define] at hj
      obtain ⟨hcell, hwritten⟩ := hholds.cell j hj
      rw [fr.cells_define hphi, if_neg fun hdj => ?_, fr.written_define hphi]
      · exact ⟨hcell, .inr hwritten⟩
      · obtain ⟨w, hw, hw'⟩ := h.owner_eq hcert hj hdj.1
        rw [h.owned v id hid] at hw
        cases hw
        exact hv hw'
  have hnew : (fr.define i.dst x).Holds i.dst x := by
    refine ⟨fun _ => by rw [hreg', if_pos rfl], fun hp => ?_, fun j hj => ?_⟩
    · rw [routine_define, hphi] at hp
      cases hp
    · rw [routine_define] at hj
      have hlt : j < fr.cells.size := h.size ▸ Chains.lt_of_indexOf? hj
      rw [fr.cells_define hphi, if_pos ⟨hj, hlt⟩, fr.written_define hphi]
      exact ⟨rfl, .inl hj⟩
  refine ⟨by rw [routine_define, h.routine], h.func, h.block.trans hblock.symm,
    h.next.trans hnext.symm, h.resultTo.trans hto.symm,
    by rw [size_cells_define, routine_define, h.size], h.owned.after i,
    fun id hid => ?_, fun w id hid => ?_⟩
  · rw [routine_define, hreg, hreg']
    by_cases heq : i.dst = id
    · subst heq
      exact ⟨hpool, hphi, x, if_pos rfl, if_pos rfl⟩
    · rw [if_neg heq, if_neg heq]
      exact h.temps id ((Setting.mem_temps_after hid).resolve_left fun he => heq he.symm)
  · rcases Setting.env_after hdst hid with rfl | ⟨hid, hw⟩
    · exact ⟨x, by rw [hreg, if_pos rfl], hnew⟩
    · exact hold w id hid (fun he => hw (he ▸ h.owned w id hid)) hw

/-! ## Arriving -/

lemma exists_take (hcert : Certificate S params) {l k : Nat} {e : Env}
    (he : S.plan.entries[l]? = some e) (hflow : S.Flow l k σ.env e) {p : Phi}
    (hp : p ∈ S.func.phis) (hpl : p.label = l) :
    ∃ v b x, σ.env v = some b ∧ p.branches[k]? = some b ∧ c.registers.get? b = some x ∧
      c.take S.module k p = .ok (p.dst, x) := by
  obtain ⟨v, e', -, hentry, hdst, -, -⟩ := hcert.phis p hp
  rw [hpl, he] at hentry
  cases hentry
  rcases hflow v p.dst hdst with ⟨p', hp', -, hdst', b, hb, hbranch⟩ | ⟨-, hno⟩
  · cases inj_on_of_nodup_map hcert.single hp' hp hdst'
    obtain ⟨x, hx, -⟩ := h.vars v b hb
    refine ⟨v, b, x, hb, hbranch, hx, ?_⟩
    rw [Call.take, hbranch]
    dsimp only
    rw [Call.value, (hcert.owned (h.owned v b hb)).2, hx]
    rfl
  · exact absurd rfl (hno p hp hpl)

lemma exists_taken (hcert : Certificate S params) {l k : Nat} {e : Env}
    (he : ∀ p ∈ S.func.phis, p.label = l → S.plan.entries[l]? = some e)
    (hflow : S.Flow l k σ.env e) : ∃ taken : Assoc ValueId Value,
      (S.func.phis.filter fun p => p.label = l).mapM (c.take S.module k) = .ok taken ∧
      taken.keys = (S.func.phis.filter fun p => p.label = l).map (·.dst) ∧
      ∀ p ∈ S.func.phis, p.label = l → ∃ v b x, σ.env v = some b ∧ p.branches[k]? = some b ∧
        c.registers.get? b = some x ∧ taken.get? p.dst = some x := by
  obtain ⟨taken, htaken, -, hall⟩ := exists_mapM_eq_ok (f := c.take S.module k)
    (g := c.take S.module k) (R := fun p y => y.1 = p.dst ∧ ∃ v b, σ.env v = some b ∧
      p.branches[k]? = some b ∧ c.registers.get? b = some y.2)
    fun p (hp : p ∈ S.func.phis.filter fun p => p.label = l) => by
      obtain ⟨hp, hpl⟩ : p ∈ S.func.phis ∧ p.label = l := by simpa using hp
      obtain ⟨v, b, x, hv, hb, hx, htake⟩ := h.exists_take hcert (he p hp hpl) hflow hp hpl
      exact ⟨_, htake, htake, rfl, v, b, hv, hb, hx⟩
  have hkeys : Assoc.keys taken = (S.func.phis.filter fun p => p.label = l).map (·.dst) := by
    have heq := (forall₂_map_left_iff (R := Eq) (f := Phi.dst)).2
      (forall₂_map_right_iff (f := Prod.fst) |>.2 (hall.imp fun _ _ hy => hy.1.symm))
    exact (forall₂_eq_eq_eq ▸ heq).symm
  have hnd : (Assoc.keys taken).Nodup := by
    rw [hkeys]
    exact hcert.single.sublist (filter_sublist.map _)
  refine ⟨taken, htaken, hkeys, fun p hp hpl => ?_⟩
  obtain ⟨⟨dst, x⟩, hy, rfl, v, b, hv, hb, hx⟩ :=
    exists_of_mem_left hall (by simpa using ⟨hp, hpl⟩ : p ∈ S.func.phis.filter _)
  exact ⟨v, b, x, hv, hb, hx, get?_eq_some_of_mem hnd hy⟩

lemma holds_phi {p : Phi} (hp : p ∈ S.func.phis) {b : ValueId} {x : Value}
    (hb : b ∈ p.branches) (hholds : fr.Holds b x) : fr.Holds p.dst x := by
  have hphi : fr.routine.isPhi p.dst = true := h.isPhi_iff.2 ⟨p, hp, rfl⟩
  have hchains : fr.routine.chains = .ofPhis S.func.phis := by rw [h.routine]; rfl
  obtain ⟨i, hi, hi'⟩ := (Chains.linked_ofPhis hp hb).exists_indexOf? (Chains.separate_ofPhis _)
  rw [← hchains] at hi hi'
  refine ⟨fun hno => ?_, fun _ => by rw [hi']; rfl, fun j hj => ?_⟩
  · rw [hphi] at hno
    cases hno
  · cases hi'.symm.trans hj
    exact hholds.cell i hi

/-- Where control arrives along a way, the variables have the values that the plan says. The machine
moves nothing: the cells of the phis have the values of their branches already. -/
lemma arrive (hcert : Certificate S params) {w : Way} {j : Nat}
    (hj : j < S.func.blocks.size) (hw : w ∈ arrivals S.func.blocks j)
    (harrives : S.Arrives w j σ.env) :
    ∃ b e c', S.func.blocks[j]? = some b ∧ S.plan.entryAt b.label j = some e ∧
      c.arrive S.module w j = .ok c' ∧ Tracks S { fr with block := j, next := 0 } c' ⟨e, []⟩ := by
  obtain ⟨b, e, hb, he, howned, -, -⟩ := hcert.blocks j hj
  obtain ⟨e', he', hflow⟩ := harrives b _ hb (getElem?_idxOf hw)
  cases he.symm.trans he'
  have hlabel (p : Phi) (hp : p ∈ S.func.phis) (hpl : p.label = b.label) :
      S.plan.entries[b.label]? = some e := by
    rwa [Plan.entryAt, if_neg (hpl ▸ hcert.sites p hp)] at he
  obtain ⟨taken, htaken, hkeys, hphis⟩ := h.exists_taken hcert hlabel hflow
  have hnd : taken.keys.Nodup := by
    rw [hkeys]
    exact hcert.single.sublist (filter_sublist.map _)
  let rs := taken.foldl (fun rs x => rs.set x.1 x.2) c.registers
  refine ⟨b, e, { c with block := j, next := 0, registers := rs }, hb, he, ?_, ?_⟩
  · rw [Call.arrive, h.func, hb]
    dsimp only
    rw [htaken]
    rfl
  refine ⟨h.routine, h.func, rfl, rfl, h.resultTo, h.size, howned, by rintro _ ⟨⟩, fun v id hid => ?_⟩
  dsimp only [rs]
  rw [get?_foldl_set taken hnd]
  rcases hflow v id hid with ⟨p, hp, hpl, rfl, b', hb', hbranch⟩ | ⟨hold, hno⟩
  · -- the phi takes the value of the branch
    obtain ⟨w, b'', x, hw, hbranch', hx, hget⟩ := hphis p hp hpl
    cases hbranch.symm.trans hbranch'
    obtain ⟨x', hx', hholds⟩ := h.vars v b' hb'
    cases hx.symm.trans hx'
    rw [hget]
    exact ⟨x, rfl, (h.holds_phi hp (mem_of_getElem? hbranch) hholds).moved _ _⟩
  · have hnone : taken.get? id = none := by
      refine get?_eq_none_iff.2 fun hkey => ?_
      rw [hkeys, List.mem_map] at hkey
      obtain ⟨p, hp, hdst⟩ := hkey
      obtain ⟨hp, hpl⟩ : p ∈ S.func.phis ∧ p.label = b.label := by simpa using hp
      exact hno p hp hpl hdst
    obtain ⟨x, hx, hholds⟩ := h.vars v id hold
    rw [hnone]
    exact ⟨x, hx, hholds.moved _ _⟩

end

/-! ## Entering -/

def withArgs (q : Plan) (σ : Point) (as : List ValueId) : Point :=
  σ.afterAll q (as.map fun a => .assign a .none)

lemma env_withArgs {q : Plan} {v : VarId} {as : List ValueId} (σ : Point)
    (hne : id ≠ 0) (hid : q.owner id = some v) (hall : ∀ a ∈ as, q.owner a = some v → a = id)
    (h : id ∈ as ∨ σ.env v = some id) : (withArgs q σ as).env v = some id := by
  induction as generalizing σ with
  | nil => exact h.resolve_left nofun
  | cons a as ih =>
    refine ih (σ.after q (.assign a .none)) (fun a' ha' => hall a' (mem_cons_of_mem _ ha')) ?_
    by_cases ha : a = id
    · subst ha
      rw [Setting.after_of_owner_eq_some (i := .assign a .none) hne hid]
      exact .inr (if_pos rfl)
    · rw [Setting.env_after_of_owner_ne (i := .assign a .none)
        fun hv => ha (hall a mem_cons_self hv)]
      exact h.imp_left fun hmem => (mem_cons.1 hmem).resolve_left (Ne.symm ha)

lemma start_args (hcert : Certificate S params) : ∃ b e, S.func.blocks[0]? = some b ∧
    S.plan.entryAt b.label 0 = some e ∧ S.plan.Owned e ∧
    List.Forall₂ (fun a p => e p = some a) S.func.args params ∧
    ∀ v id, e v = some id → id ∈ S.func.args := by
  obtain ⟨b, e, hb, he, hstart⟩ := hcert.start
  obtain ⟨b', e', hb', he', howned, -, -⟩ := hcert.blocks 0 (Array.getElem?_eq_some_iff.1 hb).1
  cases hb.symm.trans hb'
  cases he.symm.trans he'
  refine ⟨b, e, hb, he, howned, forall₂_iff_get.2 ⟨hcert.length, fun i hi hi' => ?_⟩,
    fun v id hid => ?_⟩
  · exact (hstart _ _).2 ⟨i, getElem?_eq_getElem hi', getElem?_eq_getElem hi⟩
  · obtain ⟨i, -, hi⟩ := (hstart v id).1 hid
    exact mem_of_getElem? hi

end Tracks

end VecLang.Machine
