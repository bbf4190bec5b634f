import VecLang.Proofs.Machine.Tracking

/-!
# What holds of every state of the machine

The machine and the textbook machine are run side by side on a program that follows plans. What is
kept of the values, and what outcomes there may be, depends on how much is known of the program
(`World`): if nothing is known of the types of arguments, all values may be met, and an operation
may find operands that do not fit.
-/

namespace VecLang.Machine

open Ssa Textbook Stateful

structure World where
  table : SymbolTable
  types : VarId → Ty
  fits : Typed.Fits
  module : Module
  /-- The values that may be met where a type is. -/
  Good : Ty → Value → Prop
  Fine : Status → Prop

namespace World

def Yields (W : World) (t : Ty) : Except Status Value → Prop
  | .ok v => W.Good t v
  | .error e => W.Fine e

structure Lawful (W : World) : Prop where
  compiled : Compiled W.table W.types W.fits W.module
  normal : ∀ {v : Value}, v.Normal → W.Good v.ty v
  binary : ∀ {op : BinaryOp} {tl tr t : Ty} {l r : Value}, op.result? tl tr = some t →
    W.Good tl l → W.Good tr r →
    W.Yields t (binaryValue op (if op.isScaling tl tr then t else tl) l r)
  unary : ∀ {op : UnaryOp} {t u : Ty} {x : Value}, op.result? t = some u → W.Good t x →
    W.Good u (unaryValue op x)
  pack : ∀ {t : Ty} {vs : List Value} {v : Value}, t ∈ Resolved.constructors →
    vs.length = t.lanes → Value.pack t vs = .ok v → W.Good t v
  swizzle : ∀ {t : Ty} {lanes : List Nat} {x v : Value}, Swizzle.result? lanes.length = some t →
    x.swizzle lanes = .ok v → W.Good t v
  /-- What fits a parameter is good for its type. -/
  param : ∀ {p : VarId} {t : Ty} {x : Value}, W.fits p t → W.Good t x → W.Good (W.types p) x
  running : W.Fine .running
  exited : ∀ n, W.Fine (.exited n)
  callDepth : ∀ n f, W.Fine (.trapped (.callDepth n f))
  stepLimit : ∀ n, W.Fine (.trapped (.stepLimit n))

def setting (W : World) (g : Func) (q : Plan) : Setting := ⟨W.module, W.table, W.fits, g, q⟩

structure Home (W : World) (g : Func) (q : Plan) (params : List VarId) : Prop where
  certificate : Certificate (W.setting g q) params
  typed : ∀ id v, q.owner id = some v → W.module.types[id]? = some (W.types v)

end World

structure Frame.Sound (m : Module) (Good : Ty → Value → Prop) (fr : Frame) : Prop where
  registers : ∀ {id x}, fr.registers.get? id = some x → ∃ t, m.types[id]? = some t ∧ Good t x
  cells : ∀ {id i}, fr.routine.chains.indexOf? id = some i → fr.Written i →
    ∃ x t, fr.cells[i]? = some x ∧ m.types[id]? = some t ∧ Good t x

/-- A call of the machine and one of the textbook machine go on side by side, with good values. -/
structure Follows (W : World) (g : Func) (q : Plan) (fr : Frame) (c : Call) (σ : Point) : Prop where
  tracks : Tracks (W.setting g q) fr c σ
  sound : fr.Sound W.module W.Good

variable {W : World} {g : Func} {q : Plan} {params : List VarId} {fr : Frame} {c : Call} {σ : Point}

namespace Follows

section

variable (h : Follows W g q fr c σ)
include h

lemma exists_read (hW : W.Lawful) (hhome : W.Home g q params)
    {a : Atom} {t : Ty} (ha : (W.setting g q).AtomOk σ a t) :
    ∃ x, fr.read W.module a = .ok x ∧ c.read W.module a = .ok x ∧ W.Good t x := by
  cases a with
  | none => exact ha.elim
  | lit v =>
    obtain ⟨rfl, hv⟩ := ha
    exact ⟨v, rfl, rfl, hW.normal hv⟩
  | ref id ty =>
    obtain ⟨rfl, -, hty, hknows⟩ := ha
    obtain ⟨x, hx, hx', hsource⟩ := h.tracks.exists_value hhome.certificate hknows
    refine ⟨x, hx, hx', ?_⟩
    -- wherever the value comes from, it is good for the type of its number
    rcases hsource with hpool | hreg | ⟨i, hi, hwritten, hcell⟩
    · obtain ⟨hnormal, hty'⟩ := hW.compiled.pool hpool
      cases hty'.symm.trans hty
      exact hW.normal hnormal
    · obtain ⟨t, hty', hgood⟩ := h.sound.registers hreg
      cases hty'.symm.trans hty
      exact hgood
    · obtain ⟨y, t, hcell', hty', hgood⟩ := h.sound.cells hi hwritten
      cases hty'.symm.trans hty
      cases hcell'.symm.trans hcell
      exact hgood

lemma exists_readAll (hW : W.Lawful) (hhome : W.Home g q params)
    {as : List Atom} (has : ∀ a ∈ as, ∃ t, (W.setting g q).AtomOk σ a t) :
    ∃ vs, fr.readAll W.module as = .ok vs ∧ c.readAll W.module as = .ok vs ∧
      List.Forall₂ (fun a v => ∀ t, (W.setting g q).AtomOk σ a t → W.Good t v) as vs := by
  refine exists_mapM_eq_ok fun a ha => ?_
  obtain ⟨t, ht⟩ := has a ha
  obtain ⟨x, hx, hx', -⟩ := h.exists_read hW hhome ht
  refine ⟨x, hx, hx', fun t ht => ?_⟩
  obtain ⟨y, hy, -, hgood⟩ := h.exists_read hW hhome ht
  cases hx.symm.trans hy
  exact hgood

lemma define (hhome : W.Home g q params) {i : Instr} (hdst : i.dst ≠ 0)
    (hpool : W.module.pool.get? i.dst = none) (hphis : ∀ p ∈ g.phis, p.dst ≠ i.dst) {t : Ty}
    (ht : W.module.types[i.dst]? = some t) {x : Value} (hx : W.Good t x) :
    Follows W g q (fr.define i.dst x) (c.define i.dst x) (σ.after q i) := by
  have hphi := h.tracks.isPhi_eq_false hphis
  refine ⟨h.tracks.define hhome.certificate hdst hpool hphis x, fun {id y} hid => ?_,
    fun {id j} hj hwritten => ?_⟩
  · rw [Frame.registers_define, Assoc.get?_set] at hid
    split at hid
    · next heq =>
      cases hid
      exact ⟨t, heq ▸ ht, hx⟩
    · exact h.sound.registers hid
  · rw [Frame.routine_define] at hj
    rw [fr.written_define hphi] at hwritten
    rw [fr.cells_define hphi]
    by_cases hdj : fr.routine.chains.indexOf? i.dst = some j
    · -- the two values belong to one variable and so have one type
      have hlt : j < fr.cells.size := h.tracks.size ▸ Chains.lt_of_indexOf? hj
      obtain ⟨v, hv, hv'⟩ := h.tracks.owner_eq hhome.certificate hj hdj
      refine ⟨x, t, if_pos ⟨hdj, hlt⟩, ?_, hx⟩
      rw [hhome.typed id v hv, ← hhome.typed i.dst v hv', ht]
    · rw [if_neg fun hc => hdj hc.1]
      exact h.sound.cells hj (hwritten.resolve_left hdj)

lemma bindArgs (hhome : W.Home g q params) {as : List ValueId}
    {ps : List VarId} (has : List.Forall₂ (fun a p => a ∈ g.args ∧ q.owner a = some p) as ps)
    {vs : List Value} (hvs : List.Forall₂ (fun p x => W.Good (W.types p) x) ps vs) :
    ∃ fr' c', fr.bindArgs as vs = .ok fr' ∧ c.bindArgs as vs = .ok c' ∧
      Follows W g q fr' c' (Tracks.withArgs q σ as) := by
  induction has generalizing fr c σ vs with
  | nil => exact ⟨fr, c, rfl, rfl, h⟩
  | @cons a p as ps ha _ ih =>
    cases hvs with
    | @cons _ x _ vs hx hvs =>
      obtain ⟨harg, hown⟩ := ha
      obtain ⟨hne, hpool⟩ := hhome.certificate.owned hown
      exact ih (h.define hhome (i := .assign a .none) hne hpool (hhome.certificate.arg a harg)
        (hhome.typed a p hown) hx) hvs

end

lemma enter (hhome : W.Home g q params) {vs : List Value}
    (hvs : List.Forall₂ (fun p x => W.Good (W.types p) x) params vs) (resultTo : ValueId) :
    ∃ b e fr c, g.blocks[0]? = some b ∧ q.entryAt b.label 0 = some e ∧
      (Frame.enter (.ofFunc g) resultTo).bindArgs g.args vs = .ok fr ∧
      Call.bindArgs { func := g, resultTo } g.args vs = .ok c ∧ Follows W g q fr c ⟨e, []⟩ := by
  obtain ⟨b, e, hb, he, howned, hargs, honly⟩ := Tracks.start_args hhome.certificate
  have hinit : Follows W g q (Frame.enter (.ofFunc g) resultTo) { func := g, resultTo }
      ⟨fun _ => none, []⟩ :=
    ⟨⟨rfl, rfl, rfl, rfl, rfl, Array.size_replicate, nofun, nofun, nofun⟩, nofun,
      fun _ ⟨_, _, _, hreg⟩ => absurd hreg nofun⟩
  have hmem : List.Forall₂ (fun a p => a ∈ g.args ∧ q.owner a = some p) g.args params :=
    hargs.imp fun a p hp => ⟨honly p a hp, howned p a hp⟩
  obtain ⟨fr, c, hfr, hc, hfollows⟩ := hinit.bindArgs hhome hmem hvs
  refine ⟨b, e, fr, c, hb, he, hfr, hc, hfollows.tracks.within (fun v id hid => ?_) nofun,
    hfollows.sound⟩
  have hown := howned v id hid
  refine Tracks.env_withArgs _ (hhome.certificate.owned hown).1 hown (fun a ha hv => ?_)
    (.inl (honly v id hid))
  obtain ⟨w, -, hw⟩ := exists_of_mem_left hargs ha
  cases (howned w a hw).symm.trans hv
  exact Option.some.inj (hw.symm.trans hid)

lemma moved (h : Follows W g q fr c σ) (next : Nat) :
    Follows W g q { fr with next } { c with next } σ :=
  ⟨h.tracks.moved next, h.sound.registers, h.sound.cells⟩

lemma arrive (h : Follows W g q fr c σ) (hhome : W.Home g q params) {w : Way} {j : Nat}
    (hj : j < g.blocks.size) (hw : w ∈ arrivals g.blocks j)
    (harrives : (W.setting g q).Arrives w j σ.env) :
    ∃ b e c', g.blocks[j]? = some b ∧ q.entryAt b.label j = some e ∧
      c.arrive W.module w j = .ok c' ∧ Follows W g q { fr with block := j, next := 0 } c' ⟨e, []⟩ := by
  obtain ⟨b, e, c', hb, he, hc', htracks⟩ := h.tracks.arrive hhome.certificate hj hw harrives
  exact ⟨b, e, c', hb, he, hc', htracks, h.sound.registers, h.sound.cells⟩

end Follows

/-! ## Places in the code -/

def StandsAt (W : World) (g : Func) (q : Plan) (k : Nat) (fr : Frame) (c : Call) : Prop :=
  ∃ b e, g.blocks[fr.block]? = some b ∧ q.entryAt b.label fr.block = some e ∧ k ≤ b.instrs.size ∧
    Follows W g q fr c (Point.afterAll q ⟨e, []⟩ (b.instrs.toList.take k))

def Waits (W : World) (g : Func) (q : Plan) (result : Ty) (resultTo : ValueId) (fr : Frame)
    (c : Call) : Prop :=
  ∃ k b callee name args, fr.next = k + 1 ∧ g.blocks[fr.block]? = some b ∧
    b.instrs[k]? = some (.call resultTo callee name args) ∧
    (resultTo ≠ 0 → result ≠ .invalid ∧ W.module.types[resultTo]? = some result) ∧
    StandsAt W g q k fr c

def Rest (W : World) (result : Ty) (resultTo : ValueId) : List Frame → List Call → Prop
  | [], [] => True
  | fr :: frs, c :: cs => ∃ g q params, W.Home g q params ∧ Waits W g q result resultTo fr c ∧
      Rest W g.result fr.resultTo frs cs
  | _, _ => False

/-- The calls under way in the two machines. -/
def Stacks (W : World) : List Frame → List Call → Prop
  | [], [] => True
  | fr :: frs, c :: cs => ∃ g q params, W.Home g q params ∧ StandsAt W g q fr.next fr c ∧
      Rest W g.result fr.resultTo frs cs
  | _, _ => False

structure Alike (W : World) (s : State) (t : Textbook.State) : Prop where
  calls : Stacks W s.stack t.stack
  steps : t.steps = s.steps
  log : t.log = s.log
  status : t.status = s.status
  fine : W.Fine s.status

end VecLang.Machine
