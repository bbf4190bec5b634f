import VecLang.Proofs.Machine.Limits
import VecLang.Proofs.Machine.Safety

/-!
# Conditions as values and as jumps

A condition can be lowered to code that works out its value, or to jumps. Both follow the value
that the expression has over the values of its variables: code that works it out puts it into a
register, and stops the program if there is none (`runs_lowerExpr`); jumps lead to one label or the
other (`leads_of_condRun`). So the two agree (`jumps_follow_value`).
-/

namespace VecLang.Typed

mutual

def Expr.callFree : Expr → Bool
  | .lit _ _ _ | .var _ _ _ => true
  | .unary _ _ _ x | .swizzle _ _ _ x => x.callFree
  | .binary _ _ _ _ _ x y => x.callFree && y.callFree
  | .call _ _ _ _ => false
  | .pack _ _ es => allCallFree es

def allCallFree : List Expr → Bool
  | [] => true
  | e :: es => e.callFree && allCallFree es

end

section Eval

variable (env : List (VarId × Value)) (ty : Ty) (span : Span) (x y : Expr) (es : List Expr)

lemma eval?_unary (op : UnaryOp) :
    (Expr.unary ty span op x).eval? env = (x.eval? env).bind (Value.unary? op) := by
  rw [Expr.eval?]
  cases x.eval? env <;> rfl

lemma eval?_binary (op : BinaryOp) (operand : Ty) (scaling : Bool) :
    (Expr.binary ty span op operand scaling x y).eval? env =
      (x.eval? env).bind fun l => (y.eval? env).bind (Value.binary? op l) := by
  rw [Expr.eval?]
  cases x.eval? env <;> cases y.eval? env <;> rfl

lemma eval?_pack : (Expr.pack ty span es).eval? env =
    (evalAll? env es).bind fun vs => (Value.pack ty vs).toOption := by
  rw [Expr.eval?]
  cases evalAll? env es <;> rfl

lemma eval?_swizzle (lanes : List Nat) : (Expr.swizzle ty span lanes x).eval? env =
    (x.eval? env).bind fun v => (v.swizzle lanes).toOption := by
  rw [Expr.eval?]
  cases x.eval? env <;> rfl

lemma evalAll?_cons : evalAll? env (x :: es) =
    (x.eval? env).bind fun v => (evalAll? env es).bind fun vs => some (v :: vs) := by
  rw [evalAll?]
  cases x.eval? env <;> cases evalAll? env es <;> rfl

end Eval

end VecLang.Typed

namespace VecLang.Machine

open Ssa Stateful LowerState Option

variable {c : LowerContext} {M : Module} {F s t u : LowerState} {fr fr' : Frame}
  {env : List (VarId × Value)} {a : Atom} {fits : Typed.Fits}

/-! ## Operations -/

variable {op : BinaryOp} {l r : Value} {ty : Ty}

lemma binary?_of_isRel (hrel : op.isRel = true) (hres : op.result? l.ty r.ty = some ty) :
    Value.binary? op l r = some (.bool (holds op l.ty l r)) := by
  have hplain : op.isScaling l.ty r.ty = false := by cases op <;> first | rfl | cases hrel
  have hcompare : Value.binary? op l r = some (.bool (Value.compare op l r)) := by
    rw [Value.binary?, hres]
    cases op <;> first | rfl | cases hrel
  have hbool : l.ty ≠ .bool := by
    intro h
    rw [h] at hres hplain
    obtain ⟨hr, -⟩ := BinaryOp.result?_plain hplain hres
    have hnone : op.result? .bool .bool = none := by cases op <;> first | rfl | cases hrel
    rw [← hr, hnone] at hres
    cases hres
  rw [hcompare, holds]
  by_cases hint : l.ty = .int
  · rw [if_pos (by simp [hint]), Value.compare, if_pos hint]
  · rw [if_neg (by simp [hint, hbool]), hcompare]
    simp

lemma toOption_binaryValue {tl tr : Ty}
    (hres : op.result? tl tr = some ty) (hl : HasType tl l) (hr : HasType tr r) :
    (binaryValue op (if op.isScaling tl tr then ty else tl) l r).toOption = Value.binary? op l r := by
  obtain ⟨rfl, hln⟩ := hl
  obtain ⟨rfl, -⟩ := hr
  cases hrel : op.isRel with
  | true =>
    have hplain : op.isScaling l.ty r.ty = false := by cases op <;> first | rfl | cases hrel
    rw [binary?_of_isRel hrel hres, hplain, binaryValue, if_pos hrel]
    rfl
  | false =>
    rw [binaryValue, if_neg (by simp [hrel])]
    -- the machine stops at the divisions of integers that have no value
    have hdiv (h : (if op.isScaling l.ty r.ty then ty else l.ty) = .int) (hop : op = .div) :
        Value.binary? op l r = (Value.intArith? .div l.word r.word).map Value.int := by
      subst hop
      split at h
      · next hscale => exact absurd (h ▸ (BinaryOp.result?_scaling hscale hres).2.1) (by decide)
      · next hscale =>
        obtain ⟨hr, -⟩ := BinaryOp.result?_plain (Bool.eq_false_iff.2 hscale) hres
        rw [Value.binary?, ← hr, h]
        rfl
    generalize (if op.isScaling l.ty r.ty then ty else l.ty) = operand at hdiv ⊢
    split
    · next hzero =>
      obtain ⟨⟨hint, hop⟩, hr⟩ : (_ ∧ _) ∧ _ := by simpa using hzero
      rw [hdiv hint hop, hr]
      rfl
    split
    · next hover =>
      obtain ⟨⟨⟨hint, hop⟩, hl⟩, hr⟩ : ((_ ∧ _) ∧ _) ∧ _ := by simpa using hover
      rw [hdiv hint hop, hl, hr]
      rfl
    cases Value.binary? op l r <;> rfl

variable {x : Value}

lemma unary?_eq_unaryValue {op : UnaryOp} {u : Ty} (hres : op.result? ty = some u)
    (hx : HasType ty x) : Value.unary? op x = some (unaryValue op x) := by
  obtain ⟨rfl, hxn⟩ := hx
  have hsome : (Value.unary? op x).isSome := by
    rw [Value.unary?, hres]
    dsimp only
    repeat' split
    all_goals rfl
  unfold unaryValue
  split
  · next hnot =>
    subst hnot
    have hbool : x.ty = .bool := by
      by_contra hne
      rw [UnaryOp.result?, if_neg hne] at hres
      cases hres
    rw [Value.unary?, hres]
    rcases hxn.truth hbool with h | h <;> simp [Value.bool, Value.isTrue, h]
  · obtain ⟨v, hv⟩ := isSome_iff_exists.1 hsome
    rw [hv]
    rfl

/-! ## Runs of a call -/

/-- In `n` steps the call `fr` becomes `fr'`, whatever calls wait for it. -/
def Reaches (M : Module) (n : Nat) (fr fr' : Frame) : Prop :=
  ∀ (d : Nat) (S : State) (below : List Frame), S.status = .running → S.stack = fr :: below →
    S.run (within M none d) n = { S with stack := fr' :: below, steps := S.steps + n }

def Stops (M : Module) (n : Nat) (fr : Frame) : Prop :=
  ∀ (d : Nat) (S : State) (below : List Frame), S.status = .running → S.stack = fr :: below →
    (S.run (within M none d) n).status ≠ .running

lemma Reaches.refl (M : Module) (fr : Frame) : Reaches M 0 fr fr := by
  intro d S below _ hstack
  rw [State.run, Nat.add_zero, ← hstack]

section Sequence

variable {i j : Nat} {fr'' : Frame}

lemma Reaches.trans (h : Reaches M i fr fr') (h' : Reaches M j fr' fr'') :
    Reaches M (i + j) fr fr'' := by
  intro d S below hrun hstack
  rw [run_add, h d S below hrun hstack]
  exact (h' d { S with stack := fr' :: below, steps := S.steps + i } below hrun rfl).trans
    (by rw [Nat.add_assoc])

lemma Reaches.stops (h : Reaches M i fr fr') (h' : Stops M j fr') : Stops M (i + j) fr := by
  intro d S below hrun hstack
  rw [run_add, h d S below hrun hstack]
  exact h' d _ below hrun rfl

end Sequence

lemma step_within (d : Nat) (S : State) : S.step (within M none d) =
    { S with steps := S.steps + 1 }.settle ({ S with steps := S.steps + 1 }.advance (within M none d)) :=
  step_eq S

lemma reaches_one (h : ∀ d (S : State) below, S.stack = fr :: below →
    S.advance (within M none d) = .ok { S with stack := fr' :: below }) : Reaches M 1 fr fr' := by
  intro d S below hrun hstack
  rw [run_succ hrun, step_within, h d { S with steps := S.steps + 1 } below hstack]
  rfl

structure Frame.AtEnd (fr : Frame) (s : LowerState) : Prop where
  block : fr.block = s.blocks.size
  next : fr.next = s.current.instrs.size

structure Frame.Keeps (k : ValueId) (fr fr' : Frame) : Prop where
  routine : fr'.routine = fr.routine
  cells : fr'.cells = fr.cells
  registers : ∀ id < k, fr'.registers.get? id = fr.registers.get? id

namespace Frame.Keeps

variable {j k : ValueId}

lemma refl (k : ValueId) (fr : Frame) : Keeps k fr fr := ⟨rfl, rfl, fun _ _ => rfl⟩

lemma trans {fr'' : Frame} (h : Keeps j fr fr') (h' : Keeps k fr' fr'') (hjk : j ≤ k) :
    Keeps j fr fr'' :=
  ⟨h'.routine.trans h.routine, h'.cells.trans h.cells, fun id hid =>
    (h'.registers id (Nat.lt_of_lt_of_le hid hjk)).trans (h.registers id hid)⟩

lemma value (h : Keeps k fr fr') {id : ValueId} (hid : id < k) :
    fr'.value M id = fr.value M id := by
  rw [Frame.value, h.routine, h.cells, h.registers id hid]
  rfl

end Frame.Keeps

def Atom.Below (k : ValueId) : Atom → Prop
  | .lit _ => True
  | .ref id _ => id < k
  | .none => False

variable {k : ValueId}

lemma Atom.Below.mono {j : ValueId} (h : Atom.Below j a) (hjk : j ≤ k) : Atom.Below k a := by
  cases a with
  | lit _ => trivial
  | ref _ _ => exact Nat.lt_of_lt_of_le h hjk
  | none => exact h

lemma Frame.Keeps.read (h : fr.Keeps k fr') (ha : Atom.Below k a) : fr'.read M a = fr.read M a := by
  cases a with
  | lit _ => rfl
  | ref _ _ => exact h.value ha
  | none => exact ha.elim

lemma read_constant (hpool : M.pool = c.pool) (h : c.constant? a = some x) : fr.read M a = .ok x := by
  cases a with
  | lit v => exact congrArg Except.ok (some.inj h)
  | ref id ty =>
    have hid : M.pool.get? id = some x := hpool ▸ h
    rw [Frame.read, Frame.value, hid]
  | none => cases h

/-! ## Code in its place -/

/-- The call `fr` is about to run the code between `s` and `t`, which `F` goes on from. It holds the
values `env` of variables; the values of the code are neither constants nor on a chain. -/
structure Ready (c : LowerContext) (M : Module) (env : List (VarId × Value)) (F s t : LowerState)
    (fr : Frame) : Prop where
  live : s.Live
  grows : Grows t F
  pool : M.pool = c.pool
  types : F.types.toList <+: M.types.toList
  blocks : fr.routine.func.blocks = F.all
  labels : Distinct F.all
  fresh : ∀ id, s.types.size ≤ id → id < t.types.size → c.pool.get? id = none ∧
    fr.routine.isPhi id = false ∧ fr.routine.chains.indexOf? id = none
  place : fr.AtEnd s
  vars : ∀ v x, env.lookup v = some x → HasType (c.module.varType v) x ∧
    ∃ id < s.types.size, (s.lookup v).or (c.consts.get? v) = some id ∧ fr.value M id = .ok x

variable {v y : Value}

namespace Ready

lemma first (h : Ready c M env F s u fr) (htu : Grows t u) : Ready c M env F s t fr where
  __ := h
  grows := htu.trans h.grows
  fresh id hlo hhi := h.fresh id hlo (Nat.lt_of_lt_of_le hhi htu.types_size)

lemma next (h : Ready c M env F s u fr) (hst : Grows s t) (hscope : t.scope = s.scope)
    (hlive : t.Live) (hplace : fr'.AtEnd t) (hkeeps : fr.Keeps s.types.size fr') :
    Ready c M env F t u fr' where
  __ := h
  live := hlive
  blocks := by rw [hkeeps.routine, h.blocks]
  fresh id hlo hhi := by
    rw [hkeeps.routine]
    exact h.fresh id (Nat.le_trans hst.types_size hlo) hhi
  place := hplace
  vars v x hv := by
    obtain ⟨hty, id, hid, hlook, hval⟩ := h.vars v x hv
    refine ⟨hty, id, Nat.lt_of_lt_of_le hid hst.types_size, ?_, by rw [hkeeps.value hid, hval]⟩
    rw [LowerState.lookup, hscope]
    exact hlook

lemma after (h : Ready c M env F s u fr) (hst : Emits s t) (hplace : fr'.AtEnd t)
    (hkeeps : fr.Keeps s.types.size fr') : Ready c M env F t u fr' :=
  h.next hst.adds.grows hst.scope (hst.live h.live) hplace hkeeps

lemma constant_eq (h : Ready c M env F s t fr) {k : Value} (hk : c.constant? a = some k)
    (hv : fr.read M a = .ok v) : k = v :=
  Except.ok.inj ((read_constant h.pool hk).symm.trans hv)

lemma hasType (h : Ready c M env F s t fr) {e : Typed.Expr}
    (hwt : e.WellTyped c.table c.module.varType fits)
    (hwf : e.erase.WellFormed c.table fun v => (env.lookup v).isSome = true)
    (hv : e.eval? env = some v) : HasType e.ty v :=
  Typing.eval?_spec (fun id v hid => (h.vars id v hid).1) e hwt hwf hv

lemma known?_eq (h : Ready c M env F s t fr) {l r : Atom} {z : Value}
    (hz : c.known? op l r = some z) (hx : fr.read M l = .ok x) (hy : fr.read M r = .ok y) :
    Value.binary? op x y = some z := by
  obtain ⟨k, hk, hz⟩ := bind_eq_some_iff.1 hz
  obtain ⟨k', hk', hz⟩ := bind_eq_some_iff.1 hz
  rwa [← h.constant_eq hk hx, ← h.constant_eq hk' hy]

lemma type_new {i : Instr} (h : Ready c M env F s ((s.addValue ty).append i) fr) :
    M.types[s.types.size]? = some ty :=
  type?_of_begins (h.grows.types.trans h.types) (by simp [append, addValue])

lemma fetch {i : Instr} (h : Ready c M env F s ((s.addValue ty).append i) fr) :
    ∃ b, fr.routine.func.blocks[fr.block]? = some b ∧ b.instrs[fr.next]? = some i := by
  obtain ⟨b, hb, -, ⟨more, hmore⟩, -⟩ := h.grows.current
  refine ⟨b, by rw [h.blocks, h.place.block]; exact hb, ?_⟩
  rw [h.place.next, ← Array.getElem?_toList, ← hmore]
  simp [append, addValue]

end Ready

/-- The code between `s` and `t` runs to its end, where the value `o` is as `P` says; without a
value it stops the program. -/
def Runs {β : Type} (M : Module) (s t : LowerState) (fr : Frame) (P : Frame → β → Prop) :
    Option β → Prop
  | some v => ∃ n fr', t.current.instrs.size = s.current.instrs.size + n ∧ Reaches M n fr fr' ∧
      fr'.AtEnd t ∧ fr.Keeps s.types.size fr' ∧ P fr' v
  | none => ∃ n, s.current.instrs.size + n ≤ t.current.instrs.size ∧ Stops M n fr

section Runs

variable {β γ : Type} {P : Frame → β → Prop} {Q : Frame → γ → Prop} {o : Option β}

lemma runs_refl {v : β} (hplace : fr.AtEnd s) (hv : P fr v) : Runs M s s fr P (some v) :=
  ⟨0, fr, rfl, .refl M fr, hplace, .refl _ fr, hv⟩

lemma Runs.bind (hr : Ready c M env F s u fr) (hst : Emits s t) (htu : Emits t u)
    (h : Ready c M env F s t fr → Runs M s t fr P o) {f : β → Option γ}
    (hf : ∀ v fr', o = some v → Ready c M env F t u fr' → fr.Keeps s.types.size fr' → P fr' v →
      Runs M t u fr' Q (f v)) : Runs M s u fr Q (o.bind f) := by
  have hsize : t.current.instrs.size ≤ u.current.instrs.size := htu.instrs.length_le
  replace h := h (hr.first htu.adds.grows)
  cases o with
  | none =>
    obtain ⟨n, hn, hstop⟩ := h
    exact ⟨n, Nat.le_trans hn hsize, hstop⟩
  | some v =>
    obtain ⟨n, fr', hn, hreach, hplace, hkeeps, hv⟩ := h
    have hrest := hf v fr' rfl (hr.after hst hplace hkeeps) hkeeps hv
    rw [bind_some]
    cases hw : f v with
    | none =>
      rw [hw] at hrest
      obtain ⟨m, hm, hstop⟩ := hrest
      exact ⟨n + m, by omega, hreach.stops hstop⟩
    | some w =>
      rw [hw] at hrest
      obtain ⟨m, fr'', hm, hreach', hplace', hkeeps', hw⟩ := hrest
      exact ⟨n + m, fr'', by omega, hreach.trans hreach', hplace',
        hkeeps.trans hkeeps' hst.adds.grows.types_size, hw⟩

end Runs

/-! ## Expressions -/

def Gives (M : Module) (t : LowerState) (a : Atom) (fr : Frame) (v : Value) : Prop :=
  Atom.Below t.types.size a ∧ fr.read M a = .ok v

structure Computes (M : Module) (fr : Frame) (i : Instr) (x : Except Status Value) : Prop where
  error : x ≠ .error .running
  instr : ∀ d (S : State) (fr' : Frame) below, fr'.read M = fr.read M →
    S.instr (within M none d) fr' below i =
      x.map fun v => { S with stack := fr'.define i.dst v :: below }

lemma runs_result {known : Option Value} {instr : ValueId → Instr}
    (hr : Ready c M env F s t fr) (hrun : result known ty instr s = .ok (a, t))
    (hdst : ∀ id, (instr id).dst = id) {x : Except Status Value} {o : Option Value}
    (ho : x.toOption = o) (hknown : ∀ v, known = some v → o = some v)
    (hx : known = none → Computes M fr (instr s.types.size) x) : Runs M s t fr (Gives M t a) o := by
  subst ho
  rcases result_eq_ok.1 hrun with ⟨v, hv, heq⟩ | ⟨hnone, heq⟩
  · cases heq
    rw [hknown v hv]
    exact runs_refl hr.place ⟨trivial, rfl⟩
  · obtain ⟨herror, hinstr⟩ := hx hnone
    cases heq
    have hadv (d : Nat) (S : State) (below : List Frame) (hS : S.stack = fr :: below) :
        S.advance (within M none d) = x.map fun v =>
          { S with stack := ({ fr with next := fr.next + 1 } : Frame).define s.types.size v :: below } := by
      obtain ⟨b, hb, hi⟩ := hr.fetch
      rw [State.advance, hS]
      simp only [hb, hi]
      rw [hinstr d S { fr with next := fr.next + 1 } below rfl, hdst]
    have hsize : ((s.addValue ty).append (instr s.types.size)).current.instrs.size =
        s.current.instrs.size + 1 := Array.size_push _
    cases x with
    | error e =>
      refine ⟨1, Nat.le_of_eq hsize.symm, fun d S below hS hstack => ?_⟩
      rw [run_succ hS, step_within, hadv d { S with steps := S.steps + 1 } below hstack]
      exact fun h => herror (congrArg Except.error h)
    | ok v =>
      obtain ⟨hpool, hphi, hchain⟩ := hr.fresh s.types.size (Nat.le_refl _) (by simp [append])
      have hdefine : ({ fr with next := fr.next + 1 } : Frame).define s.types.size v =
          { fr with next := fr.next + 1, registers := fr.registers.set s.types.size v } := by
        rw [Frame.define]
        simp only [hphi, hchain, Bool.false_eq_true, if_false]
      refine ⟨1, _, hsize, reaches_one hadv, ?_, ?_, ?_, ?_⟩
      · rw [hdefine]
        exact ⟨hr.place.block, by rw [hsize, hr.place.next]⟩
      · rw [hdefine]
        refine ⟨rfl, rfl, fun id hid => ?_⟩
        rw [Assoc.get?_set, if_neg (Nat.ne_of_gt hid)]
      · exact Nat.lt_of_lt_of_eq (Nat.lt_succ_self _) (size_types_addValue s ty).symm
      · rw [hdefine, Frame.read, Frame.value, hr.pool, hpool]
        simp only [hphi, Assoc.get?_set, if_true, Bool.false_eq_true, if_false]

variable {dst : ValueId}

lemma computes_binary {operand : Ty} {scaling : Bool} {l r : Atom} (hl : fr.read M l = .ok x)
    (hr : fr.read M r = .ok y) :
    Computes M fr (.binary dst op operand scaling l r) (binaryValue op operand x y) where
  error h := by rcases binaryValue_eq_error h with h | h | h <;> cases h
  instr d S fr' below hread := by
    have hl : fr'.read (within M none d).module l = .ok x := (congrFun hread l).trans hl
    have hr : fr'.read (within M none d).module r = .ok y := (congrFun hread r).trans hr
    simp only [State.instr, hl, hr, bind, Except.bind]
    cases binaryValue op operand x y <;> rfl

lemma computes_unary {op : UnaryOp} (ha : fr.read M a = .ok x) :
    Computes M fr (.unary dst op a) (.ok (unaryValue op x)) where
  error := nofun
  instr d S fr' below hread := by
    have ha : fr'.read (within M none d).module a = .ok x := (congrFun hread a).trans ha
    simp only [State.instr, ha, bind, Except.bind]
    rfl

lemma computes_swizzle {lanes : List Nat} (ha : fr.read M a = .ok x) :
    Computes M fr (.swizzle dst a lanes) ((x.swizzle lanes).mapError .broken) where
  error := by cases x.swizzle lanes <;> exact nofun
  instr d S fr' below hread := by
    have ha : fr'.read (within M none d).module a = .ok x := (congrFun hread a).trans ha
    simp only [State.instr, ha, bind, Except.bind]
    cases x.swizzle lanes <;> rfl

variable {as : List Atom} {vs : List Value}

lemma computes_pack (hdst : M.types[dst]? = some ty) (has : fr.readAll M as = .ok vs) :
    Computes M fr (.pack dst as) ((Value.pack ty vs).mapError .broken) where
  error := by cases Value.pack ty vs <;> exact nofun
  instr d S fr' below hread := by
    have hty : (within M none d).module.typeOf dst = .ok ty := by
      change M.typeOf dst = _
      rw [Module.typeOf, hdst]
    have has : fr'.readAll (within M none d).module as = .ok vs := by
      change as.mapM (fr'.read M) = _
      rw [hread]
      exact has
    simp only [State.instr, has, hty, Except.mapError, bind, Except.bind]
    cases Value.pack ty vs <;> rfl

abbrev GivesAll (M : Module) (t : LowerState) (as : List Atom) (fr : Frame) (vs : List Value) : Prop :=
  List.Forall₂ (Gives M t · fr ·) as vs

lemma Gives.keep (h : Gives M s a fr v) (hst : Grows s t)
    (hkeeps : fr.Keeps s.types.size fr') : Gives M t a fr' v :=
  ⟨h.1.mono hst.types_size, (hkeeps.read h.1).trans h.2⟩

lemma readAll_of_givesAll (h : GivesAll M t as fr vs) : fr.readAll M as = .ok vs := by
  induction h with
  | nil => rfl
  | cons ha _ ih =>
    rw [Frame.readAll, List.mapM_cons, ha.2]
    exact bind_congr (fun _ => rfl) |>.trans (by rw [show List.mapM _ _ = _ from ih]; rfl)

lemma Ready.constants_eq (h : Ready c M env F s t fr) {ks : List Value}
    (has : GivesAll M u as fr vs) (hks : as.mapM c.constant? = some ks) : ks = vs := by
  induction has generalizing ks with
  | nil => exact (some.inj hks).symm
  | cons ha _ ih =>
    rw [List.mapM_cons] at hks
    obtain ⟨k, hk, hks⟩ := bind_eq_some_iff.1 hks
    obtain ⟨ks', hks', hks⟩ := bind_eq_some_iff.1 hks
    cases hks
    rw [h.constant_eq hk ha.2, ih hks']

mutual

lemma runs_lowerExpr (e : Typed.Expr) (hwt : e.WellTyped c.table c.module.varType fits)
    (hwf : e.erase.WellFormed c.table fun v => (env.lookup v).isSome = true)
    (hfree : e.callFree = true) {s t : LowerState} {fr : Frame} {a : Atom}
    (hr : Ready c M env F s t fr) (hrun : lowerExpr c e s = .ok (a, t)) :
    Runs M s t fr (Gives M t a) (e.eval? env) := by
  match e with
  | .lit _ _ v =>
    cases pure_eq_ok.1 hrun
    exact runs_refl hr.place ⟨trivial, rfl⟩
  | .var ty _ v =>
    obtain ⟨id, s1, hid, hrun⟩ := bind_eq_ok.1 hrun
    obtain ⟨_, hlook, heq⟩ := varValue_eq_ok.1 hid
    cases heq
    cases pure_eq_ok.1 hrun
    obtain ⟨x, hx⟩ := isSome_iff_exists.1 hwf
    obtain ⟨-, id', hid', hlook', hval⟩ := hr.vars v x hx
    cases hlook.symm.trans hlook'
    rw [Typed.Expr.eval?, hx]
    exact runs_refl hr.place ⟨hid', hval⟩
  | .unary ty _ op x =>
    obtain ⟨l, s1, hx, hrun⟩ := bind_eq_ok.1 hrun
    have hex := emits_lowerExpr x hr.live hx
    have hrest := emits_result (hex.live hr.live) (fun _ => rfl) hrun
    rw [Typed.eval?_unary]
    refine .bind hr hex hrest (runs_lowerExpr x hwt.1 hwf.2 hfree · hx) fun v fr' hv hr' _ hl => ?_
    refine runs_result hr' hrun (fun _ => rfl) (x := .ok (unaryValue op v))
      (unary?_eq_unaryValue hwt.2.2 (hr.hasType hwt.1 hwf.2 hv)).symm (fun w hw => ?_)
      fun _ => computes_unary hl.2
    obtain ⟨k, hk, hw⟩ := bind_eq_some_iff.1 hw
    rwa [← hr'.constant_eq hk hl.2]
  | .binary ty _ op operand scaling x y =>
    simp only [lowerExpr, bind_eq_ok] at hrun
    obtain ⟨l, s1, hx, r, s2, hy, hrun⟩ := hrun
    obtain ⟨hwx, hwy, -, hres, rfl, rfl⟩ := hwt
    obtain ⟨hfx, hfy⟩ := Bool.and_eq_true_iff.1 hfree
    have hex := emits_lowerExpr x hr.live hx
    have hey := emits_lowerExpr y (hex.live hr.live) hy
    have hrest := emits_result (hey.live (hex.live hr.live)) (fun _ => rfl) hrun
    rw [Typed.eval?_binary]
    refine .bind hr hex (hey.trans hrest) (runs_lowerExpr x hwx hwf.2.1 hfx · hx)
      fun v fr1 hv hr1 _ hl => ?_
    refine .bind hr1 hey hrest (runs_lowerExpr y hwy hwf.2.2 hfy · hy) fun w fr2 hw hr2 hkeeps hr => ?_
    have hl := hl.keep hey.adds.grows hkeeps
    refine runs_result hr2 hrun (fun _ => rfl)
      (toOption_binaryValue hres (hr1.hasType hwx hwf.2.1 hv) (hr1.hasType hwy hwf.2.2 hw))
      (fun z hz => hr2.known?_eq hz hl.2 hr.2) fun _ => computes_binary hl.2 hr.2
  | .call _ _ _ _ => cases hfree
  | .pack ty _ elems =>
    obtain ⟨as, s1, has, known, hrun, -, hknown⟩ := lowerExpr_pack_eq_ok hrun
    have hes := emits_lowerExprs elems hr.live has
    have helems := Typed.elemsWellTyped_iff.1 hwt.2.2
    have hvalues (hr : Ready c M env F s s1 fr) := runs_lowerExprs elems (fun e he => (helems e he).1)
      (Typed.allWellFormed_eraseAll.1 hwf.2.2) hfree hr has
    rw [Typed.eval?_pack]
    have hrest := emits_result (hes.live hr.live) (fun _ => rfl) hrun
    refine .bind hr hes hrest hvalues fun vs fr' _ hr' _ hvs => ?_
    refine runs_result hr' hrun (fun _ => rfl) (x := (Value.pack ty vs).mapError .broken) ?_
      (fun v hv => ?_) fun hnone => computes_pack ?_ (readAll_of_givesAll hvs)
    · cases Value.pack ty vs <;> rfl
    · obtain ⟨ks, hks, hv⟩ := hknown v hv
      rw [← hr'.constants_eq hvs hks, hv]
      rfl
    · obtain ⟨-, heq⟩ := (result_eq_ok.1 hrun).resolve_left (by simp [hnone])
      cases heq
      exact hr'.type_new
  | .swizzle ty _ lanes x =>
    obtain ⟨l, s1, hx, known, hrun, -, hknown⟩ := lowerExpr_swizzle_eq_ok hrun
    have hex := emits_lowerExpr x hr.live hx
    rw [Typed.eval?_swizzle]
    have hrest := emits_result (hex.live hr.live) (fun _ => rfl) hrun
    refine .bind hr hex hrest (runs_lowerExpr x hwt.1 hwf.2.2 hfree · hx) fun w fr' _ hr' _ hw => ?_
    refine runs_result hr' hrun (fun _ => rfl) (x := (w.swizzle lanes).mapError .broken) ?_
      (fun v hv => ?_) fun _ => computes_swizzle hw.2
    · cases w.swizzle lanes <;> rfl
    · obtain ⟨k, hk, hv⟩ := hknown v hv
      rw [← hr'.constant_eq hk hw.2]
      exact congrArg (·.toOption) hv

lemma runs_lowerExprs (es : List Typed.Expr)
    (hwt : ∀ e ∈ es, e.WellTyped c.table c.module.varType fits)
    (hwf : ∀ e ∈ es, e.erase.WellFormed c.table fun v => (env.lookup v).isSome = true)
    (hfree : Typed.allCallFree es = true) {s t : LowerState} {fr : Frame} {as : List Atom}
    (hr : Ready c M env F s t fr) (hrun : lowerExprs c es s = .ok (as, t)) :
    Runs M s t fr (GivesAll M t as) (Typed.evalAll? env es) := by
  match es with
  | [] =>
    cases pure_eq_ok.1 hrun
    exact runs_refl hr.place .nil
  | e :: es =>
    simp only [lowerExprs, bind_eq_ok, pure_eq_ok] at hrun
    obtain ⟨a, s1, ha, as, s2, has, hrun⟩ := hrun
    cases hrun
    obtain ⟨hfe, hfes⟩ := Bool.and_eq_true_iff.1 hfree
    have hee := emits_lowerExpr e hr.live ha
    have hees := emits_lowerExprs es (hee.live hr.live) has
    rw [Typed.evalAll?_cons]
    refine .bind hr hee hees (runs_lowerExpr e (hwt e List.mem_cons_self) (hwf e List.mem_cons_self)
      hfe · ha) fun v fr1 _ hr1 _ hv => ?_
    refine .bind hr1 hees (.refl _) (runs_lowerExprs es (fun e he => hwt e (List.mem_cons_of_mem _ he))
      (fun e he => hwf e (List.mem_cons_of_mem _ he)) hfes · has) fun vs fr2 _ hr2 hkeeps hvs => ?_
    exact runs_refl hr2.place (.cons (hv.keep hees.adds.grows hkeeps) hvs)

end

/-! ## Conditions -/

/-- The call goes on at the start of the block `j`, with the values below `k`. -/
def Leads (M : Module) (k : ValueId) (fr : Frame) (j : Nat) : Prop :=
  ∃ n fr', Reaches M n fr fr' ∧ fr.Keeps k fr' ∧ fr'.block = j ∧ fr'.next = 0

lemma Reaches.leads {n j : Nat} {k' : ValueId} (h : Reaches M n fr fr') (hk : fr.Keeps k fr')
    (hkk' : k ≤ k') (h' : Leads M k' fr' j) : Leads M k fr j := by
  obtain ⟨m, fr'', hreach, hkeeps, hplace⟩ := h'
  exact ⟨n + m, fr'', h.trans hreach, hk.trans hkeeps hkk', hplace⟩

lemma Runs.leads {β : Type} {P : Frame → β → Prop} {v : β} {j : Nat}
    (hr : Ready c M env F s u fr) (hst : Emits s t) (htu : Grows t u)
    (h : Ready c M env F s t fr → Runs M s t fr P (some v))
    (hf : ∀ fr', Ready c M env F t u fr' → fr.Keeps s.types.size fr' → P fr' v →
      Leads M t.types.size fr' j) : Leads M s.types.size fr j := by
  obtain ⟨n, fr', -, hreach, hplace, hkeeps, hv⟩ := h (hr.first htu)
  exact hreach.leads hkeeps hst.adds.grows.types_size
    (hf fr' (hr.after hst hplace hkeeps) hkeeps hv)

section Jumps

variable {l yes no : LabelId} {j jy jn : Nat} {k : ValueId} {term : Term}

lemma advance_term (hr : Ready c M env F s t fr) (hF : Grows (s.close term) F)
    (hterm : term ≠ .none) (p : Program) (S : State) (below : List Frame)
    (hS : S.stack = fr :: below) : S.advance p = S.term p fr below term := by
  obtain ⟨b, hb, hbegins⟩ := hF.current
  cases hbegins.ended hterm
  have hblock : fr.routine.func.blocks[fr.block]? = some (s.close term).current := by
    rw [hr.blocks, hr.place.block]
    exact hb
  have hnext : (s.close term).current.instrs[fr.next]? = none :=
    Array.getElem?_eq_none (Nat.le_of_eq hr.place.next.symm)
  rw [State.advance, hS]
  simp only [hblock, hnext]
  rfl

lemma goto_eq {b : Block} (hj : fr.routine.func.blocks[j]? = some b) (S : State)
    (below : List Frame) :
    S.goto fr below j = .ok { S with stack := { fr with block := j, next := 0 } :: below } :=
  if_pos (Array.getElem?_eq_some_iff.1 hj).1

lemma jump_eq (hr : Ready c M env F s t fr) (hj : blockOf? F.all l = some j) (p : Program)
    (S : State) (below : List Frame) :
    S.jump p fr below l = .ok { S with stack := { fr with block := j, next := 0 } :: below } := by
  obtain ⟨-, b, hb, -⟩ := blockOf?_eq_some hj
  rw [State.jump, hr.blocks, hj]
  exact goto_eq (hr.blocks ▸ hb) S below

lemma leads_goto (hr : Ready c M env F s (s.close (.goto l)) fr)
    (hj : blockOf? F.all l = some j) : Leads M k fr j := by
  refine ⟨1, { fr with block := j, next := 0 }, reaches_one fun d S below hS => ?_,
    ⟨rfl, rfl, fun _ _ => rfl⟩, rfl, rfl⟩
  rw [advance_term hr hr.grows nofun _ S below hS]
  exact jump_eq hr hj _ S below

lemma leads_branch {b : Atom}
    (hr : Ready c M env F s (((s.close (.branch a op b ty yes)).opened 0).close (.goto no)) fr)
    (ha : fr.read M a = .ok x) (hb : fr.read M b = .ok y) (hyes : blockOf? F.all yes = some jy)
    (hno : blockOf? F.all no = some jn) :
    Leads M s.types.size fr (if holds op ty x y then jy else jn) := by
  have hlive : ((s.close (.branch a op b ty yes)).opened 0).Live := rfl
  have hF := (grows_close hlive (.goto no)).trans hr.grows
  have hterm (d : Nat) (S : State) (below : List Frame) (hS : S.stack = fr :: below) :
      S.advance (within M none d) = if holds op ty x y then S.jump (within M none d) fr below yes
        else S.goto fr below (fr.block + 1) := by
    rw [advance_term hr ((grows_opened _ 0).trans hF) nofun _ S below hS]
    have ha : fr.read (within M none d).module a = .ok x := ha
    have hb : fr.read (within M none d).module b = .ok y := hb
    simp only [State.term, ha, hb, bind, Except.bind]
  split
  · next hholds =>
    refine ⟨1, { fr with block := jy, next := 0 }, reaches_one fun d S below hS => ?_,
      ⟨rfl, rfl, fun _ _ => rfl⟩, rfl, rfl⟩
    rw [hterm d S below hS, if_pos hholds]
    exact jump_eq hr hyes _ S below
  · next hholds =>
    -- control goes on in the next block, which is a jump
    obtain ⟨b', hb', -⟩ := hF.label_of_opened
    have hblock : fr.routine.func.blocks[fr.block + 1]? = some b' := by
      rw [hr.blocks, hr.place.block]
      exact hb'
    have hkeeps : fr.Keeps s.types.size { fr with block := fr.block + 1, next := 0 } :=
      ⟨rfl, rfl, fun _ _ => rfl⟩
    refine Reaches.leads (n := 1) (reaches_one fun d S below hS => ?_) hkeeps (Nat.le_refl _)
      (leads_goto (hr.next ((grows_close hr.live _).trans (grows_opened _ 0)) rfl hlive ⟨?_, rfl⟩ hkeeps)
        hno)
    · rw [hterm d S below hS, if_neg hholds]
      exact goto_eq hblock S below
    · rw [hr.place.block]
      exact (Array.size_push _).symm

/-- The second operand of `and` or `or` stands behind the first, at a label of its own. Control gets
there unless the first decides. -/
lemma leads_operands {hint : Bytes} {p q : LabelId} (decided : Bool)
    (hr : Ready c M env F s t fr) (hx : Branches p q (s.addLabel hint) u)
    (hy : Branches yes no (u.opened (s.labels.size + 1)) t)
    (hleads : ∀ j', blockOf? F.all (s.labels.size + 1) = some j' →
      Ready c M env F (s.addLabel hint) u fr → Leads M s.types.size fr (if decided then j else j'))
    (hrest : ∀ fr', Ready c M env F (u.opened (s.labels.size + 1)) t fr' →
      Leads M u.types.size fr' jn) :
    Leads M s.types.size fr (if decided then j else jn) := by
  have hsu : Grows s u := (grows_addLabel s hint).trans hx.adds.grows
  have hut : Grows u t := (grows_opened u _).trans hy.adds.grows
  obtain ⟨b, hb, hlabel⟩ := (hy.adds.grows.trans hr.grows).label_of_opened
  have hfirst := hleads _ (Distinct.blockOf?_eq hr.labels (Nat.succ_ne_zero _) hb hlabel)
    ((hr.next (grows_addLabel s hint) rfl hr.live ⟨hr.place.block, hr.place.next⟩ (.refl _ fr)).first hut)
  cases decided with
  | true => exact hfirst
  | false =>
    obtain ⟨n, fr', hreach, hkeeps, hblock, hnext⟩ := hfirst
    exact hreach.leads hkeeps hsu.types_size (hrest fr' (hr.next (hsu.trans (grows_opened u _)) hx.scope
      rfl ⟨hblock.trans (Array.size_push _).symm, hnext⟩ hkeeps))

end Jumps

lemma isTrue_of_logic (h : Value.binary? op l r = some v) :
    (op = .and → v.isTrue = (l.isTrue && r.isTrue)) ∧
      (op = .or → v.isTrue = (l.isTrue || r.isTrue)) := by
  rw [Value.binary?] at h
  split at h
  · cases h
  · constructor
    all_goals
      rintro rfl
      cases h
      exact Value.isTrue_bool _

lemma leads_of_condRun {e : Typed.Expr} {yes no : LabelId} (h : CondRun c e yes no s t)
    (hwt : e.WellTyped c.table c.module.varType fits) (hbool : e.ty = .bool)
    (hwf : e.erase.WellFormed c.table fun v => (env.lookup v).isSome = true)
    (hfree : e.callFree = true) (hr : Ready c M env F s t fr)
    (hv : e.eval? env = some v) {jy jn : Nat} (hyes : blockOf? F.all yes = some jy)
    (hno : blockOf? F.all no = some jn) :
    Leads M s.types.size fr (if v.isTrue then jy else jn) := by
  induction h generalizing fr v jy jn with
  | @negation ty span x yes no s t h ih =>
    rw [Typed.eval?_unary] at hv
    obtain ⟨w, hw, hv⟩ := bind_eq_some_iff.1 hv
    have hx := ih hwt.1 ((UnaryOp.result?_eq hwt.2.2).symm.trans hbool) hwf.2 hfree hr hw hno hyes
    have hnot : v.isTrue = !w.isTrue := by
      rw [Value.unary?] at hv
      split at hv
      · cases hv
      · cases hv
        exact Value.isTrue_bool _
    rw [hnot]
    cases hw : w.isTrue <;> rw [hw] at hx <;> exact hx
  | @both ty span operand scaling x y yes no s t u hx hy ihx ihy =>
    rw [Typed.eval?_binary] at hv
    obtain ⟨l, hl, hv⟩ := bind_eq_some_iff.1 hv
    obtain ⟨r, hrv, hv⟩ := bind_eq_some_iff.1 hv
    obtain ⟨hfx, hfy⟩ := Bool.and_eq_true_iff.1 hfree
    obtain ⟨hbx, hby⟩ := logical (.inl rfl) hwt.2.2.2.1
    have hleads := leads_operands (!l.isTrue) (j := jn) hr (hx.branches hr.live)
      (hy.branches rfl)
      (fun j' hj' hr' => by
        have h := ihx hwt.1 hbx hwf.2.1 hfx hr' hl hj' hno
        cases htrue : l.isTrue <;> rw [htrue] at h <;> exact h)
      fun fr' hr' => ihy hwt.2.1 hby hwf.2.2 hfy hr' hrv hyes hno
    rw [(isTrue_of_logic hv).1 rfl]
    cases htrue : l.isTrue <;> rw [htrue] at hleads <;> exact hleads
  | @either ty span operand scaling x y yes no s t u hx hy ihx ihy =>
    rw [Typed.eval?_binary] at hv
    obtain ⟨l, hl, hv⟩ := bind_eq_some_iff.1 hv
    obtain ⟨r, hrv, hv⟩ := bind_eq_some_iff.1 hv
    obtain ⟨hfx, hfy⟩ := Bool.and_eq_true_iff.1 hfree
    obtain ⟨hbx, hby⟩ := logical (.inr rfl) hwt.2.2.2.1
    have hleads := leads_operands l.isTrue (j := jy) hr (hx.branches hr.live)
      (hy.branches rfl) (fun j' hj' hr' => ihx hwt.1 hbx hwf.2.1 hfx hr' hl hyes hj')
      fun fr' hr' => ihy hwt.2.1 hby hwf.2.2 hfy hr' hrv hyes hno
    rw [(isTrue_of_logic hv).2 rfl]
    cases htrue : l.isTrue <;> rw [htrue] at hleads <;> exact hleads
  | @compare ty span op operand scaling x y l r yes no s s1 s2 t hop hx hy h =>
    rw [Typed.eval?_binary] at hv
    obtain ⟨xv, hxv, hv⟩ := bind_eq_some_iff.1 hv
    obtain ⟨yv, hyv, hv⟩ := bind_eq_some_iff.1 hv
    obtain ⟨hfx, hfy⟩ := Bool.and_eq_true_iff.1 hfree
    obtain ⟨hwx, hwy, -, hres, rfl, rfl⟩ := hwt
    have hex := emits_lowerExpr x hr.live hx
    have hey := emits_lowerExpr y (hex.live hr.live) hy
    have hrest := (branches_lowerBranch (hey.live (hex.live hr.live)) h).adds.grows
    refine Runs.leads hr hex (hey.adds.grows.trans hrest)
      (hxv ▸ runs_lowerExpr x hwx hwf.2.1 hfx · hx) fun fr1 hr1 _ hl => ?_
    refine Runs.leads hr1 hey hrest (hyv ▸ runs_lowerExpr y hwy hwf.2.2 hfy · hy)
      fun fr2 hr2 hkeeps hrr => ?_
    have hl := hl.keep hey.adds.grows hkeeps
    rw [lowerBranch_eq] at h
    cases hk : c.known? op l r with
    | some w =>
      rw [hk] at h
      cases h
      cases hv.symm.trans (hr2.known?_eq hk hl.2 hrr.2)
      refine leads_goto hr2 ?_
      split <;> assumption
    | none =>
      rw [hk] at h
      cases h
      have hleads := leads_branch hr2 hl.2 hrr.2 hyes hno
      obtain ⟨hxt, -⟩ := hr.hasType hwx hwf.2.1 hxv
      obtain ⟨hyt, -⟩ := hr.hasType hwy hwf.2.2 hyv
      obtain ⟨-, -, hplain⟩ := compared hop hres
      rw [← hxt, ← hyt] at hres
      rw [binary?_of_isRel hop hres] at hv
      cases hv
      rw [Value.isTrue_bool, hxt]
      simpa [hplain] using hleads
  | @test e yes no s t h =>
    obtain ⟨a, s1, he, ht⟩ := lowerTest_eq_ok.1 h
    have hemits := emits_lowerExpr e hr.live he
    have hlive := hemits.live hr.live
    have hrest : Grows s1 t := by
      rw [ht]
      split
      · exact grows_close hlive _
      · exact (branches_branch hlive _ _ _ _ _ _).adds.grows
    refine Runs.leads hr hemits hrest (hv ▸ runs_lowerExpr e hwt hwf hfree · he) fun fr' hr' _ ha => ?_
    subst ht
    cases hk : c.constant? a with
    | some k =>
      rw [hk] at hr'
      rw [← hr'.constant_eq hk ha.2]
      refine leads_goto hr' ?_
      split <;> assumption
    | none =>
      rw [hk] at hr'
      have hleads := leads_branch hr' ha.2 rfl hyes hno
      obtain ⟨hty, hnormal⟩ := hr.hasType hwt hwf hv
      have hholds : holds .eq .bool v (.bool true) = v.isTrue := by
        rcases hnormal.truth (hty.trans hbool) with h | h <;>
          simp [holds, Value.compareInt, Value.isTrue, Value.bool, h]
      rw [hholds] at hleads
      exact hleads

/-- A condition without calls is lowered to code that works out its value and to jumps. Where the
code gets to its end with a value, the jumps lead to the label for this value; neither changes a
value that was taken before, such as those of the variables in scope. -/
theorem jumps_follow_value {e : Typed.Expr} (hwt : e.WellTyped c.table c.module.varType fits)
    (hbool : e.ty = .bool) (hfree : e.callFree = true)
    (hwf : e.erase.WellFormed c.table fun v => (env.lookup v).isSome = true) (hlive : s.Live)
    (hscope : ∀ v, (env.lookup v).isSome = true → ((s.lookup v).or (c.consts.get? v)).isSome = true)
    (yes no : LabelId) :
    ∃ a t t', lowerExpr c e s = .ok (a, t) ∧ lowerCond c e yes no s = .ok ((), t') ∧
      ∀ {M M' : Module} {F F' : LowerState} {fr fr' : Frame}, Ready c M env F s t fr →
        Ready c M' env F' s t' fr' →
        ∀ {jy jn : Nat}, blockOf? F'.all yes = some jy → blockOf? F'.all no = some jn →
        ∀ {d : Nat} {S : State} {below below' : List Frame} {last : Frame} {v : Value},
          S.status = .running → S.stack = fr :: below →
          (S.run (within M none d) (t.current.instrs.size - s.current.instrs.size)).status = .running →
          (S.run (within M none d) (t.current.instrs.size - s.current.instrs.size)).stack =
            last :: below' →
          last.read M a = .ok v →
          below' = below ∧ fr.Keeps s.types.size last ∧
            Leads M' s.types.size fr' (if v.isTrue then jy else jn) := by
  have hmem (v : VarId) : (env.lookup v).isSome = true ↔ v ∈ env.map (·.1) ∨ v ∈ ([] : List VarId) := by
    simp only [List.lookup_isSome_iff, beq_iff_eq, List.mem_map, List.not_mem_nil, or_false]
    exact exists_congr fun p => and_congr_right fun _ => eq_comm
  have hvisible : Resolved.Visible c.table [] (env.map (·.1)) e.erase :=
    hwf.mono (fun _ _ h => h) (fun v hv => (hmem v).1 hv) _
  have hsees : Sees c [] (env.map (·.1)) s := fun v hv => hscope v ((hmem v).2 hv)
  obtain ⟨a, t, he⟩ := exists_lowerExpr e hvisible hwt hsees hlive
  obtain ⟨t', hc⟩ := exists_lowerCond e hvisible hwt hsees hlive yes no
  refine ⟨a, t, t', he, hc, ?_⟩
  intro M M' F F' fr fr' hr hr' jy jn hyes hno d S below below' last v hS hstack hrun hend hv
  have hruns := runs_lowerExpr e hwt hwf hfree hr he
  cases hval : e.eval? env with
  | none =>
    rw [hval] at hruns
    obtain ⟨n, hn, hstop⟩ := hruns
    obtain ⟨m, hm⟩ := Nat.exists_eq_add_of_le (Nat.le_sub_of_add_le' hn)
    rw [hm, run_add, run_of_ended (hstop d S below hS hstack)] at hrun
    exact absurd hrun (hstop d S below hS hstack)
  | some w =>
    rw [hval] at hruns
    obtain ⟨n, fr1, hn, hreach, -, hkeeps, -, hread⟩ := hruns
    rw [hn, Nat.add_sub_cancel_left, hreach d S below hS hstack] at hend
    cases hend
    cases hread.symm.trans hv
    exact ⟨rfl, hkeeps, leads_of_condRun (condRun_of_lowerCond e hc) hwt hbool hwf hfree hr' hval hyes
      hno⟩

section Less

/-- The condition `x < 2` for the variable `x` with number one. -/
def lessThanTwo : Typed.Expr :=
  .binary .bool .none .lt .int false (.var .int .none 1) (.lit .int .none (.int 2))

def oneVariable : LowerContext :=
  { module := { consts := [], funcs := [], main := none, varTypes := #[.int] },
    table := default, pool := [], consts := [] }

def beforeLess : LowerState :=
  { types := #[.invalid, .int], labels := #[[], []], scope := [[(1, 1)]] }

def lessValue : LowerState :=
  (beforeLess.addValue .bool).append (.binary 2 .lt .int false (.ref 1 .int) (.lit (.int 2)))

def lessJumps : LowerState :=
  ((beforeLess.close (.branch (.ref 1 .int) .lt (.lit (.int 2)) .int 1)).opened 0).close (.goto 2)

/-- A call with the value one of the variable, at the beginning of the code. -/
def lessCall (F : LowerState) : Frame where
  routine := .ofFunc
    { id := 0, name := [], result := .invalid, args := [], blocks := F.all, phis := [] }
  registers := [(1, .int 1)]
  cells := #[]
  resultTo := 0

def lessModule (F : LowerState) : Module :=
  { funcs := [], main := none, pool := [], labels := [], types := F.types }

lemma ready_less (hF : Grows t F) (hlabels : Distinct F.all) :
    Ready oneVariable (lessModule F) [(1, .int 1)] F beforeLess t (lessCall F) where
  live := rfl
  grows := hF
  pool := rfl
  types := List.prefix_rfl
  blocks := rfl
  labels := hlabels
  fresh _ _ _ := ⟨rfl, rfl, rfl⟩
  place := ⟨rfl, rfl⟩
  vars v x hv := by
    by_cases h : v = 1
    · subst h
      cases hv
      exact ⟨⟨rfl, Value.normal_int 1⟩, 1, by decide, rfl, rfl⟩
    · have hne : (v == 1) = false := by simpa using h
      simp [List.lookup, hne] at hv

/-- As one is less than two, the jumps lead to the block of the first label. -/
theorem jumps_follow_value_less :
    lowerCond oneVariable lessThanTwo 1 2 beforeLess = .ok ((), lessJumps) ∧
      Leads (lessModule ((lessJumps.opened 1).opened 2)) 2 (lessCall ((lessJumps.opened 1).opened 2)) 2 := by
  obtain ⟨a, t, t', he, hc, h⟩ := @jumps_follow_value oneVariable beforeLess [(1, .int 1)] (fun _ _ => True) lessThanTwo
    ⟨⟨rfl, nofun⟩, ⟨rfl, nofun, nofun⟩, ⟨nofun, nofun⟩, rfl, rfl, rfl⟩ rfl rfl
    ⟨nofun, rfl, Value.normal_int 2⟩ rfl
    (fun v hv => by
      by_cases h : v = 1
      · subst h
        rfl
      · have hne : (v == 1) = false := by simpa using h
        simp [List.lookup, hne] at hv) 1 2
  have he' : lowerExpr oneVariable lessThanTwo beforeLess = .ok (.ref 2 .bool, lessValue) := rfl
  have hc' : lowerCond oneVariable lessThanTwo 1 2 beforeLess = .ok ((), lessJumps) := rfl
  cases he'.symm.trans he
  cases hc'.symm.trans hc
  refine ⟨hc', (h (ready_less (.refl _) ?_) (ready_less ((grows_opened _ 1).trans (grows_opened _ 2)) ?_)
    (d := 1) (S := { stack := [lessCall lessValue] }) rfl rfl rfl rfl rfl rfl rfl).2.2⟩
  · refine distinct_of_count fun l hl => ?_
    change List.count l [0] ≤ 1
    grind
  · refine distinct_of_count fun l hl => ?_
    change List.count l [0, 0, 1, 2] ≤ 1
    grind

end Less

end VecLang.Machine
