import VecLang.Proofs.Machine.Simulation
import VecLang.Proofs.Ssa.Totality

/-!
# Safety

What a program that is accepted can do when it is run, with any limits.

## Main results

* `spared_of_analyze`: it is never stopped for its code, and reads no phi whose cell was not
  written;
* `sound_of_wellTyped`: if it is well typed, its values keep the types that are known for them.
-/

namespace VecLang.Machine

open Ssa Stateful List Textbook Value

/-! ## Operations on values of the right types -/

def HasType (t : Ty) (v : Value) : Prop := v.ty = t ∧ v.Normal

/-- The program makes sense, and is not stopped with one of some codes. -/
def Spared (codes : List Bytes) : Status → Prop
  | .broken _ => False
  | .trapped t => t.code ∉ codes
  | _ => True

/-- The codes of traps that come of bad code: a number is read that was not defined, or a function
or a block is missing. -/
def structureCodes : List Bytes := ["VM1001", "VM1003", "VM1004"]

def typeCode : Bytes := "VM1999"

lemma intArith?_eq_none {op : BinaryOp} {a b : Int64} (hop : op.isArith = true)
    (h : intArith? op a b = none) : op = .div ∧ (b = 0 ∨ a = Int64.minValue ∧ b = -1) := by
  cases op with
  | div =>
    simp only [intArith?] at h
    split at h
    · next hb => exact ⟨rfl, by simpa using hb⟩
    · cases h
  | add | sub | mul => cases h
  | _ => cases hop

lemma binary?_eq_none {op : BinaryOp} {l r : Value} {t : Ty} (hres : op.result? l.ty r.ty = some t)
    (h : binary? op l r = none) : l.ty = .int ∧ op.isScaling l.ty r.ty = false ∧ op = .div ∧
      (r.word = 0 ∨ l.word = Int64.minValue ∧ r.word = -1) := by
  rw [binary?, hres] at h
  dsimp only at h
  split at h
  · cases h
  next hscale =>
  obtain ⟨heq, hcases⟩ := BinaryOp.result?_plain (Bool.eq_false_iff.2 hscale) hres
  split at h
  · cases h
  split at h
  · cases h
  split at h
  · cases h
  split at h
  · rcases hcases with ⟨-, -, ht⟩ | ⟨-, ht⟩ | ⟨harith, ht, -⟩
    · cases ht
    · cases ht
    · exact ⟨ht.symm, Bool.eq_false_iff.2 hscale,
        intArith?_eq_none harith (Option.map_eq_none_iff.1 h)⟩
  · cases h
  · cases h

lemma result?_of_isRel {op : BinaryOp} {l r t : Ty} (hrel : op.isRel = true)
    (hres : op.result? l r = some t) : t = .bool := by
  cases hs : op.isScaling l r with
  | true => rcases (BinaryOp.result?_scaling hs hres).2.2 with rfl | rfl <;> cases hrel
  | false =>
    rcases (BinaryOp.result?_plain hs hres).2 with ⟨-, -, ht⟩ | ⟨-, ht⟩ | ⟨harith, -⟩
    · exact ht
    · exact ht
    · have hnot : op.isArith = true → op.isRel = false := by cases op <;> decide
      rw [hnot harith] at hrel
      cases hrel

lemma binaryValue_spec {op : BinaryOp} {tl tr t : Ty} {l r : Value}
    (hres : op.result? tl tr = some t) (hl : HasType tl l) (hr : HasType tr r) :
    (∃ v, binaryValue op (if op.isScaling tl tr then t else tl) l r = .ok v ∧ HasType t v) ∨
      ∃ trap, binaryValue op (if op.isScaling tl tr then t else tl) l r = .error (.trapped trap) ∧
        (trap = .divisionByZero ∨ trap = .divisionOverflow) := by
  obtain ⟨rfl, hln⟩ := hl
  obtain ⟨rfl, -⟩ := hr
  generalize hoperand : (if op.isScaling l.ty r.ty then t else l.ty) = operand
  unfold binaryValue
  split
  · next hrel => exact .inl ⟨_, rfl, (result?_of_isRel hrel hres).symm, normal_bool _⟩
  split
  · exact .inr ⟨_, rfl, .inl rfl⟩
  split
  · exact .inr ⟨_, rfl, .inr rfl⟩
  next hzero hover =>
  cases hv : binary? op l r with
  | some v =>
    obtain ⟨hty, -⟩ := binary?_spec hln.ty_ne hv
    cases hres.symm.trans hty
    exact .inl ⟨v, rfl, rfl, normal_of_binary? hln.ty_ne hv⟩
  | none =>
    -- a division that has no value has stopped the machine before
    obtain ⟨hint, hscale, rfl, hbad⟩ := binary?_eq_none hres hv
    rw [if_neg (Bool.eq_false_iff.1 hscale), hint] at hoperand
    subst hoperand
    rcases hbad with hr | ⟨hmin, hr⟩
    · exact absurd (by simp [hr]) hzero
    · exact absurd (by simp [hmin, hr]) hover

lemma unaryValue_spec {op : UnaryOp} {t u : Ty} {x : Value} (hres : op.result? t = some u)
    (hx : HasType t x) : HasType u (unaryValue op x) := by
  obtain ⟨rfl, hxn⟩ := hx
  unfold unaryValue
  split
  · next hnot =>
    subst hnot
    have hbool : x.ty = .bool := by
      by_contra hne
      rw [UnaryOp.result?, if_neg hne] at hres
      cases hres
    rw [UnaryOp.result?_eq hres, hbool]
    refine ⟨rfl, nofun, fun _ => ?_, nofun, fun i _ => get_default_lanes i⟩
    rcases hxn.truth hbool with h | h
    · exact .inr (by rw [h]; rfl)
    · exact .inl (by rw [h]; rfl)
  · next hneg =>
    cases hw : unary? op x with
    | none =>
      rw [unary?, hres] at hw
      dsimp only at hw
      split at hw
      · cases hw
      · split at hw <;> cases hw
    | some w =>
      obtain ⟨hty, -⟩ := unary?_spec hxn.ty_ne hw
      cases hres.symm.trans hty
      exact ⟨rfl, normal_of_unary? hxn hw⟩

lemma binaryValue_eq_error {op : BinaryOp} {operand : Ty} {l r : Value} {e : Status}
    (h : binaryValue op operand l r = .error e) :
    e = .trapped .divisionByZero ∨ e = .trapped .divisionOverflow ∨
      e = .trapped (.operands op l.ty r.ty) := by
  unfold binaryValue at h
  split at h
  · cases h
  split at h
  · cases h
    exact .inl rfl
  split at h
  · cases h
    exact .inr (.inl rfl)
  split at h
  · cases h
  · cases h
    exact .inr (.inr rfl)

/-! ## What is kept -/

def anyWorld (table : SymbolTable) (types : VarId → Ty) (fits : Typed.Fits) (M : Module) : World where
  table := table
  types := types
  fits := fits
  module := M
  Good _ _ := True
  Fine := Spared structureCodes

def typedWorld (table : SymbolTable) (types : VarId → Ty) (M : Module) : World where
  table := table
  types := types
  fits p t := t = types p
  module := M
  Good := HasType
  Fine := Spared (typeCode :: structureCodes)

lemma lawful_anyWorld {table : SymbolTable} {types : VarId → Ty} {fits : Typed.Fits} {M : Module}
    (h : Compiled table types fits M) : (anyWorld table types fits M).Lawful where
  compiled := h
  normal _ := trivial
  binary {op tl tr t l r} _ _ _ := by
    cases hv : binaryValue op (if op.isScaling tl tr then t else tl) l r with
    | ok v => exact trivial
    | error e =>
      rcases binaryValue_eq_error hv with rfl | rfl | rfl
      · exact (by decide : ("VM1002" : Bytes) ∉ structureCodes)
      · exact (by decide : ("VM1002" : Bytes) ∉ structureCodes)
      · exact (by decide : ("VM1999" : Bytes) ∉ structureCodes)
  unary _ _ := trivial
  pack _ _ _ := trivial
  swizzle _ _ := trivial
  param _ _ := trivial
  running := trivial
  exited _ := trivial
  callDepth _ _ := (by decide : ("VM1005" : Bytes) ∉ structureCodes)
  stepLimit _ := (by decide : ("VM1006" : Bytes) ∉ structureCodes)

lemma lawful_typedWorld {table : SymbolTable} {types : VarId → Ty} {M : Module}
    (h : Compiled table types (fun p t => t = types p) M) : (typedWorld table types M).Lawful where
  compiled := h
  normal hv := ⟨rfl, hv⟩
  binary hres hl hr := by
    rcases binaryValue_spec hres hl hr with ⟨v, hv, hty⟩ | ⟨trap, hv, rfl | rfl⟩
    · rw [hv]
      exact hty
    all_goals
      rw [hv]
      exact (by decide : ("VM1002" : Bytes) ∉ typeCode :: structureCodes)
  unary := unaryValue_spec
  pack {t vs v} ht hlen hv := ⟨pack_spec hv, normal_of_pack hv
    (by revert ht; cases t <;> decide) (Nat.le_of_eq hlen)⟩
  swizzle hres hv := ⟨Option.some.inj ((swizzle_spec hv).1.symm.trans hres), normal_of_swizzle hv⟩
  param {p t x} (hfits : t = types p) hx := by
    subst hfits
    exact hx
  running := trivial
  exited _ := trivial
  callDepth _ _ := (by decide : ("VM1005" : Bytes) ∉ typeCode :: structureCodes)
  stepLimit _ := (by decide : ("VM1006" : Bytes) ∉ typeCode :: structureCodes)

/-! ## What is read next -/

def Frame.operands (fr : Frame) : List Atom :=
  match fr.routine.func.blocks[fr.block]? with
  | none => []
  | some b =>
    match b.instrs[fr.next]? with
    | some i => i.uses
    | none => b.term.uses

section Operands

variable {S : Setting} {σ : Point}

lemma atomOk_of_instrOk {i : Instr} (h : S.InstrOk σ i) {a : Atom} (ha : a ∈ i.uses) :
    ∃ t, S.AtomOk σ a t := by
  cases i with
  | assign dst src =>
    obtain ⟨t, -, hsrc⟩ := h
    cases mem_singleton.1 ha
    exact ⟨t, hsrc⟩
  | binary dst op operand scaling l r =>
    obtain ⟨tl, tr, t, -, hl, hr, -⟩ := h
    rcases mem_pair.1 ha with rfl | rfl
    · exact ⟨tl, hl⟩
    · exact ⟨tr, hr⟩
  | unary dst op x =>
    obtain ⟨tx, t, -, hx, -⟩ := h
    cases mem_singleton.1 ha
    exact ⟨tx, hx⟩
  | call dst callee name args =>
    obtain ⟨g, -, -, hargs, -⟩ := h
    obtain ⟨p, -, t, ht, -⟩ := exists_of_mem_left hargs ha
    exact ⟨t, ht⟩
  | pack dst elems =>
    obtain ⟨t, -, -, -, helems⟩ := h
    exact ⟨_, helems a ha⟩
  | swizzle dst x lanes =>
    obtain ⟨tx, t, -, hx, -⟩ := h
    cases mem_singleton.1 ha
    exact ⟨tx, hx⟩
  | unknown k => exact h.elim

lemma atomOk_of_termOk {t : Term} (h : S.TermOk σ t) {a : Atom} (ha : a ∈ t.uses) :
    ∃ ty, S.AtomOk σ a ty := by
  cases t with
  | branch l op r operand target =>
    obtain ⟨hl, hr, -⟩ := h
    rcases mem_pair.1 ha with rfl | rfl
    · exact ⟨operand, hl⟩
    · exact ⟨operand, hr⟩
  | ret v =>
    cases v with
    | none => cases ha
    | some x =>
      cases mem_singleton.1 ha
      exact ⟨_, h⟩
  | _ => cases ha

end Operands

variable {W : World} {g : Func} {q : Plan} {params : List VarId} {fr : Frame} {c : Call}

lemma StandsAt.operands (h : StandsAt W g q fr.next fr c) (hhome : W.Home g q params) :
    ∃ σ, Follows W g q fr c σ ∧ ∀ a ∈ fr.operands, ∃ t, (W.setting g q).AtomOk σ a t := by
  obtain ⟨b, e, hb, -⟩ := id h
  have hblock : fr.routine.func.blocks[fr.block]? = some b := by rw [h.routine]; exact hb
  unfold Frame.operands
  rw [hblock]
  dsimp only
  cases hi : b.instrs[fr.next]? with
  | some i =>
    obtain ⟨σ, hf, hok, -, -⟩ := h.instr hhome hb hi
    exact ⟨σ, hf, fun a ha => atomOk_of_instrOk hok ha⟩
  | none =>
    obtain ⟨σ, hf, hend⟩ := h.term hhome hb hi
    exact ⟨σ, hf, fun a ha => atomOk_of_termOk hend.term ha⟩

lemma Stacks.written {frs : List Frame} {cs : List Call} (h : Stacks W frs cs)
    (hfr : fr ∈ frs.head?) {id : ValueId} {ty : Ty} (hid : .ref id ty ∈ fr.operands)
    (hphi : fr.routine.isPhi id = true) :
    ∃ i, fr.routine.chains.indexOf? id = some i ∧ fr.Written i := by
  match frs, cs, h with
  | fr :: _, _ :: _, ⟨g, q, params, hhome, hstands, _⟩ =>
    cases hfr
    obtain ⟨σ, hf, hall⟩ := hstands.operands hhome
    obtain ⟨t, -, -, -, hknows⟩ := hall _ hid
    exact hf.tracks.written_of_knows hhome.certificate hknows hphi

lemma Rest.sound {result : Ty} {resultTo : ValueId} {frs : List Frame} {cs : List Call}
    (h : Rest W result resultTo frs cs) (hfr : fr ∈ frs) : fr.Sound W.module W.Good := by
  induction frs generalizing cs result resultTo with
  | nil => cases hfr
  | cons fr' frs ih =>
    match cs, h with
    | _ :: _, ⟨g, q, params, _, ⟨_, _, _, _, _, _, _, _, _, ⟨_, _, _, _, _, hf⟩⟩, hrest⟩ =>
      rcases mem_cons.1 hfr with rfl | hfr
      · exact hf.sound
      · exact ih hrest hfr

lemma Stacks.sound {frs : List Frame} {cs : List Call} (h : Stacks W frs cs)
    (hfr : fr ∈ frs) : fr.Sound W.module W.Good := by
  match frs, cs, h with
  | fr' :: frs, _ :: _, ⟨g, q, params, _, ⟨_, _, _, _, _, hf⟩, hrest⟩ =>
    rcases mem_cons.1 hfr with rfl | hfr
    · exact hf.sound
    · exact hrest.sound hfr

lemma Stacks.branch {frs : List Frame} {cs : List Call} (hW : W.Lawful)
    (h : Stacks W frs cs) (hfr : fr ∈ frs.head?) {b : Block}
    (hb : fr.routine.func.blocks[fr.block]? = some b) (hi : b.instrs[fr.next]? = none) {l r : Atom}
    {op : BinaryOp} {operand : Ty} {target : LabelId} (ht : b.term = .branch l op r operand target) :
    ∃ x y, fr.read W.module l = .ok x ∧ fr.read W.module r = .ok y ∧ W.Good operand x ∧
      W.Good operand y := by
  match frs, cs, h with
  | fr :: _, _ :: _, ⟨g, q, params, hhome, hstands, _⟩ =>
    cases hfr
    have hb' : g.blocks[fr.block]? = some b := by
      rw [hstands.routine] at hb
      exact hb
    obtain ⟨σ, hf, hend⟩ := hstands.term hhome hb' hi
    obtain ⟨hl, hr, -, -⟩ : (W.setting g q).TermOk σ (.branch l op r operand target) :=
      ht ▸ hend.term
    obtain ⟨x, hx, -, hgx⟩ := hf.exists_read hW hhome hl
    obtain ⟨y, hy, -, hgy⟩ := hf.exists_read hW hhome hr
    exact ⟨x, y, hx, hy, hgx, hgy⟩

/-! ## Programs that are accepted -/

section Accepted

variable {table : SymbolTable} {lo : VarId} {m : Resolved.Module} {tm : Typed.Module}

/-- The code of an accepted program follows plans, whatever is known of its arguments. -/
lemma compiled_of_accepted {M : Module} (hacc : Accepted table lo m tm)
    (hM : lowerModule tm table = .ok M) : Compiled table tm.varType (Typed.Declared table) M := by
  refine compiled_of_lowerModule hacc hacc.wellTyped (fun {id g p ty} hg hp hfits => ?_) hM
  obtain ⟨var, hvar⟩ := hacc.wellFormed.has_param hg hp
  exact (hfits var hvar).1

lemma compiled_of_wellTyped {M : Module} (hacc : Accepted table lo m tm)
    (hwt : tm.WellTyped table tm.Same) (hM : lowerModule tm table = .ok M) :
    Compiled table tm.varType (fun p t => t = tm.varType p) M := by
  refine compiled_of_lowerModule hacc hwt (fun {id g p ty} hg hp hfits => ?_) hM
  obtain ⟨var, hvar⟩ := hacc.wellFormed.has_param hg hp
  rw [hfits]
  exact (hwt.vars hvar).1

end Accepted

/-- A program that is accepted is never stopped for its code: no value is read before it is
defined, no function and no block is missing, and there is an argument, a block and a lane
wherever the machine looks for one. When a phi is read, its cell was written in the same call. -/
theorem spared_of_analyze {content : Bytes} {file : Nat} {a : Analysis} {tm : Typed.Module}
    (h : analyze .typing content file = .ok a) (htyped : a.typed = some tm) :
    ∃ M, lowerModule tm a.table = .ok M ∧ ∀ (limits : Limits) (n : Nat),
      let p := Program.ofModule M limits
      let s := p.start.run p n
      Spared structureCodes s.status ∧ ∀ fr ∈ s.stack.head?, ∀ id ty, .ref id ty ∈ fr.operands →
        fr.routine.isPhi id = true → ∃ i, fr.routine.chains.indexOf? id = some i ∧ fr.Written i := by
  obtain ⟨lo, m, hacc⟩ := accepted_of_analyze h htyped
  obtain ⟨M, hM⟩ := exists_lowerModule hacc
  refine ⟨M, hM, fun limits n => ?_⟩
  obtain ⟨t, halike⟩ := exists_alike (lawful_anyWorld (compiled_of_accepted hacc hM)) limits n
  exact ⟨halike.fine, fun fr hfr id ty hid hphi => halike.calls.written hfr hid hphi⟩

/-- A loop with two ways out and a phi for each of its variables. -/
def countdown : Bytes :=
  "fn main() -> int \x7b\n" ++
  "  let n = 9; let s = 0;\n" ++
  "  while n > 0 \x7b if s > 20 \x7b break; \x7d s = s + n; n = n - 1; \x7d\n" ++
  "  return s;\n" ++
  "\x7d\n"

theorem spared_countdown : ∃ a tm M, analyze .typing countdown = .ok a ∧ a.typed = some tm ∧
    lowerModule tm a.table = .ok M ∧
    Spared structureCodes ((Program.ofModule M {}).start.run (.ofModule M {}) 40).status := by
  have hrun : acceptedWith (fun _ _ => true) countdown = true := by decide +kernel
  obtain ⟨a, tm, ha, htm, -⟩ := exists_of_acceptedWith hrun
  obtain ⟨M, hM, hall⟩ := spared_of_analyze ha htm
  exact ⟨a, tm, M, ha, htm, hM, (hall {} 40).1⟩

/-- A well-typed program keeps its types when it is run: every value is of the type that is known
for its number, in normal form, also in the cell that the values of a chain share; both operands
of a branch are of its operand type; and no operation finds operands that do not fit. -/
theorem sound_of_wellTyped {m : Syntax.Module} {tm : Typed.Module} (hvalid : ∀ i ∈ m.items, i.Valid)
    (hreports : (Resolved.resolve m).diagnostics.any Diagnostic.isError = false)
    (hdec : Decorates (Resolved.resolve m).table (Resolved.resolve m).module tm)
    (hwt : tm.WellTyped (Resolved.resolve m).table tm.Same) :
    ∃ M, lowerModule tm (Resolved.resolve m).table = .ok M ∧ ∀ (limits : Limits) (n : Nat),
      let p := Program.ofModule M limits
      let s := p.start.run p n
      (∀ fr ∈ s.stack, fr.Sound M HasType) ∧
      (∀ fr ∈ s.stack.head?, ∀ b l op r operand target, fr.routine.func.blocks[fr.block]? = some b →
        b.instrs[fr.next]? = none → b.term = .branch l op r operand target →
        ∃ x y, fr.read M l = .ok x ∧ fr.read M r = .ok y ∧ HasType operand x ∧ HasType operand y) ∧
      Spared (typeCode :: structureCodes) s.status := by
  obtain ⟨lo, hacc⟩ := accepted_of_decorates hvalid hreports hdec hwt
  obtain ⟨M, hM⟩ := exists_lowerModule hacc
  have hW := lawful_typedWorld (compiled_of_wellTyped hacc hwt hM)
  refine ⟨M, hM, fun limits n => ?_⟩
  obtain ⟨t, halike⟩ := exists_alike hW limits n
  exact ⟨fun fr hfr => halike.calls.sound hfr, fun fr hfr b l op r operand target hb hi ht =>
    halike.calls.branch hW hfr hb hi ht, halike.fine⟩

theorem sound_scaledSum : ∃ (m : Syntax.Module) (tm : Typed.Module) (M : Module),
    tm.WellTyped (Resolved.resolve m).table tm.Same ∧
    lowerModule tm (Resolved.resolve m).table = .ok M ∧
    ∀ fr ∈ ((Program.ofModule M {}).start.run (.ofModule M {}) 40).stack, fr.Sound M HasType := by
  have hrun : acceptedWith (fun a tm => tm.CallsFit a.table tm.Same) scaledSum = true := by
    decide +kernel
  obtain ⟨a, tm, ha, htm, hfit⟩ := exists_of_acceptedWith hrun
  obtain ⟨m, hvalid, hreports, -, hdec, hwt⟩ := decorates_of_analyze ha htm (of_decide_eq_true hfit)
  obtain ⟨M, hM, hall⟩ := sound_of_wellTyped hvalid hreports hdec hwt
  exact ⟨m, tm, M, hwt, hM, (hall {} 40).1⟩

end VecLang.Machine
