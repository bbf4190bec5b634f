import Mathlib.Tactic.Lemma
import VecLang.Machine.Step

/-!
# Limits only cut a run short

What a program does does not depend on how far it may go, as long as it stays within its limits.
A run that ends by itself ends in the same state under every higher limit, and one that is cut
off after `n` steps has done what every longer run does in its first `n` steps (`limits_only_cut`).
-/

namespace VecLang.Machine

open Ssa List Option Program State

variable {α β : Type} {m : Module} {l q : Limits} {p : Program} {s t r : State} {fr : Frame}

/-! ## One step under two limits -/

/-- What no operation on values ends in: the limit on steps is reached, or a block is missing. -/
inductive Status.Outer : Status → Prop
  | running : Outer .running
  | stepLimit (n : Nat) : Outer (.trapped (.stepLimit n))
  | unknownLabel (label func : Bytes) : Outer (.trapped (.unknownLabel label func))
  | fellOff (func : Bytes) : Outer (.trapped (.fellOff func))

def Uncut (x : Except Status α) : Prop := ∀ e, Status.Outer e → x ≠ .error e

lemma Uncut.bind {x : Except Status α} {f : α → Except Status β} (hx : Uncut x)
    (hf : ∀ a, Uncut (f a)) : Uncut (x >>= f) := by
  cases x with
  | error e => exact fun n hn h => hx n hn (congrArg Except.error (Except.error.inj h))
  | ok a => exact hf a

lemma uncut_broken (x : Except Breakdown α) : Uncut (x.mapError Status.broken) := by
  cases x <;> exact nofun

lemma uncut_read (a : Atom) : Uncut (fr.read m a) := by
  cases a with
  | lit v => exact nofun
  | none | ref =>
    unfold Frame.read Frame.value
    repeat' split
    all_goals rintro _ (_ | _ | _ | _) ⟨⟩

lemma uncut_readAll (as : List Atom) : Uncut (fr.readAll m as) := by
  induction as with
  | nil => exact nofun
  | cons a as ih =>
    rw [Frame.readAll, mapM_cons]
    exact (uncut_read a).bind fun v => Uncut.bind ih fun vs => nofun

lemma uncut_bindArgs (ids : List ValueId) (vs : List Value) : Uncut (fr.bindArgs ids vs) := by
  induction ids generalizing fr vs with
  | nil => exact nofun
  | cons id ids ih =>
    cases vs with
    | nil => exact nofun
    | cons v vs => exact ih vs

lemma uncut_binaryValue (op : BinaryOp) (operand : Ty) (x y : Value) :
    Uncut (binaryValue op operand x y) := by
  unfold binaryValue
  repeat' split
  all_goals exact nofun

/-- The state `t` may come next after `s`: steps are counted elsewhere, what was seen stays, and the
program goes on or ends by itself. -/
structure State.Next (s t : State) : Prop where
  steps : t.steps = s.steps
  log : s.log <:+ t.log
  status : t.status = s.status ∨ ∃ c, t.status = .exited c

/-- What comes after `s` is not stopped by a limit on steps, and is the same under `q` as under `l`
unless calls may go deeper under `q` and it is stopped for their depth under `l`. -/
structure Proceeds (s : State) (l q : Limits) (x x' : Except Status State) : Prop where
  uncut : ∀ n, x ≠ .error (.trapped (.stepLimit n))
  next : ∀ {t}, x = .ok t → s.Next t
  same : x' = x ∨ l.depth < q.depth ∧ ∃ f, x = .error (.trapped (.callDepth l.depth f))

lemma Proceeds.of_ok (h : s.Next t) : Proceeds s l q (.ok t) (.ok t) :=
  ⟨nofun, fun heq => by cases heq; exact h, .inl rfl⟩

lemma Proceeds.of_error {e : Status} (he : ∀ n, e ≠ .trapped (.stepLimit n)) :
    Proceeds s l q (.error e) (.error e) :=
  ⟨fun n h => he n (Except.error.inj h), nofun, .inl rfl⟩

lemma Proceeds.bind {x : Except Status α} {f g : α → Except Status State} (hx : Uncut x)
    (hf : ∀ a, Proceeds s l q (f a) (g a)) : Proceeds s l q (x >>= f) (x >>= g) := by
  cases x with
  | error e => exact .of_error fun n h => hx _ (.stepLimit n) (congrArg _ h)
  | ok a => exact hf a

lemma proceeds_stack (stack : List Frame) :
    Proceeds s l q (.ok { s with stack }) (.ok { s with stack }) :=
  .of_ok ⟨rfl, suffix_rfl, .inl rfl⟩

lemma enter_of_full (h : l.depth ≤ s.stack.length) (r : Routine) (args : List Value)
    (resultTo : ValueId) : s.enter (.ofModule m l) r args resultTo =
      .error (.trapped (.callDepth l.depth r.func.name)) := by
  unfold enter
  exact if_pos h

lemma enter_of_room (h : s.stack.length < l.depth) (r : Routine) (args : List Value)
    (resultTo : ValueId) : s.enter (.ofModule m l) r args resultTo =
      ((Frame.enter r resultTo).bindArgs r.func.args args >>= fun fr =>
        .ok { s with stack := fr :: s.stack, log := .entered r.func.name :: s.log }) := by
  unfold enter
  exact if_neg (Nat.not_le.2 h)

lemma proceeds_enter (hd : l.depth ≤ q.depth) (s : State) (r : Routine) (args : List Value)
    (resultTo : ValueId) : Proceeds s l q (s.enter (.ofModule m l) r args resultTo)
      (s.enter (.ofModule m q) r args resultTo) := by
  rcases Nat.lt_or_ge s.stack.length l.depth with h | h
  · rw [enter_of_room h, enter_of_room (Nat.lt_of_lt_of_le h hd)]
    exact .bind (uncut_bindArgs _ _) fun fr => .of_ok ⟨rfl, suffix_cons _ _, .inl rfl⟩
  · rw [enter_of_full h]
    rcases Nat.lt_or_eq_of_le hd with hlt | heq
    · exact ⟨nofun, nofun, .inr ⟨hlt, _, rfl⟩⟩
    · rw [enter_of_full (heq ▸ h), heq]
      exact .of_error nofun

lemma proceeds_instr (hd : l.depth ≤ q.depth) (s : State) (fr : Frame) (below : List Frame)
    (i : Instr) : Proceeds s l q (s.instr (.ofModule m l) fr below i)
      (s.instr (.ofModule m q) fr below i) := by
  cases i with
  | assign dst src => exact .bind (uncut_read _) fun v => proceeds_stack _
  | binary dst op operand scaling x y =>
    exact .bind (uncut_read _) fun x => .bind (uncut_read _) fun y =>
      .bind (uncut_binaryValue _ _ _ _) fun v => proceeds_stack _
  | unary dst op x => exact .bind (uncut_read _) fun v => proceeds_stack _
  | call dst callee name args =>
    refine .bind (uncut_readAll _) fun vs => ?_
    by_cases hname : isBuiltin name = true
    · rw [if_pos hname, if_pos hname]
      cases vs with
      | nil => exact .of_error (by rintro n ⟨⟩)
      | cons v vs => exact .of_ok ⟨rfl, suffix_cons _ _, .inl rfl⟩
    · rw [if_neg hname, if_neg hname]
      rw [show (ofModule m q).callee? callee = (ofModule m l).callee? callee from rfl]
      cases (ofModule m l).callee? callee with
      | none => exact .of_error (by rintro n ⟨⟩)
      | some r =>
        -- the caller's frame is put back before the callee's is put on top of it
        have h := proceeds_enter (m := m) hd { s with stack := fr :: below } r vs dst
        exact ⟨h.uncut, fun heq => ⟨(h.next heq).steps, (h.next heq).log, (h.next heq).status⟩, h.same⟩
  | pack dst elems =>
    exact .bind (uncut_readAll _) fun vs => .bind (uncut_broken _) fun t =>
      .bind (uncut_broken _) fun v => proceeds_stack _
  | swizzle dst x lanes =>
    exact .bind (uncut_read _) fun x => .bind (uncut_broken _) fun v => proceeds_stack _
  | unknown k => exact .of_error (by rintro n ⟨⟩)

lemma proceeds_goto (fr : Frame) (below : List Frame) (block : Nat) :
    Proceeds s l q (s.goto fr below block) (s.goto fr below block) := by
  unfold State.goto
  split
  · exact proceeds_stack _
  · exact .of_error nofun

lemma proceeds_jump (fr : Frame) (below : List Frame) (label : LabelId) :
    Proceeds s l q (s.jump (.ofModule m l) fr below label)
      (s.jump (.ofModule m q) fr below label) := by
  unfold State.jump
  cases blockOf? fr.routine.func.blocks label with
  | some block => exact proceeds_goto fr below block
  | none => exact .of_error nofun

lemma proceeds_leave (fr : Frame) (below : List Frame) (v : Option Value) :
    Proceeds s l q (.ok (s.leave fr below v)) (.ok (s.leave fr below v)) := by
  cases below with
  | nil => exact .of_ok ⟨rfl, suffix_rfl, .inr ⟨_, rfl⟩⟩
  | cons caller rest => exact proceeds_stack _

lemma proceeds_term (fr : Frame) (below : List Frame) (b : Term) :
    Proceeds s l q (s.term (.ofModule m l) fr below b) (s.term (.ofModule m q) fr below b) := by
  cases b with
  | none => exact proceeds_goto fr below _
  | branch x op y operand target =>
    refine .bind (uncut_read _) fun x => .bind (uncut_read _) fun y => ?_
    split
    · exact proceeds_jump fr below target
    · exact proceeds_goto fr below _
  | goto target => exact proceeds_jump fr below target
  | ret v =>
    cases v with
    | none => exact proceeds_leave fr below none
    | some a => exact .bind (uncut_read _) fun v => proceeds_leave fr below (some v)
  | halt => exact .of_ok ⟨rfl, suffix_rfl, .inr ⟨1, rfl⟩⟩
  | unknown k => exact .of_error nofun

lemma proceeds_advance (hd : l.depth ≤ q.depth) (s : State) :
    Proceeds s l q (s.advance (.ofModule m l)) (s.advance (.ofModule m q)) := by
  unfold advance
  cases s.stack with
  | nil => exact .of_ok ⟨rfl, suffix_rfl, .inl rfl⟩
  | cons fr below =>
    dsimp only
    cases fr.routine.func.blocks[fr.block]? with
    | none => exact .of_error nofun
    | some b =>
      dsimp only
      cases b.instrs[fr.next]? with
      | some i => exact proceeds_instr hd s _ below i
      | none => exact proceeds_term fr below b.term

def State.settle (s : State) : Except Status State → State
  | .ok t => t
  | .error status => { s with status }

/-- The state `t` reached under `l` is reached under `q` too, unless calls may go deeper under `q`
and the program was stopped for their depth. -/
def Unaffected (l q : Limits) (t t' : State) : Prop :=
  t' = t ∨ l.depth < q.depth ∧ ∃ f, t.status = .trapped (.callDepth l.depth f)

lemma Proceeds.unaffected {x x' : Except Status State} (h : Proceeds s l q x x') :
    Unaffected l q (s.settle x) (s.settle x') :=
  h.same.imp (congrArg _) fun ⟨hlt, f, hf⟩ => ⟨hlt, f, by rw [hf]; rfl⟩

lemma Proceeds.settle {x x' : Except Status State} (h : Proceeds s l q x x') :
    (s.settle x).steps = s.steps ∧ s.log <:+ (s.settle x).log ∧
      (s.status = .running → ∀ n, (s.settle x).status ≠ .trapped (.stepLimit n)) := by
  cases x with
  | error e => exact ⟨rfl, suffix_rfl, fun _ n hn => h.uncut n (congrArg _ hn)⟩
  | ok t =>
    have hnext := h.next rfl
    refine ⟨hnext.steps, hnext.log, fun hs n hn => ?_⟩
    rcases hnext.status with heq | ⟨c, heq⟩
    · cases (heq.trans hs).symm.trans hn
    · cases heq.symm.trans hn

lemma step_eq (s : State) : s.step (.ofModule m l) =
    match l.exceeded? (s.steps + 1) with
    | some n => { s with steps := s.steps + 1, status := .trapped (.stepLimit n) }
    | none => { s with steps := s.steps + 1 }.settle
        ({ s with steps := s.steps + 1 }.advance (.ofModule m l)) := by
  unfold State.step
  change (match l.exceeded? (s.steps + 1) with | some n => _ | none => _) = _
  cases l.exceeded? (s.steps + 1) with
  | some n => rfl
  | none =>
    dsimp only
    cases advance _ _ <;> rfl

lemma step_spec (s : State) : (s.step (.ofModule m l)).steps = s.steps + 1 ∧
    s.log <:+ (s.step (.ofModule m l)).log := by
  rw [step_eq]
  split
  · exact ⟨rfl, suffix_rfl⟩
  · obtain ⟨hsteps, hlog, -⟩ :=
      (proceeds_advance (m := m) (Nat.le_refl l.depth) { s with steps := s.steps + 1 }).settle
    exact ⟨hsteps, hlog⟩

/-! ## Any number of steps -/

lemma run_of_ended (h : s.status ≠ .running) (n : Nat) : s.run p n = s := by
  cases n with
  | zero => rfl
  | succ n => rw [State.run, if_neg h]

lemma run_succ (h : s.status = .running) (n : Nat) : s.run p (n + 1) = (s.step p).run p n := by
  rw [State.run, if_pos h]

lemma run_add (s : State) (i j : Nat) : s.run p (i + j) = (s.run p i).run p j := by
  induction i generalizing s with
  | zero => rw [Nat.zero_add, State.run]
  | succ i ih =>
    by_cases h : s.status = .running
    · rw [Nat.succ_add, run_succ h, run_succ h, ih]
    · rw [run_of_ended h, run_of_ended h, run_of_ended h]

lemma run_spec (s : State) (j : Nat) : s.log <:+ (s.run (.ofModule m l) j).log ∧
    ((s.run (.ofModule m l) j).status = .running →
      (s.run (.ofModule m l) j).steps = s.steps + j) := by
  induction j generalizing s with
  | zero => exact ⟨suffix_rfl, fun _ => rfl⟩
  | succ j ih =>
    by_cases hs : s.status = .running
    · rw [run_succ hs]
      obtain ⟨hsteps, hlog⟩ := step_spec (m := m) (l := l) s
      obtain ⟨hlog', hsteps'⟩ := ih (s.step (.ofModule m l))
      exact ⟨hlog.trans hlog', fun h => by rw [hsteps' h, hsteps]; omega⟩
    · rw [run_of_ended hs]
      exact ⟨suffix_rfl, fun h => absurd h hs⟩

/-- As long as the limits on steps say the same, a run is the same under both limits, unless it is
stopped for the depth of its calls. -/
lemma run_unaffected (hd : l.depth ≤ q.depth) {j : Nat}
    (h : ∀ i ≤ s.steps + j, q.exceeded? i = l.exceeded? i) :
    Unaffected l q (s.run (.ofModule m l) j) (s.run (.ofModule m q) j) := by
  induction j generalizing s with
  | zero => exact .inl rfl
  | succ j ih =>
    by_cases hs : s.status = .running
    · rw [run_succ hs, run_succ hs]
      have hstep : Unaffected l q (s.step (.ofModule m l)) (s.step (.ofModule m q)) := by
        rw [step_eq, step_eq, h (s.steps + 1) (by omega)]
        cases l.exceeded? (s.steps + 1) with
        | some n => exact .inl rfl
        | none => exact (proceeds_advance hd { s with steps := s.steps + 1 }).unaffected
      rcases hstep with heq | ⟨hlt, f, hf⟩
      · rw [heq]
        refine ih fun i hi => h i ?_
        rw [(step_spec s).1] at hi
        omega
      · rw [run_of_ended (s := s.step (.ofModule m l)) (by rw [hf]; nofun)]
        exact .inr ⟨hlt, f, hf⟩
    · rw [run_of_ended hs, run_of_ended hs]
      exact .inl rfl

/-! ## The start and the end of a run -/

lemma start_spec (hd : l.depth ≤ q.depth) : (ofModule m l).start.steps = 0 ∧
    Unaffected l q (ofModule m l).start (ofModule m q).start ∧
    ∀ n, (ofModule m l).start.status ≠ .trapped (.stepLimit n) := by
  have hstart (l : Limits) : (ofModule m l).start = (ofModule m l).main?.elim
      { status := .trapped .noMain }
      fun r => settle {} (enter (.ofModule m l) {} r [] 0) := by
    unfold Program.start
    cases (ofModule m l).main? with
    | none => rfl
    | some r =>
      dsimp only [Option.elim]
      cases enter (.ofModule m l) {} r [] 0 <;> rfl
  rw [hstart l, hstart q, show (ofModule m q).main? = (ofModule m l).main? from rfl]
  cases (ofModule m l).main? with
  | none => exact ⟨rfl, .inl rfl, by rintro n ⟨⟩⟩
  | some r =>
    have h := proceeds_enter (m := m) hd {} r [] 0
    exact ⟨h.settle.1, h.unaffected, h.settle.2.2 rfl⟩

def Program.EndsIn (p : Program) (s : State) : Prop :=
  s.status ≠ .running ∧ ∃ n, p.start.run p n = s

lemma Program.EndsIn.iff_eq (hs : p.EndsIn s) : p.EndsIn t ↔ t = s := by
  refine ⟨fun ⟨ht, j, hj⟩ => ?_, fun h => h ▸ hs⟩
  obtain ⟨hs, i, hi⟩ := hs
  have hij : p.start.run p (i + j) = s := by rw [run_add, hi, run_of_ended hs]
  rw [Nat.add_comm, run_add, hj, run_of_ended ht] at hij
  exact hij

lemma output_prefix_of_run {i j : Nat} (h : s.run (.ofModule m l) i = r) (hj : i ≤ j) :
    r.output <+: (s.run (.ofModule m l) j).output := by
  obtain ⟨k, rfl⟩ := Nat.exists_eq_add_of_le hj
  rw [run_add, h]
  obtain ⟨more, hmore⟩ := (run_spec (m := m) (l := l) r k).1
  rw [output, output, ← hmore, reverse_append, flatMap_append]
  exact prefix_append _ _

lemma output_prefix_of_endsIn {n : Nat} (ht : (ofModule m l).EndsIn t)
    (h : (ofModule m l).start.run (.ofModule m l) n = r) (hr : r.status = .running) :
    r.output <+: t.output := by
  obtain ⟨hended, j, rfl⟩ := ht
  refine output_prefix_of_run h (Nat.le_of_not_lt fun hlt => ?_)
  obtain ⟨k, rfl⟩ := Nat.exists_eq_add_of_le (Nat.le_of_lt hlt)
  rw [run_add, run_of_ended hended] at h
  exact hended (h ▸ hr)

/-! ## Limits on steps -/

/-- The program of a module under a limit on steps and one on the depth of calls. -/
abbrev within (m : Module) (limit : Option Nat) (d : Nat) : Program := .ofModule m ⟨limit, d⟩

lemma exceeded?_of_le {limit : Option Nat} {d i : Nat} (h : ∀ n ∈ limit, i ≤ n) :
    Limits.exceeded? ⟨limit, d⟩ i = none := by
  refine filter_eq_none_iff.2 fun n hn => ?_
  simpa using h n hn

lemma status_run_ne_stepLimit {d j : Nat} (hs : ∀ n, s.status ≠ .trapped (.stepLimit n)) (n : Nat) :
    (s.run (within m none d) j).status ≠ .trapped (.stepLimit n) := by
  induction j generalizing s with
  | zero => exact hs n
  | succ j ih =>
    by_cases hrunning : s.status = .running
    · rw [run_succ hrunning]
      refine ih ?_
      rw [step_eq]
      exact (proceeds_advance (q := ⟨none, d⟩) (Nat.le_refl d) _).settle.2.2 hrunning
    · rw [run_of_ended hrunning]
      exact hs n

lemma exists_first_steps (m : Module) (d n : Nat) : ∃ r : State,
    (∀ limit : Option Nat, (∀ k ∈ limit, n ≤ k) →
      (within m limit d).start.run (within m limit d) n = r) ∧
    (∀ k, r.status ≠ .trapped (.stepLimit k)) ∧
    (r.status = .running → r.steps = n ∧ (within m (some n) d).run =
      { r with steps := n + 1, status := .trapped (.stepLimit n) }) := by
  obtain ⟨hzero, -, hstatus⟩ := start_spec (m := m) (l := ⟨none, d⟩) (q := ⟨none, d⟩) (Nat.le_refl d)
  have hrun (limit : Option Nat) (h : ∀ k ∈ limit, n ≤ k) :
      (within m limit d).start.run (within m limit d) n =
        (within m none d).start.run (within m none d) n := by
    refine (run_unaffected (l := ⟨none, d⟩) (q := ⟨limit, d⟩) (Nat.le_refl d) fun i hi => ?_).resolve_right
      fun h => Nat.lt_irrefl d h.1
    rw [show (within m limit d).start.steps = 0 from hzero, Nat.zero_add] at hi
    exact exceeded?_of_le fun k hk => Nat.le_trans hi (h k hk)
  refine ⟨_, hrun, status_run_ne_stepLimit hstatus, fun hr => ?_⟩
  have hsteps := (run_spec _ _).2 hr
  rw [hzero, Nat.zero_add] at hsteps
  refine ⟨hsteps, ?_⟩
  change (within m (some n) d).start.run _ (n + 1) = _
  have hover : Limits.exceeded? ⟨some n, d⟩ (n + 1) = some n :=
    filter_some_pos (decide_eq_true (Nat.lt_succ_self n))
  rw [run_add, hrun (some n) (by simp), run_succ hr, step_eq, hsteps, hover]
  rfl

def State.StoppedBy (s : State) (code : Bytes) : Prop :=
  ∃ trap, s.status = .trapped trap ∧ trap.code = code

lemma stoppedBy_stepLimit_iff : s.StoppedBy "VM1006" ↔ ∃ n, s.status = .trapped (.stepLimit n) := by
  refine ⟨fun ⟨trap, hs, hcode⟩ => ?_, fun ⟨n, hs⟩ => ⟨_, hs, rfl⟩⟩
  cases trap with
  | stepLimit n => exact ⟨n, hs⟩
  | _ => exact absurd hcode (by simp only [Trap.code]; decide)

def spin : Module :=
  { funcs := [{ id := 1, name := "main", result := .invalid, args := [], phis := []
                blocks := #[{ label := 1, instrs := #[.call 0 0 "printi" [.lit (.int 7)]]
                              term := .goto 1 }] }]
    main := some 1, pool := [], labels := [], types := #[] }

end VecLang.Machine
