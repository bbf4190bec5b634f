import VecLang.Proofs.Machine.Limits
import VecLang.Proofs.Machine.Tracking
import VecLang.Proofs.Ssa.Validity

/-!
# Valid code keeps control

What the check of a program says about its blocks is all that the machine needs to find its way:
in a program without defects every call stands in a block of its function, and control goes from
block to block only along the ways that are counted (`validate_keeps_control`).
-/

namespace VecLang.Ssa

open List

variable {m : Module} {f : Func} {fs : List Func} {seen : Assoc LabelId Bytes}

lemma mem_labels {i : Nat} {b : Block} (h : f.blocks[i]? = some b) :
    b.label ∈ f.blocks.toList.map (·.label) :=
  mem_map_of_mem (Array.mem_toList_iff.2 (Array.mem_of_getElem? h))

/-- No two blocks of the functions carry the same label. -/
def Unshared (fs : List Func) : Prop :=
  ∀ f ∈ fs, ∀ g ∈ fs, ∀ {i j : Nat} {b b' : Block}, f.blocks[i]? = some b → g.blocks[j]? = some b' →
    b.label = b'.label → b.label ≠ 0 → f = g ∧ i = j

lemma defects_eq_nil (h : f.defects m seen = []) : f.blocks ≠ #[] ∧
    labelDefects f.name seen f.blocks.toList = [] ∧ f.Leads := by
  unfold Func.defects at h
  split at h
  case isTrue => cases h
  case isFalse hne =>
    simp only [append_eq_nil_iff] at h
    exact ⟨by simpa using hne, h.1.1.1.1, controlDefects_eq_nil_iff.1 h.1.1.1.2⟩

lemma unshared_of_defectsFrom (h : ∀ x ∈ defectsFrom m seen fs, x.2 = []) :
    (∀ f ∈ fs, f.blocks ≠ #[] ∧ f.Leads) ∧ Unshared fs ∧
      ∀ f ∈ fs, ∀ l ≠ 0, l ∈ seen.keys → l ∉ f.blocks.toList.map (·.label) := by
  induction fs generalizing seen with
  | nil => exact ⟨nofun, nofun, nofun⟩
  | cons f fs ih =>
    obtain ⟨hf, hfs⟩ := forall_mem_cons.1 h
    obtain ⟨hne, hlabels, hleads⟩ := defects_eq_nil hf
    have hlabels := labelDefects_eq_nil_iff.1 hlabels
    obtain ⟨hlead, hun, hseen⟩ := ih hfs
    -- the labels of the first function are seen when the others are checked
    have hapart {g : Func} (hg : g ∈ fs) {i j : Nat} {b b' : Block} (hi : f.blocks[i]? = some b)
        (hj : g.blocks[j]? = some b') (heq : b.label = b'.label) (hb : b.label ≠ 0) : False :=
      hseen g hg b.label hb (mem_labelsSeen.2 (.inr ⟨hb, mem_labels hi⟩)) (heq ▸ mem_labels hj)
    refine ⟨forall_mem_cons.2 ⟨⟨hne, hleads⟩, hlead⟩, ?_,
      forall_mem_cons.2 ⟨fun l hl => (hlabels l hl).2, fun g hg l hl hmem =>
        hseen g hg l hl (mem_labelsSeen.2 (.inl hmem))⟩⟩
    refine forall_mem_cons.2 ⟨forall_mem_cons.2 ⟨fun hi hj heq hb => ?_, fun g hg => ?_⟩,
      fun g hg => forall_mem_cons.2 ⟨fun hi hj heq hb => ?_, hun g hg⟩⟩
    · exact ⟨rfl, distinct_of_count (fun l hl => (hlabels l hl).1) hi hj heq hb⟩
    · exact fun hi hj heq hb => (hapart hg hi hj heq hb).elim
    · exact (hapart hg hj hi heq.symm (heq ▸ hb)).elim

structure Module.Leads (m : Module) : Prop where
  funcs : ∀ f ∈ m.funcs, f.blocks ≠ #[] ∧ f.Leads
  unshared : Unshared m.funcs

lemma Module.leads_of_validate (h : m.validate = .ok none) : m.Leads := by
  unfold Module.validate at h
  split at h
  case h_1 => cases h
  case h_2 =>
    split at h
    case h_2 => cases h
    case h_1 hnone =>
      have hall : ∀ x ∈ defectsFrom m [] m.funcs, x.2 = [] := by
        simpa [Module.defects, filter_eq_nil_iff] using hnone
      obtain ⟨hfuncs, hun, -⟩ := unshared_of_defectsFrom hall
      exact ⟨hfuncs, hun⟩

def Way.source : Way → Nat
  | jump i | fall i => i

end VecLang.Ssa

namespace VecLang.Machine

open Ssa

variable {m : Module} {l : Limits} {s t : State} {fr fr' : Frame} {below : List Frame}
  {P : State → Prop}

/-- The call stands in a block of a function of the program. -/
def Stands (m : Module) (fr : Frame) : Prop :=
  fr.routine.func ∈ m.funcs ∧ fr.block < fr.routine.func.blocks.size

lemma Stands.define (h : Stands m fr) (id : ValueId) (v : Value) : Stands m (fr.define id v) := by
  rw [Frame.define_eq]
  exact h

lemma Stands.bindArgs (h : Stands m fr) {ids : List ValueId} {vs : List Value}
    (hfr : fr.bindArgs ids vs = .ok fr') : Stands m fr' := by
  fun_induction Frame.bindArgs fr ids vs with
  | case1 => cases hfr; exact h
  | case2 => cases hfr
  | case3 fr id ids v vs ih => exact ih (h.define id v) hfr

/-- Control is not lost: what comes next is as `P` says, or the program stops for another reason. -/
def Lands (P : State → Prop) : Except Status State → Prop
  | .ok t => P t
  | .error e => e ≠ .running ∧ ∀ trap : Trap, trap.code = "VM1004" → e ≠ .trapped trap

lemma lands_error {e : Status} (h : ∀ e', Status.Outer e' → e ≠ e') : Lands P (.error e) := by
  refine ⟨h _ .running, fun trap hcode => ?_⟩
  cases trap with
  | unknownLabel l f => exact h _ (.unknownLabel l f)
  | fellOff f => exact h _ (.fellOff f)
  | _ => exact absurd hcode (by simp only [Trap.code]; decide)

lemma Lands.bind {α : Type} {x : Except Status α} {f : α → Except Status State} (hx : Uncut x)
    (hf : ∀ a, x = .ok a → Lands P (f a)) : Lands P (x >>= f) := by
  cases x with
  | error e => exact lands_error fun e' he' heq => hx e' he' (congrArg _ heq)
  | ok a => exact hf a rfl

/-! ## One step -/

/-- The call `fr` goes on as `fr'` in a block of its function, along a way into that block. Where it
jumps there, no other block of the program carries the label. -/
def Goes (m : Module) (fr fr' : Frame) : Prop :=
  let f := fr.routine.func
  fr'.routine = fr.routine ∧ ∃ w ∈ arrivals f.blocks fr'.block, w.source = fr.block ∧
    (w = .jump fr.block → ∃ b l, f.blocks[fr.block]? = some b ∧ l ∈ b.term.targets ∧
      ∀ g ∈ m.funcs, ∀ k b', g.blocks[k]? = some b' → (b'.label = l ↔ g = f ∧ k = fr'.block))

/-- What may come next: the program goes on or ends by itself, and where only the innermost call is
another, `Q` holds of it. -/
structure Next (m : Module) (e : Status) (below : List Frame) (Q : Frame → Prop) (t : State) : Prop where
  status : t.status = e ∨ ∃ c, t.status = .exited c
  stands : ∀ fr ∈ t.stack, Stands m fr
  goes : ∀ {fr'}, t.stack = fr' :: below → Q fr'

section Step

variable (hm : m.Leads)

lemma lands_enter (hm : m.Leads) (hs : ∀ fr ∈ s.stack, Stands m fr) {r : Routine}
    (hr : r.func ∈ m.funcs) (vs : List Value) (resultTo : ValueId) :
    Lands (Next m s.status below fun _ => True) (s.enter (.ofModule m l) r vs resultTo) := by
  rcases Nat.lt_or_ge s.stack.length l.depth with h | h
  · rw [enter_of_room h]
    have hstart : Stands m (Frame.enter r resultTo) := ⟨hr, Array.size_pos_iff.2 (hm.funcs _ hr).1⟩
    exact .bind (uncut_bindArgs _ _) fun fr hfr =>
      ⟨.inl rfl, List.forall_mem_cons.2 ⟨hstart.bindArgs hfr, hs⟩, fun _ => trivial⟩
  · rw [enter_of_full h]
    exact lands_error nofun

variable (hfr : Stands m fr) (hbelow : ∀ fr ∈ below, Stands m fr)

include hm hfr hbelow

lemma lands_instr (i : Instr) : Lands (Next m s.status below fun _ => True)
    (s.instr (.ofModule m l) fr below i) := by
  have hdef (id : ValueId) (v : Value) :
      Next m s.status below (fun _ => True) { s with stack := fr.define id v :: below } :=
    ⟨.inl rfl, List.forall_mem_cons.2 ⟨hfr.define id v, hbelow⟩, fun _ => trivial⟩
  have hall : ∀ x ∈ fr :: below, Stands m x := List.forall_mem_cons.2 ⟨hfr, hbelow⟩
  cases i with
  | assign dst src => exact .bind (uncut_read _) fun v _ => hdef dst v
  | binary dst op operand scaling x y =>
    exact .bind (uncut_read _) fun x _ => .bind (uncut_read _) fun y _ =>
      .bind (uncut_binaryValue _ _ _ _) fun v _ => hdef dst v
  | unary dst op x => exact .bind (uncut_read _) fun v _ => hdef dst _
  | call dst callee name args =>
    refine .bind (uncut_readAll _) fun vs _ => ?_
    by_cases hname : isBuiltin name = true
    · rw [if_pos hname]
      cases vs with
      | nil => exact lands_error (by rintro _ (_ | _ | _ | _) ⟨⟩)
      | cons v vs => exact ⟨.inl rfl, hall, fun _ => trivial⟩
    · rw [if_neg hname]
      cases hr : (Program.ofModule m l).callee? callee with
      | none => exact lands_error (by rintro _ (_ | _ | _ | _) ⟨⟩)
      | some r =>
        obtain ⟨f, hf, rfl⟩ := List.mem_map.1 (List.mem_reverse.1 (List.mem_of_find?_eq_some hr))
        exact lands_enter (r := .ofFunc f) (s := { s with stack := fr :: below }) hm hall hf vs dst
  | pack dst elems =>
    exact .bind (uncut_readAll _) fun vs _ => .bind (uncut_broken _) fun t _ =>
      .bind (uncut_broken _) fun v _ => hdef dst v
  | swizzle dst x lanes =>
    exact .bind (uncut_read _) fun x _ => .bind (uncut_broken _) fun v _ => hdef dst v
  | unknown k => exact lands_error (by rintro _ (_ | _ | _ | _) ⟨⟩)

omit hm in
lemma lands_goto {j : Nat} (hj : j < fr.routine.func.blocks.size)
    (hgoes : Goes m fr { fr with block := j, next := 0 }) :
    Lands (Next m s.status below (Goes m fr)) (s.goto fr below j) := by
  rw [State.goto, if_pos hj]
  refine ⟨.inl rfl, List.forall_mem_cons.2 ⟨⟨hfr.1, hj⟩, hbelow⟩, fun heq => ?_⟩
  cases heq
  exact hgoes

variable {b : Block} (hb : fr.routine.func.blocks[fr.block]? = some b)

include hb

lemma lands_fall (hfall : b.term.fallsThrough = true) :
    Lands (Next m s.status below (Goes m fr)) (s.goto fr below (fr.block + 1)) :=
  lands_goto hfr hbelow ((hm.funcs _ hfr.1).2.last hb hfall)
    ⟨rfl, _, fall_mem_arrivals hb hfall, rfl, nofun⟩

lemma lands_jump {target : LabelId} (hl : target ∈ b.term.targets) :
    Lands (Next m s.status below (Goes m fr)) (s.jump (.ofModule m l) fr below target) := by
  obtain ⟨j, hj⟩ := Option.isSome_iff_exists.1 ((hm.funcs _ hfr.1).2.targets hb _ hl)
  obtain ⟨hne, b', hb', rfl⟩ := blockOf?_eq_some hj
  rw [State.jump, hj]
  refine lands_goto hfr hbelow (Array.getElem?_eq_some_iff.1 hb').1
    ⟨rfl, _, jump_mem_arrivals hb hl hj, rfl, fun _ => ⟨b, _, hb, hl, fun g hg k c hc => ?_⟩⟩
  refine ⟨fun heq => hm.unshared g hg _ hfr.1 hc hb' heq (heq ▸ hne), ?_⟩
  rintro ⟨rfl, rfl⟩
  cases hb'.symm.trans hc
  rfl

omit hm hfr hb in
lemma next_leave (v : Option Value) : Next m s.status below (Goes m fr) (s.leave fr below v) := by
  cases below with
  | nil => exact ⟨.inr ⟨_, rfl⟩, nofun, nofun⟩
  | cons caller rest =>
    obtain ⟨hcaller, hrest⟩ := List.forall_mem_cons.1 hbelow
    refine ⟨.inl rfl, List.forall_mem_cons.2 ⟨?_, hrest⟩, fun heq => ?_⟩
    · split
      · exact hcaller
      · exact hcaller.define _ _
    · exact absurd (congrArg List.length heq) (by simp [State.leave])

lemma lands_term :
    Lands (Next m s.status below (Goes m fr)) (s.term (.ofModule m l) fr below b.term) := by
  cases hterm : b.term with
  | none => exact lands_fall hm hfr hbelow hb (by rw [hterm]; rfl)
  | branch x op y operand target =>
    refine .bind (uncut_read _) fun x _ => .bind (uncut_read _) fun y _ => ?_
    split
    · exact lands_jump hm hfr hbelow hb (by rw [hterm]; exact List.mem_singleton_self _)
    · exact lands_fall hm hfr hbelow hb (by rw [hterm]; rfl)
  | goto target =>
    exact lands_jump hm hfr hbelow hb (by rw [hterm]; exact List.mem_singleton_self _)
  | ret v =>
    cases v with
    | none => exact next_leave hbelow none
    | some a => exact .bind (uncut_read _) fun v _ => next_leave hbelow (some v)
  | halt => exact ⟨.inr ⟨1, rfl⟩, nofun, nofun⟩
  | unknown k => exact lands_error nofun

end Step

/-! ## Every run -/

/-- The call `fr` comes to the end of its block and goes on in one step as `fr'`. -/
structure State.Transfers (p : Program) (s : State) (fr fr' : Frame) : Prop where
  running : s.status = .running ∧ (s.step p).status = .running
  stack : ∃ below, s.stack = fr :: below ∧ (s.step p).stack = fr' :: below
  atEnd : ∃ b, fr.routine.func.blocks[fr.block]? = some b ∧ b.instrs[fr.next]? = none

structure InControl (m : Module) (s : State) : Prop where
  stands : ∀ fr ∈ s.stack, Stands m fr
  calm : ¬ s.StoppedBy "VM1004"

namespace InControl

lemma of_trap {trap : Trap} (h : ∀ fr ∈ s.stack, Stands m fr) (hcode : trap.code ≠ "VM1004")
    (hs : s.status = .trapped trap) : InControl m s :=
  ⟨h, fun ⟨_, htrap, hcode'⟩ => hcode (by cases hs.symm.trans htrap; exact hcode')⟩

lemma settle {Q : Frame → Prop} {x : Except Status State} (hs : InControl m s)
    (hrun : s.status = .running) (hx : Lands (Next m s.status below Q) x) : InControl m (s.settle x) := by
  cases x with
  | error e => exact ⟨hs.stands, fun ⟨trap, hstatus, hcode⟩ => hx.2 trap hcode hstatus⟩
  | ok t =>
    refine ⟨hx.stands, fun ⟨trap, htrap, _⟩ => ?_⟩
    rcases hx.status with heq | ⟨c, heq⟩
    · cases (heq.trans hrun).symm.trans htrap
    · cases heq.symm.trans htrap

lemma advance (hm : m.Leads) (hs : InControl m s) (hrun : s.status = .running) :
    let t := s.settle (s.advance (.ofModule m l))
    InControl m t ∧ ∀ {fr below fr' b}, s.stack = fr :: below →
      fr.routine.func.blocks[fr.block]? = some b → b.instrs[fr.next]? = none →
      t.status = .running → t.stack = fr' :: below → Goes m fr fr' := by
  cases hstack : s.stack with
  | nil =>
    rw [State.advance, hstack]
    exact ⟨hs, nofun⟩
  | cons fr below =>
    obtain ⟨hfr, hbelow⟩ := List.forall_mem_cons.1 (hstack ▸ hs.stands)
    obtain ⟨b, hb⟩ : ∃ b, fr.routine.func.blocks[fr.block]? = some b :=
      ⟨_, Array.getElem?_eq_getElem hfr.2⟩
    rw [State.advance, hstack]
    simp only [hb]
    cases hi : b.instrs[fr.next]? with
    | some i =>
      have hfr' : Stands m { fr with next := fr.next + 1 } := hfr
      have hinstr := lands_instr (l := l) (s := s) hm hfr' hbelow i
      refine ⟨hs.settle hrun hinstr, fun heq hb' hnone => ?_⟩
      cases heq
      cases hb.symm.trans hb'
      cases hi.symm.trans hnone
    | none =>
      have hterm := lands_term (l := l) (s := s) hm hfr hbelow hb
      refine ⟨hs.settle hrun hterm, fun heq _ _ hstatus hnext => ?_⟩
      cases heq
      dsimp only at hstatus hnext
      cases hx : s.term (.ofModule m l) fr below b.term with
      | ok t =>
        rw [hx] at hterm hnext
        exact hterm.goes hnext
      | error e =>
        rw [hx] at hterm hstatus
        exact absurd hstatus hterm.1

lemma step (hm : m.Leads) (hs : InControl m s) (hrun : s.status = .running) :
    InControl m (s.step (.ofModule m l)) ∧
      ∀ {fr fr'}, s.Transfers (.ofModule m l) fr fr' → Goes m fr fr' := by
  obtain ⟨hnext, hgoes⟩ := advance (l := l) (s := { s with steps := s.steps + 1 }) hm
    ⟨hs.stands, hs.calm⟩ hrun
  refine ⟨?_, fun ⟨⟨_, hrunning⟩, ⟨below, hstack, hstep⟩, b, hb, hend⟩ => ?_⟩
  · rw [step_eq]
    split
    · exact of_trap hs.stands (by simp only [Trap.code]; decide) rfl
    · exact hnext
  · rw [step_eq] at hrunning hstep
    split at hrunning
    · cases hrunning
    · next hwithin =>
      rw [hwithin] at hstep
      exact hgoes hstack hb hend hrunning hstep

lemma run (hm : m.Leads) (hs : InControl m s) (n : Nat) :
    InControl m (s.run (.ofModule m l) n) := by
  induction n generalizing s with
  | zero => exact hs
  | succ n ih =>
    by_cases hrun : s.status = .running
    · rw [run_succ hrun]
      exact ih (hs.step hm hrun).1
    · rw [run_of_ended hrun]
      exact hs

lemma start (hm : m.Leads) : InControl m (Program.ofModule m l).start := by
  unfold Program.start
  cases hmain : (Program.ofModule m l).main? with
  | none => exact of_trap nofun (show Trap.noMain.code ≠ _ by decide) rfl
  | some r =>
    obtain ⟨main, -, hr⟩ := Option.bind_eq_some_iff.1 hmain
    obtain ⟨f, hf, rfl⟩ := List.mem_map.1 (List.mem_of_find?_eq_some hr)
    have hinit : InControl m {} := ⟨nofun, fun ⟨trap, htrap, _⟩ => by cases htrap⟩
    have henter : Lands (Next m _ [] _) (State.enter (.ofModule m l) {} (.ofFunc f) [] 0) :=
      lands_enter hm hinit.stands hf [] 0
    have hstart := hinit.settle rfl henter
    dsimp only
    cases hx : State.enter (.ofModule m l) {} (.ofFunc f) [] 0 <;> rw [hx] at hstart <;>
      exact hstart

end InControl

/-- Control is never lost in a program whose check reports nothing. However far it has run, all its
calls stand in blocks of their functions, and it was not stopped because a block is missing. When a
call comes to the end of a block, it goes on along one of the ways into a block that the check
counts; a jump leads to the one block of the program that carries the label. -/
theorem validate_keeps_control (m : Module) (limits : Limits) (hm : m.validate = .ok none) (n : Nat) :
    let p := Program.ofModule m limits
    let s := p.start.run p n
    (∀ fr ∈ s.stack, fr.routine.func ∈ m.funcs ∧ fr.block < fr.routine.func.blocks.size) ∧
    ¬ s.StoppedBy "VM1004" ∧
    ∀ fr fr', s.Transfers p fr fr' → Goes m fr fr' ∧
      (predecessors fr.routine.func).getD fr'.block 0 =
        (arrivals fr.routine.func.blocks fr'.block).length := by
  intro p s
  have hm := Module.leads_of_validate hm
  have hs : InControl m s := (InControl.start hm).run hm n
  refine ⟨hs.stands, hs.calm, fun fr fr' htransfer => ?_⟩
  obtain ⟨hstep, hgoes⟩ := hs.step (l := limits) hm htransfer.running.1
  obtain ⟨below, -, hstack⟩ := htransfer.stack
  have hlt := (hstep.stands fr' (hstack ▸ List.mem_cons_self)).2
  rw [(hgoes htransfer).1] at hlt
  exact ⟨hgoes htransfer, getD_predecessors hlt⟩

theorem validate_keeps_control_spin : spin.validate = .ok none ∧ ∃ fr fr',
    ((Program.ofModule spin {}).start.run (.ofModule spin {}) 1).Transfers (.ofModule spin {}) fr fr' ∧
      Goes spin fr fr' := by
  have hvalid : spin.validate = .ok none := by decide +kernel
  obtain ⟨-, -, hgoes⟩ := validate_keeps_control spin {} hvalid 1
  have htransfer : ((Program.ofModule spin {}).start.run (.ofModule spin {}) 1).Transfers
      (.ofModule spin {}) _ _ := ⟨⟨rfl, rfl⟩, ⟨[], rfl, rfl⟩, _, rfl, rfl⟩
  exact ⟨hvalid, _, _, htransfer, (hgoes _ _ htransfer).1⟩

end VecLang.Machine
