import VecLang.Proofs.Machine.Safety

/-!
# Phis as shared cells

The machine keeps no value for a phi: all values of a chain share one cell, which is written when a
value other than that of a phi is defined. On code that lowering makes, this is as good as the
textbook machine, in which all phis of a block take the values of their branches at once.

## Main results

* `inStep_of_analyze`: the two machines carry out the same instructions with the same operands.
-/

namespace VecLang.Machine

open Ssa Stateful

structure SamePlace (fr : Frame) (c : Textbook.Call) : Prop where
  func : c.func = fr.routine.func
  block : c.block = fr.block
  next : c.next = fr.next
  resultTo : c.resultTo = fr.resultTo

def Frame.JustTaken (fr : Frame) (p : Phi) : Prop := fr.next = 0 ∧ p ∈ fr.routine.func.phis ∧
    ∃ b, fr.routine.func.blocks[fr.block]? = some b ∧ p.label = b.label

/-- The two machines are at the same point of the same run: all calls stand at the same places, what
comes next reads the same operands, and the phis of a block that was just entered have the same
values. -/
structure InStep (m : Module) (s : State) (t : Textbook.State) : Prop where
  status : t.status = s.status
  steps : t.steps = s.steps
  log : t.log = s.log
  places : List.Forall₂ SamePlace s.stack t.stack
  operands : ∀ fr ∈ s.stack.head?, ∀ c ∈ t.stack.head?, ∀ a ∈ fr.operands,
    ∃ x, fr.read m a = .ok x ∧ c.read m a = .ok x
  phis : ∀ fr ∈ s.stack.head?, ∀ c ∈ t.stack.head?, ∀ p, fr.JustTaken p →
    ∃ x, fr.value m p.dst = .ok x ∧ c.value m p.dst = .ok x

variable {W : World} {g : Func} {q : Plan} {params : List VarId} {fr : Frame} {c : Textbook.Call}
  {frs : List Frame} {cs : List Textbook.Call}

lemma StandsAt.samePlace {k : Nat} (h : StandsAt W g q k fr c) : SamePlace fr c := by
  obtain ⟨_, _, _, _, _, hf⟩ := h
  have ht := hf.tracks
  exact ⟨by rw [ht.func, ht.routine]; rfl, ht.block, ht.next, ht.resultTo⟩

lemma Rest.places {result : Ty} {resultTo : ValueId} (h : Rest W result resultTo frs cs) :
    List.Forall₂ SamePlace frs cs := by
  induction frs generalizing cs result resultTo with
  | nil =>
    cases cs with
    | nil => exact .nil
    | cons => exact h.elim
  | cons fr frs ih =>
    match cs, h with
    | _ :: _, ⟨g, q, params, _, ⟨_, _, _, _, _, _, _, _, _, hstands⟩, hrest⟩ =>
      exact .cons hstands.samePlace (ih hrest)

lemma Stacks.places (h : Stacks W frs cs) : List.Forall₂ SamePlace frs cs := by
  match frs, cs, h with
  | [], [], _ => exact .nil
  | _ :: _, _ :: _, ⟨g, q, params, _, hstands, hrest⟩ => exact .cons hstands.samePlace hrest.places

lemma StandsAt.justTaken (h : StandsAt W g q fr.next fr c) (hhome : W.Home g q params) {p : Phi}
    (hp : fr.JustTaken p) :
    ∃ x, fr.value W.module p.dst = .ok x ∧ c.value W.module p.dst = .ok x := by
  obtain ⟨b, e, hb, he, -, hf⟩ := id h
  obtain ⟨hnext, hphi, b', hb', hlabel⟩ := hp
  rw [h.routine] at hphi hb'
  cases hb.symm.trans hb'
  rw [hnext] at hf
  obtain ⟨v, e', -, hentry, hdst, -⟩ := hhome.certificate.phis p hphi
  rw [Plan.entryAt, if_neg (hlabel ▸ hhome.certificate.sites p hphi), ← hlabel] at he
  cases he.symm.trans hentry
  obtain ⟨x, hx, hx', -⟩ := hf.tracks.exists_value hhome.certificate (.inr (.inr ⟨v, hdst⟩))
  exact ⟨x, hx, hx'⟩

lemma Alike.inStep {s : State} {t : Textbook.State} (h : Alike W s t) (hW : W.Lawful) :
    InStep W.module s t := by
  have hcalls := h.calls
  refine ⟨h.status, h.steps, h.log, hcalls.places, ?_, ?_⟩
  all_goals
    generalize s.stack = frs, t.stack = cs at hcalls
    match frs, cs, hcalls with
    | [], [], _ => exact nofun
    | fr :: _, c :: _, ⟨g, q, params, hhome, hstands, _⟩ => ?_
  · rintro _ ⟨⟩ _ ⟨⟩ a ha
    obtain ⟨σ, hf, hall⟩ := hstands.operands hhome
    obtain ⟨ty, hty⟩ := hall a ha
    obtain ⟨x, hx, hx', -⟩ := hf.exists_read hW hhome hty
    exact ⟨x, hx, hx'⟩
  · rintro _ ⟨⟩ _ ⟨⟩ p hp
    exact hstands.justTaken hhome hp

/-- On the code of an accepted program, the machine with one cell for each chain of phis runs in
step with the textbook machine, from a call of any function with any arguments and under any
limits. So along the `k`-th way into a block, each of its phis comes to have the value of its `k`-th
branch. -/
theorem inStep_of_analyze {content : Bytes} {file : Nat} {a : Analysis} {tm : Typed.Module}
    (h : analyze .typing content file = .ok a) (htyped : a.typed = some tm) :
    ∃ M, lowerModule tm a.table = .ok M ∧ ∀ g ∈ M.funcs, ∀ vs : List Value,
      vs.length = g.args.length → ∀ (limits : Limits) (n : Nat),
      let p := Program.ofModule M limits
      InStep M ((p.calling (.ofFunc g) vs).run p n) ((Textbook.State.calling p g vs).run p n) := by
  obtain ⟨lo, m, hacc⟩ := accepted_of_analyze h htyped
  obtain ⟨M, hM⟩ := exists_lowerModule hacc
  have hcompiled := compiled_of_accepted hacc hM
  have hW := lawful_anyWorld hcompiled
  refine ⟨M, hM, fun g hg vs hlen limits n => ?_⟩
  obtain ⟨sym, -, hsym, -⟩ := hcompiled.funcs g hg
  obtain ⟨-, q, hhome⟩ := exists_home hW hg hsym
  have hvs : List.Forall₂ (fun p x => (anyWorld a.table tm.varType (Typed.Declared a.table) M).Good
      (tm.varType p) x) sym.params vs :=
    List.forall₂_iff_get.2 ⟨hhome.certificate.length.symm.trans hlen.symm, fun _ _ _ => trivial⟩
  exact ((alike_calling hW hhome hvs).run hW n).inStep hW

lemma exists_main_func {table : SymbolTable} {types : VarId → Ty} {fits : Typed.Fits} {M : Module}
    (h : Compiled table types fits M) : ∃ g ∈ M.funcs, g.args.length = 0 := by
  obtain ⟨id, sym, -, hsym, hbuiltin, hparams⟩ := h.main
  obtain ⟨g, hg, rfl⟩ := h.defined hsym hbuiltin
  obtain ⟨sym', q, hsym', -, -, -, hcert, -⟩ := h.funcs g hg
  cases hsym'.symm.trans hsym
  exact ⟨g, hg, by rw [hcert.length, hparams]; rfl⟩

theorem inStep_countdown : ∃ a tm M g, analyze .typing countdown = .ok a ∧ a.typed = some tm ∧
    lowerModule tm a.table = .ok M ∧ g ∈ M.funcs ∧ ([] : List Value).length = g.args.length ∧
    let p := Program.ofModule M {}
    InStep M ((p.calling (.ofFunc g) []).run p 40) ((Textbook.State.calling p g []).run p 40) := by
  have hrun : acceptedWith (fun _ _ => true) countdown = true := by decide +kernel
  obtain ⟨a, tm, ha, htm, -⟩ := exists_of_acceptedWith hrun
  obtain ⟨M, hM, hall⟩ := inStep_of_analyze ha htm
  obtain ⟨lo, m, hacc⟩ := accepted_of_analyze ha htm
  obtain ⟨g, hg, hargs⟩ := exists_main_func (compiled_of_accepted hacc hM)
  exact ⟨a, tm, M, g, ha, htm, hM, hg, hargs.symm, hall g hg [] hargs.symm {} 40⟩

end VecLang.Machine
