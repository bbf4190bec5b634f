import VecLang.Proofs.Machine.Invariant

/-!
# The two machines side by side

One step of the machine and one of the textbook machine keep the two in the same state
(`Alike`), and so do whole runs.
-/

namespace VecLang.Machine

open Ssa Textbook Stateful List Option Program

variable {W : World} {g : Func} {q : Plan} {params : List VarId} {fr : Frame} {c : Call}
  {frs : List Frame} {cs : List Call} {s : State} {t : Textbook.State} {limits : Limits}

/-- The two machines do the same: they go on alike, or both stop. -/
def Agree (W : World) : Except Status State → Except Status Textbook.State → Prop
  | .ok s, .ok t => Alike W s t
  | .error a, .error b => b = a ∧ W.Fine a
  | _, _ => False

lemma Alike.withStack (h : Alike W s t) (hst : Stacks W frs cs) :
    Alike W { s with stack := frs } { t with stack := cs } :=
  ⟨hst, h.steps, h.log, h.status, h.fine⟩

lemma Alike.withLog (h : Alike W s t) (e : Event) :
    Alike W { s with log := e :: s.log } { t with log := e :: t.log } :=
  ⟨h.calls, h.steps, congrArg (e :: ·) h.log, h.status, h.fine⟩

/-! ## Where a call stands -/

variable {i : Instr}

namespace StandsAt

variable {k : Nat} {b : Block}

section

variable (h : StandsAt W g q k fr c)
include h

lemma routine : fr.routine = .ofFunc g := by
  obtain ⟨_, _, _, _, _, hf⟩ := h
  exact hf.tracks.routine

lemma instr (hhome : W.Home g q params)
    (hb : g.blocks[fr.block]? = some b) (hi : b.instrs[k]? = some i) :
    ∃ σ, Follows W g q fr c σ ∧ (W.setting g q).InstrOk σ i ∧
      (i.dst ≠ 0 → W.module.pool.get? i.dst = none ∧ ∀ p ∈ g.phis, p.dst ≠ i.dst) ∧
      ∀ {fr' c'}, fr'.block = fr.block → Follows W g q fr' c' (σ.after q i) →
        StandsAt W g q (k + 1) fr' c' := by
  obtain ⟨b', e, hb', he, -, hf⟩ := h
  cases hb.symm.trans hb'
  obtain ⟨b', e', hb', he', -, hcode, -⟩ :=
    hhome.certificate.blocks _ (Array.getElem?_eq_some_iff.1 hb).1
  cases hb.symm.trans hb'
  cases he.symm.trans he'
  rw [← Array.getElem?_toList] at hi
  refine ⟨_, hf, hcode.instrOk hi, hhome.certificate.dst hb (mem_of_getElem? hi),
    fun {fr' c'} hblock hf' => ?_⟩
  refine ⟨b, e, hblock ▸ hb, hblock ▸ he, (List.getElem?_eq_some_iff.1 hi).1, ?_⟩
  rw [take_add_one, hi, toList_some, Setting.afterAll_append]
  exact hf'

lemma term (hhome : W.Home g q params)
    (hb : g.blocks[fr.block]? = some b) (hi : b.instrs[k]? = none) :
    ∃ σ, Follows W g q fr c σ ∧ (W.setting g q).EndOk fr.block σ b.term := by
  obtain ⟨b', e, hb', he, -, hf⟩ := h
  cases hb.symm.trans hb'
  obtain ⟨b', e', hb', he', -, -, hend⟩ :=
    hhome.certificate.blocks _ (Array.getElem?_eq_some_iff.1 hb).1
  cases hb.symm.trans hb'
  cases he.symm.trans he'
  rw [take_of_length_le (by simpa using hi)] at hf
  exact ⟨_, hf, hend⟩

lemma moved (next : Nat) : StandsAt W g q k { fr with next } { c with next } := by
  obtain ⟨b, e, hb, he, hk, hf⟩ := h
  exact ⟨b, e, hb, he, hk, hf.moved next⟩

end

end StandsAt

/-! ## Functions by number -/

variable {id : FunId}

lemma builtin_cases {table : SymbolTable} (h : Resolved.FunsWellFormed table) {f : Fun}
    (hf : table.fun? id = some f) :
    (isBuiltin f.name = true ∧ f.params.length = 1 ∧ f.result = .invalid) ∨
      (isBuiltin f.name = false ∧ f.builtin = none) := by
  cases hb : SymbolTable.builtin.fun? id with
  | none =>
    obtain ⟨hnone, hname⟩ := h.declared hf hb
    refine .inr ⟨?_, hnone⟩
    have hi : f.name ≠ "printi" := hname _ (Array.mem_of_getElem? (i := 0) rfl)
    have hr : f.name ≠ "printr" := hname _ (Array.mem_of_getElem? (i := 1) rfl)
    have hb : f.name ≠ "printb" := hname _ (Array.mem_of_getElem? (i := 2) rfl)
    rw [isBuiltin, printed?, if_neg hi, if_neg hr, if_neg hb]
    rfl
  | some f' =>
    cases (h.builtin hb).symm.trans hf
    have hall : ∀ f ∈ SymbolTable.builtin.funs.toList,
        isBuiltin f.name = true ∧ f.params.length = 1 ∧ f.result = .invalid := by decide
    exact .inl (hall f (Array.mem_toList_iff.2 (Array.mem_of_getElem? hb)))

lemma exists_home (hW : W.Lawful) (hg : g ∈ W.module.funcs) {sym : Fun}
    (hsym : W.table.fun? g.id = some sym) : g.result = sym.result ∧ ∃ q, W.Home g q sym.params := by
  obtain ⟨sym', q, hsym', -, -, hresult, hcert, htyped⟩ := hW.compiled.funcs g hg
  cases hsym'.symm.trans hsym
  exact ⟨hresult, q, hcert, htyped⟩

lemma exists_find?_ofFunc {funcs : List Func} (hg : g ∈ funcs) (hid : g.id = id) :
    ∃ g' ∈ funcs, g'.id = id ∧
      (funcs.map Routine.ofFunc).find? (fun r => r.func.id = id) = some (.ofFunc g') := by
  have hsome : ((funcs.map Routine.ofFunc).find? fun r => r.func.id = id).isSome :=
    find?_isSome.2 ⟨_, List.mem_map.2 ⟨g, hg, rfl⟩, decide_eq_true hid⟩
  obtain ⟨r, hr⟩ := isSome_iff_exists.1 hsome
  obtain ⟨g', hg', rfl⟩ := List.mem_map.1 (mem_of_find?_eq_some hr)
  exact ⟨g', hg', of_decide_eq_true (find?_some hr :), hr⟩

lemma exists_callee (hW : W.Lawful) (limits : Limits) {sym : Fun}
    (hsym : W.table.fun? id = some sym) (hbuiltin : sym.builtin = none) :
    ∃ g q, (ofModule W.module limits).callee? id = some (.ofFunc g) ∧
      g.result = sym.result ∧ W.Home g q sym.params := by
  obtain ⟨g, hg, hid⟩ := hW.compiled.defined hsym hbuiltin
  obtain ⟨g', hg', hid', hfind⟩ := exists_find?_ofFunc (mem_reverse.2 hg) hid
  rw [map_reverse] at hfind
  obtain ⟨hresult, q, hhome⟩ := exists_home hW (mem_reverse.1 hg') (hid' ▸ hsym)
  exact ⟨g', q, hfind, hresult, hhome⟩

lemma exists_main (hW : W.Lawful) (limits : Limits) :
    ∃ g q, (ofModule W.module limits).main? = some (.ofFunc g) ∧ W.Home g q [] := by
  obtain ⟨id, sym, hmain, hsym, hbuiltin, hparams⟩ := hW.compiled.main
  obtain ⟨g, hg, hid⟩ := hW.compiled.defined hsym hbuiltin
  obtain ⟨g', hg', hid', hfind⟩ := exists_find?_ofFunc hg hid
  obtain ⟨-, q, hhome⟩ := exists_home hW hg' (hid' ▸ hsym)
  refine ⟨g', q, ?_, hparams ▸ hhome⟩
  rw [main?, ofModule, hmain]
  exact hfind

/-! ## Instructions -/

variable {σ : Point}

lemma alike_define (h : Alike W s t) (hW : W.Lawful) (hhome : W.Home g q params)
    (hrest : Rest W g.result fr.resultTo frs cs) {k : Nat} (hf : Follows W g q fr c σ)
    (hfree : i.dst ≠ 0 → W.module.pool.get? i.dst = none ∧ ∀ p ∈ g.phis, p.dst ≠ i.dst)
    (hthen : ∀ {fr' c'}, fr'.block = fr.block → Follows W g q fr' c' (σ.after q i) →
      StandsAt W g q (k + 1) fr' c') {ty : Ty} (hty : W.module.types[i.dst]? = some ty)
    (hne : ty ≠ .invalid) {x : Value} (hx : W.Good ty x) :
    Alike W { s with stack := { fr with next := k + 1 }.define i.dst x :: frs }
      { t with stack := { c with next := k + 1 }.define i.dst x :: cs } := by
  have hdst : i.dst ≠ 0 := by
    intro hzero
    rw [hzero, hW.compiled.zero] at hty
    exact hne (Option.some.inj hty).symm
  obtain ⟨hpool, hphis⟩ := hfree hdst
  obtain ⟨hblock, hnext, hto⟩ := { fr with next := k + 1 }.place_define i.dst x
  refine h.withStack ⟨g, q, params, hhome, ?_, ?_⟩
  · rw [hnext]
    exact hthen hblock ((hf.moved (k + 1)).define hhome hdst hpool hphis hty hx)
  · rw [hto]
    exact hrest

lemma Rest.length_eq {result : Ty} {resultTo : ValueId} (h : Rest W result resultTo frs cs) :
    cs.length = frs.length := by
  induction frs generalizing cs result resultTo with
  | nil =>
    cases cs with
    | nil => rfl
    | cons => exact h.elim
  | cons fr frs ih =>
    cases cs with
    | nil => exact h.elim
    | cons c cs =>
      obtain ⟨g, q, params, -, -, hrest⟩ := h
      exact congrArg (· + 1) (ih hrest)

lemma agree_enter (h : Alike W s t) (hW : W.Lawful) (hhome : W.Home g q params)
    {vs : List Value} (hvs : List.Forall₂ (fun p x => W.Good (W.types p) x) params vs)
    {resultTo : ValueId} (hrest : Rest W g.result resultTo frs cs) :
    Agree W ({ s with stack := frs }.enter (.ofModule W.module limits) (.ofFunc g) vs resultTo)
      ({ t with stack := cs }.enter (.ofModule W.module limits) g vs resultTo) := by
  obtain ⟨b, e, fr, c, hb, he, hfr, hc, hf⟩ := Follows.enter hhome hvs resultTo
  obtain ⟨hblock, hnext, hto⟩ := Frame.place_bindArgs hfr
  unfold State.enter Textbook.State.enter
  rw [hrest.length_eq]
  split
  · exact ⟨rfl, hW.callDepth _ _⟩
  · have hcalls : Stacks W (fr :: frs) (c :: cs) := by
      refine ⟨g, q, params, hhome, ⟨b, e, ?_, ?_, ?_, ?_⟩, hto ▸ hrest⟩
      · rw [hblock]
        exact hb
      · rw [hblock]
        exact he
      · rw [hnext]
        exact Nat.zero_le _
      · rw [hnext]
        exact hf
    have hfr' : (Frame.enter (.ofFunc g) resultTo).bindArgs (Routine.ofFunc g).func.args vs = .ok fr :=
      hfr
    rw [hfr', hc]
    exact (h.withStack hcalls).withLog (.entered g.name)

lemma le_maxLane {lanes : List Nat} {i : Nat} (hi : i ∈ lanes) : i ≤ Resolved.maxLane lanes := by
  have hgen (n : Nat) : n ≤ lanes.foldl max n ∧ (i ∈ lanes → i ≤ lanes.foldl max n) := by
    clear hi
    induction lanes generalizing n with
    | nil => exact ⟨Nat.le_refl n, nofun⟩
    | cons l ls ih =>
      obtain ⟨hle, hmem⟩ := ih (max n l)
      refine ⟨Nat.le_trans (Nat.le_max_left n l) hle, fun hi => ?_⟩
      rcases mem_cons.1 hi with rfl | hi
      · exact Nat.le_trans (Nat.le_max_right n i) hle
      · exact hmem hi
  exact (hgen 0).2 hi

lemma lanes_le_four (t : Ty) : t.lanes ≤ 4 := by cases t <;> decide

variable {b : Block}

section

variable (h : Alike W s t)
include h

lemma agree_call (hW : W.Lawful) (hhome : W.Home g q params)
    (hrest : Rest W g.result fr.resultTo frs cs) {dst : ValueId} {callee : FunId}
    {name : Bytes} {args : List Atom} (hb : g.blocks[fr.block]? = some b)
    (hi : b.instrs[fr.next]? = some (.call dst callee name args))
    (hstands : StandsAt W g q fr.next fr c) :
    Agree W (s.instr (.ofModule W.module limits) { fr with next := fr.next + 1 } frs
        (.call dst callee name args))
      (t.instr (.ofModule W.module limits) { c with next := fr.next + 1 } cs
        (.call dst callee name args)) := by
  obtain ⟨σ, hf, ⟨f, hfun, rfl, hargs, hdst⟩, hfree, hthen⟩ := hstands.instr hhome hb hi
  have hf' := hf.moved (fr.next + 1)
  obtain ⟨vs, hvs, hvs', hall⟩ := hf'.exists_readAll hW hhome fun a (ha : a ∈ args) => by
    obtain ⟨p, -, ty, hty, -⟩ := exists_of_mem_left hargs ha
    exact ⟨ty, hty⟩
  simp only [State.instr, Textbook.State.instr, ofModule, hvs, hvs', bind, Except.bind]
  rcases builtin_cases hW.compiled.funs hfun with ⟨hbuiltin, hone, hnone⟩ | ⟨hbuiltin, hdeclared⟩
  · -- a line is printed, and no value is defined
    have hzero : dst = 0 := by
      by_contra hne
      rw [if_neg hne] at hdst
      exact hdst.1 hnone
    have hlen : vs.length = 1 := hall.length_eq.symm.trans (hargs.length_eq.trans hone)
    obtain ⟨v, rfl⟩ := length_eq_one_iff.1 hlen
    have hcalls : Stacks W ({ fr with next := fr.next + 1 } :: frs)
        ({ c with next := fr.next + 1 } :: cs) := by
      refine ⟨g, q, params, hhome, hthen rfl ?_, hrest⟩
      rwa [Setting.after_of_dst_eq_zero (i := .call dst callee f.name args) hzero]
    rw [hbuiltin]
    exact (h.withStack hcalls).withLog (.line ((printed? f.name v).getD []))
  · obtain ⟨g', q', hcallee, hresult, hhome'⟩ := exists_callee hW limits hfun hdeclared
    rw [ofModule] at hcallee
    rw [hbuiltin, hcallee]
    refine agree_enter h hW hhome' (forall₂_of_common hargs hall ?_)
      ⟨g, q, params, hhome, ⟨fr.next, b, callee, f.name, args, rfl, hb, hi, ?_, ?_⟩, hrest⟩
    · rintro a p v ⟨ty, hty, hfits⟩ hgood
      exact hW.param hfits (hgood ty hty)
    · intro hne
      rw [if_neg hne] at hdst
      rwa [hresult]
    · exact hstands.moved _

lemma agree_instr (hW : W.Lawful) (hhome : W.Home g q params)
    (hrest : Rest W g.result fr.resultTo frs cs)
    (hb : g.blocks[fr.block]? = some b) (hi : b.instrs[fr.next]? = some i)
    (hstands : StandsAt W g q fr.next fr c) :
    Agree W (s.instr (.ofModule W.module limits) { fr with next := fr.next + 1 } frs i)
      (t.instr (.ofModule W.module limits) { c with next := fr.next + 1 } cs i) := by
  obtain ⟨σ, hf, hok, hfree, hthen⟩ := hstands.instr hhome hb hi
  have hf' := hf.moved (fr.next + 1)
  have hdef {ty : Ty} (hty : W.module.types[i.dst]? = some ty) (hne : ty ≠ .invalid) {x : Value}
      (hx : W.Good ty x) := alike_define h hW hhome hrest hf hfree hthen hty hne hx
  cases i with
  | assign dst src =>
    obtain ⟨ty, hty, hsrc⟩ := hok
    obtain ⟨x, hx, hx', hgood⟩ := hf'.exists_read hW hhome hsrc
    simp only [State.instr, Textbook.State.instr, ofModule, hx, hx']
    exact hdef hty hsrc.ne_invalid hgood
  | binary dst op operand scaling l r =>
    obtain ⟨tl, tr, ty, hty, hl, hr, hres, rfl, rfl⟩ := hok
    obtain ⟨x, hx, hx', hgx⟩ := hf'.exists_read hW hhome hl
    obtain ⟨y, hy, hy', hgy⟩ := hf'.exists_read hW hhome hr
    have hyields := hW.binary hres hgx hgy
    simp only [State.instr, Textbook.State.instr, ofModule, hx, hx', hy, hy', bind, Except.bind]
    generalize binaryValue op (if op.isScaling tl tr then ty else tl) x y = v at hyields ⊢
    cases v with
    | ok v => exact hdef hty (BinaryOp.result?_ne_invalid hl.ne_invalid hres) hyields
    | error e => exact ⟨rfl, hyields⟩
  | unary dst op x =>
    obtain ⟨tx, ty, hty, hx, hres⟩ := hok
    obtain ⟨v, hv, hv', hgood⟩ := hf'.exists_read hW hhome hx
    simp only [State.instr, Textbook.State.instr, ofModule, hv, hv']
    have hne : ty ≠ .invalid := UnaryOp.result?_eq hres ▸ hx.ne_invalid
    exact hdef hty hne (hW.unary hres hgood)
  | call dst callee name args => exact agree_call h hW hhome hrest hb hi hstands
  | pack dst elems =>
    obtain ⟨ty, hty, hmem, hlen, helems⟩ := hok
    obtain ⟨vs, hvs, hvs', hall⟩ := hf'.exists_readAll hW hhome fun a ha => ⟨_, helems a ha⟩
    have hlen' : vs.length = ty.lanes := hall.length_eq.symm.trans hlen
    obtain ⟨v, hv⟩ := Value.exists_pack hlen'
    have htypeOf : W.module.typeOf dst = .ok ty := by
      rw [Module.typeOf, show W.module.types[dst]? = some ty from hty]
    have hne : ty ≠ .invalid := fun he => absurd (he ▸ hmem) (by decide)
    simp only [State.instr, Textbook.State.instr, ofModule, hvs, hvs', htypeOf, hv, bind,
      Except.bind, Except.mapError]
    exact hdef hty hne (hW.pack hmem hlen' hv)
  | swizzle dst x lanes =>
    obtain ⟨tx, ty, hty, hx, -, hlanes, hres⟩ := hok
    obtain ⟨v, hv, hv', -⟩ := hf'.exists_read hW hhome hx
    obtain ⟨w, hw⟩ := v.exists_swizzle hres fun i hi =>
      Nat.lt_of_lt_of_le (Nat.lt_of_le_of_lt (le_maxLane hi) hlanes) (lanes_le_four tx)
    have hne : ty ≠ .invalid := fun he => Typed.swizzle_result?_ne_invalid (he ▸ hres)
    simp only [State.instr, Textbook.State.instr, ofModule, hv, hv', hw, bind,
      Except.bind, Except.mapError]
    exact hdef hty hne (hW.swizzle hres hw)
  | unknown k => exact hok.elim

/-! ## Ends of blocks -/

lemma agree_goto (hhome : W.Home g q params)
    (hrest : Rest W g.result fr.resultTo frs cs) (hf : Follows W g q fr c σ) {w : Way}
    {j : Nat} (hj : j < g.blocks.size) (hw : w ∈ arrivals g.blocks j)
    (harrives : (W.setting g q).Arrives w j σ.env) :
    Agree W (s.goto fr frs j) (t.goto (.ofModule W.module limits) c cs w j) := by
  obtain ⟨b, e, c', hb, he, hc', hf'⟩ := hf.arrive hhome hj hw harrives
  have hcalls : Stacks W ({ fr with block := j, next := 0 } :: frs) (c' :: cs) :=
    ⟨g, q, params, hhome, ⟨b, e, hb, he, Nat.zero_le _, hf'⟩, hrest⟩
  have hfunc : fr.routine.func = g := by rw [hf.tracks.routine]; rfl
  rw [State.goto, if_pos (hfunc ▸ hj), Textbook.State.goto, ofModule, hc']
  exact h.withStack hcalls

lemma agree_jump (hhome : W.Home g q params)
    (hrest : Rest W g.result fr.resultTo frs cs) (hf : Follows W g q fr c σ)
    (hb : g.blocks[fr.block]? = some b) {l : LabelId} (hl : l ∈ b.term.targets)
    (hjump : ∀ j, blockOf? g.blocks l = some j → (W.setting g q).Arrives (.jump fr.block) j σ.env) :
    Agree W (s.jump (.ofModule W.module limits) fr frs l)
      (t.jump (.ofModule W.module limits) c cs l) := by
  obtain ⟨j, hj⟩ := isSome_iff_exists.1 (hhome.certificate.targets hb hl)
  obtain ⟨-, b', hb', -⟩ := blockOf?_eq_some hj
  have hfunc : fr.routine.func = g := by rw [hf.tracks.routine]; rfl
  have hcfunc : c.func = g := hf.tracks.func
  have hj' : blockOf? g.blocks l = some j := hj
  rw [State.jump, Textbook.State.jump, hfunc, hcfunc, hj', hf.tracks.block]
  exact agree_goto h hhome hrest hf (Array.getElem?_eq_some_iff.1 hb').1
    (jump_mem_arrivals hb hl hj) (hjump j hj)

lemma agree_fall (hhome : W.Home g q params)
    (hrest : Rest W g.result fr.resultTo frs cs) (hf : Follows W g q fr c σ)
    (hb : g.blocks[fr.block]? = some b) (hfall : b.term.fallsThrough = true)
    (harrives : (W.setting g q).Arrives (.fall fr.block) (fr.block + 1) σ.env) :
    Agree W (s.goto fr frs (fr.block + 1))
      (t.goto (.ofModule W.module limits) c cs (.fall c.block) (c.block + 1)) := by
  rw [hf.tracks.block]
  exact agree_goto h hhome hrest hf (hhome.certificate.last hb hfall) (fall_mem_arrivals hb hfall)
    harrives

lemma alike_leave (hW : W.Lawful)
    (hrest : Rest W g.result fr.resultTo frs cs) (hto : c.resultTo = fr.resultTo) {v : Option Value}
    (hv : g.result ≠ .invalid → ∃ x, v = some x ∧ W.Good g.result x) :
    Alike W (s.leave fr frs v) (t.leave c cs v) := by
  cases frs with
  | nil =>
    cases cs with
    | nil => exact ⟨trivial, h.steps, h.log, rfl, hW.exited _⟩
    | cons => exact hrest.elim
  | cons caller frs =>
    cases cs with
    | nil => exact hrest.elim
    | cons caller' cs =>
      obtain ⟨g', q', params, hhome, ⟨k, b, callee, name, args, hnext, hb, hi, hty, hstands⟩, hrest⟩ :=
        hrest
      obtain ⟨σ, hf, -, hfree, hthen⟩ := hstands.instr hhome hb hi
      unfold State.leave Textbook.State.leave
      rw [hto]
      refine h.withStack ?_
      by_cases hzero : fr.resultTo = 0
      · rw [if_pos hzero, if_pos hzero]
        refine ⟨g', q', params, hhome, hnext ▸ hthen rfl ?_, hrest⟩
        rwa [Setting.after_of_dst_eq_zero (i := .call _ callee name args) hzero]
      · rw [if_neg hzero, if_neg hzero]
        obtain ⟨hres, htype⟩ := hty hzero
        obtain ⟨x, rfl, hx⟩ := hv hres
        obtain ⟨hpool, hphis⟩ := hfree hzero
        obtain ⟨hblock, hnext', hto'⟩ := caller.place_define fr.resultTo x
        refine ⟨g', q', params, hhome, ?_, hto' ▸ hrest⟩
        rw [getD_some, hnext', hnext]
        exact hthen hblock (hf.define hhome (i := .call fr.resultTo callee name args) hzero hpool
          hphis htype hx)

lemma agree_term (hW : W.Lawful) (hhome : W.Home g q params)
    (hrest : Rest W g.result fr.resultTo frs cs) (hb : g.blocks[fr.block]? = some b)
    (hi : b.instrs[fr.next]? = none) (hstands : StandsAt W g q fr.next fr c) :
    Agree W (s.term (.ofModule W.module limits) fr frs b.term)
      (t.term (.ofModule W.module limits) c cs b.term) := by
  obtain ⟨σ, hf, hterm, hjump, hfall⟩ := hstands.term hhome hb hi
  have hto := hf.tracks.resultTo
  cases ht : b.term with
  | none =>
    have hthrough : b.term.fallsThrough = true := by rw [ht]; rfl
    exact agree_fall h hhome hrest hf hb hthrough (hfall hthrough)
  | branch l op r operand target =>
    rw [ht] at hterm
    obtain ⟨hl, hr, -, -⟩ := hterm
    obtain ⟨x, hx, hx', -⟩ := hf.exists_read hW hhome hl
    obtain ⟨y, hy, hy', -⟩ := hf.exists_read hW hhome hr
    have htarget : target ∈ b.term.targets := by rw [ht]; exact mem_singleton_self _
    have hthrough : b.term.fallsThrough = true := by rw [ht]; rfl
    simp only [State.term, Textbook.State.term, ofModule, hx, hx', hy, hy', bind, Except.bind]
    split
    · exact agree_jump h hhome hrest hf hb htarget (hjump target htarget)
    · exact agree_fall h hhome hrest hf hb hthrough (hfall hthrough)
  | goto target =>
    have htarget : target ∈ b.term.targets := by rw [ht]; exact mem_singleton_self _
    exact agree_jump h hhome hrest hf hb htarget (hjump target htarget)
  | ret v =>
    rw [ht] at hterm
    cases v with
    | none => exact alike_leave h hW hrest hto fun hne => absurd hterm hne
    | some a =>
      obtain ⟨x, hx, hx', hgood⟩ := hf.exists_read hW hhome hterm
      simp only [State.term, Textbook.State.term, ofModule, hx, hx']
      exact alike_leave h hW hrest hto fun _ => ⟨x, rfl, hgood⟩
  | halt => exact ⟨trivial, h.steps, h.log, rfl, hW.exited 1⟩
  | unknown k =>
    rw [ht] at hterm
    exact hterm.elim

/-! ## Steps and runs -/

lemma agree_advance (hW : W.Lawful) :
    Agree W (s.advance (.ofModule W.module limits)) (t.advance (.ofModule W.module limits)) := by
  have hcalls := h.calls
  unfold State.advance Textbook.State.advance
  generalize s.stack = frs, t.stack = cs at hcalls
  match frs, cs, hcalls with
  | [], [], _ => exact h
  | fr :: frs, c :: cs, ⟨g, q, params, hhome, hstands, hrest⟩ =>
    obtain ⟨b, e, hb, he, hk, hf⟩ := id hstands
    have hfunc : fr.routine.func.blocks[fr.block]? = some b := by rw [hf.tracks.routine]; exact hb
    have hcfunc : c.func.blocks[c.block]? = some b := by
      rw [hf.tracks.func, hf.tracks.block]
      exact hb
    simp only [hfunc, hcfunc, hf.tracks.next]
    cases hi : b.instrs[fr.next]? with
    | some i => exact agree_instr h hW hhome hrest hb hi hstands
    | none => exact agree_term h hW hhome hrest hb hi hstands

lemma Alike.step (hW : W.Lawful) :
    Alike W (s.step (.ofModule W.module limits)) (t.step (.ofModule W.module limits)) := by
  have h' : Alike W { s with steps := s.steps + 1 } { t with steps := t.steps + 1 } :=
    ⟨h.calls, congrArg (· + 1) h.steps, h.log, h.status, h.fine⟩
  have hadvance : Agree W (State.advance (.ofModule W.module limits) _)
    (Textbook.State.advance (.ofModule W.module limits) _) := agree_advance h' hW
  have hlimit : limits.exceeded? (t.steps + 1) = limits.exceeded? (s.steps + 1) := by rw [h.steps]
  unfold State.step Textbook.State.step
  dsimp only [ofModule] at hadvance ⊢
  rw [hlimit]
  cases limits.exceeded? (s.steps + 1) with
  | some n => exact ⟨h.calls, h'.steps, h.log, rfl, hW.stepLimit n⟩
  | none =>
    generalize State.advance _ _ = a, Textbook.State.advance _ _ = b at hadvance
    match a, b, hadvance with
    | .ok _, .ok _, halike => exact halike
    | .error e, .error _, ⟨rfl, hfine⟩ => exact ⟨h.calls, h'.steps, h.log, rfl, hfine⟩

lemma Alike.run (hW : W.Lawful) (n : Nat) :
    Alike W (s.run (.ofModule W.module limits) n) (t.run (.ofModule W.module limits) n) := by
  induction n generalizing s t with
  | zero => exact h
  | succ n ih =>
    rw [State.run, Textbook.State.run, h.status]
    split
    · exact ih (h.step hW)
    · exact h

end

/-! ## Starts -/

def Program.calling (p : Program) (r : Routine) (args : List Value) : State :=
  match ({} : State).enter p r args 0 with
  | .ok t => t
  | .error status => { status }

lemma Program.start_eq_calling {p : Program} {r : Routine} (h : p.main? = some r) :
    p.start = p.calling r [] := by
  rw [start, h]
  rfl

lemma alike_calling (hW : W.Lawful) (hhome : W.Home g q params) {vs : List Value}
    (hvs : List.Forall₂ (fun p x => W.Good (W.types p) x) params vs) :
    Alike W (calling (.ofModule W.module limits) (.ofFunc g) vs)
      (Textbook.State.calling (.ofModule W.module limits) g vs) := by
  have hinit : Alike W {} {} := ⟨trivial, rfl, rfl, rfl, hW.running⟩
  have hagree : Agree W (State.enter (.ofModule W.module limits) {} (.ofFunc g) vs 0)
      (Textbook.State.enter (.ofModule W.module limits) {} g vs 0) :=
    agree_enter hinit hW hhome hvs trivial
  unfold calling Textbook.State.calling
  generalize State.enter _ _ _ _ _ = a, Textbook.State.enter _ _ _ _ _ = b at hagree
  match a, b, hagree with
  | .ok _, .ok _, halike => exact halike
  | .error e, .error _, ⟨rfl, hfine⟩ => exact ⟨trivial, rfl, rfl, rfl, hfine⟩

lemma exists_alike (hW : W.Lawful) (limits : Limits) (n : Nat) : ∃ t,
    Alike W ((ofModule W.module limits).start.run (.ofModule W.module limits) n) t := by
  obtain ⟨g, q, hmain, hhome⟩ := exists_main hW limits
  rw [start_eq_calling hmain]
  exact ⟨_, (alike_calling hW hhome .nil).run hW n⟩

end VecLang.Machine
