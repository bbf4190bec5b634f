import VecLang.Assembly.Program
import VecLang.Proofs.Machine.Safety
import VecLang.Proofs.Ssa.Validity

/-!
# Every program that is accepted becomes assembly

Selection of code stops only for operands, types and operations that no plan allows, whatever slots
were handed out before (`StopsFor`). With valid code this makes a compiler that never fails on what
was accepted (`compiles_of_analyze`).
-/

namespace VecLang.Assembly

open Ssa Stateful List BinaryOp
open Option hiding or_assoc

variable {α β : Type} {c : Context} {S : Setting} {σ : Point} {id : ValueId} {a : Atom} {v : Value}
  {M : Module}

lemma exists_mapM {ε : Type} {f : α → Except ε β} {as : List α} (h : ∀ a ∈ as, ∃ b, f a = .ok b) :
    ∃ bs, as.mapM f = .ok bs := by
  obtain ⟨bs, hbs, -⟩ := exists_mapM_eq_ok fun a ha => by
    obtain ⟨b, hb⟩ := h a ha
    exact ⟨b, hb, hb, trivial⟩
  exact ⟨bs, hbs⟩

/-! ## The pool -/

lemma mem_add {p : LiteralPool} {b x : Value.Bits} : x ∈ p.add b ↔ x ∈ p ∨ x = b := by
  unfold LiteralPool.add
  split
  next h =>
    rw [contains_iff_mem] at h
    exact ⟨.inl, fun h' => h'.elim (·) fun he => he ▸ h⟩
  · rw [mem_append, mem_singleton]

lemma mem_foldl_add {vs : List Value} {p : LiteralPool} {b : Value.Bits} :
    b ∈ vs.foldl (fun p v => p.add v.bits) p ↔ b ∈ p ∨ ∃ v ∈ vs, v.bits = b := by
  induction vs generalizing p with
  | nil => simp
  | cons v vs ih => simp [ih, mem_add, or_assoc, eq_comm]

lemma bits_mem_of_pool (h : M.pool.get? id = some v) : v.bits ∈ LiteralPool.ofModule M := by
  refine mem_foldl_add.2 (.inr ⟨v, mem_append_left _ (List.mem_map.2 ⟨(id, v), ?_, rfl⟩), rfl⟩)
  exact (mergeSort_perm _ _).mem_iff.2 (Assoc.mem_of_get?_eq_some h)

lemma bits_mem_of_literals {f : Func} (hf : f ∈ M.funcs) (hv : v ∈ LiteralPool.literals f) :
    v.bits ∈ LiteralPool.ofModule M :=
  mem_foldl_add.2 (.inr ⟨v, mem_append_right _ (mem_flatMap.2 ⟨f, hf, hv⟩), rfl⟩)

/-! ## Causes to stop -/

variable {E : Obstacle → Prop}

/-- Whatever slots are handed out, code is selected, or selection stops for a cause in `E`. -/
def StopsFor (E : Obstacle → Prop) (x : Select α) : Prop := ∀ s e, x s = .error e → E e

lemma stops_pure (a : α) : StopsFor E (pure a) := nofun

lemma stops_throw {e : Obstacle} (h : E e) : StopsFor E (throw e : Select α) := by
  intro s e' he
  cases he
  exact h

lemma stops_get : StopsFor E (get : Select Storage) := nofun

lemma stops_modifyGet (f : Storage → α × Storage) : StopsFor E (modifyGet f : Select α) := nofun

lemma stops_lift {x : Except Obstacle α} (h : ∀ e, x = .error e → E e) :
    StopsFor E (liftM x : Select α) := by
  cases x with
  | ok a => exact stops_pure a
  | error e => exact stops_throw (h e rfl)

lemma StopsFor.bind {x : Select α} {f : α → Select β} (hx : StopsFor E x)
    (hf : ∀ a, StopsFor E (f a)) : StopsFor E (x >>= f) := by
  intro s e he
  change Except.bind (x s) (fun p => f p.1 p.2) = _ at he
  cases hs : x s with
  | error e' =>
    rw [hs] at he
    cases he
    exact hx s e hs
  | ok p =>
    rw [hs] at he
    exact hf p.1 p.2 e he

/-- The value has a type, or may be without one. -/
def Typable (E : Obstacle → Prop) (c : Context) (id : ValueId) : Prop :=
  ∀ e, c.module.typeOf id = .error e → E (.broken e)

lemma typable_of_lt (h : id < c.module.types.size) : Typable E c id := by
  intro e he
  simp [Module.typeOf, Array.getElem?_eq_getElem h] at he

lemma stops_typeOf (h : Typable E c id) : StopsFor E (typeOf c id) := by
  unfold typeOf
  split
  · exact stops_pure _
  next e he => exact stops_throw (h e he)

lemma stops_allocate (h : Typable E c id) : StopsFor E (allocate c id) :=
  (stops_typeOf h).bind fun _ => stops_modifyGet _

lemma stops_sharedAddress (h : Typable E c id) : StopsFor E (sharedAddress c id) := by
  refine stops_get.bind fun s => ?_
  split
  · exact stops_pure _
  · exact (stops_allocate h).bind fun a => (stops_modifyGet _).bind fun _ => stops_pure a

lemma literalAddress_spec (h : v.bits ∈ c.pool) (s : Storage) :
    ∃ k, literalAddress c v s = .ok ({ base := .literal k }, s) ∧ c.pool[k]? = some v.bits := by
  obtain ⟨k, hk⟩ := isSome_iff_exists.1 (isSome_idxOf?.2 h)
  refine ⟨k, ?_, ?_⟩
  · rw [literalAddress, LiteralPool.address?, hk]
    rfl
  · obtain ⟨hlt, heq, -⟩ := idxOf?_eq_some_iff.1 hk
    rw [getElem?_eq_getElem hlt, heq]

lemma stops_literalAddress (h : v.bits ∈ c.pool) : StopsFor E (literalAddress c v) := by
  intro s e he
  obtain ⟨k, hk, -⟩ := literalAddress_spec h s
  cases hk.symm.trans he

variable (hpool : c.pool = LiteralPool.ofModule c.module)

include hpool

lemma stops_addressOf (h : Typable E c id) : StopsFor E (addressOf c id) := by
  unfold addressOf
  split
  next v hv => exact stops_literalAddress (hpool ▸ bits_mem_of_pool hv)
  · split
    · exact stops_sharedAddress h
    · refine stops_get.bind fun s => ?_
      split
      · exact stops_pure _
      · exact (stops_allocate h).bind fun a => (stops_modifyGet _).bind fun _ => stops_pure a

lemma stops_definedCode (h : Typable E c id) : StopsFor E (definedCode c id) := by
  unfold definedCode
  split
  · exact stops_pure _
  · exact (stops_sharedAddress h).bind fun _ => (stops_addressOf hpool h).bind fun _ =>
      (stops_typeOf h).bind fun _ => stops_pure _

/-- The operand has an address, or may be without one. -/
def Addressable (E : Obstacle → Prop) (c : Context) : Atom → Prop
  | .none => E .emptyOperand
  | .lit v => v.bits ∈ c.pool
  | .ref id _ => Typable E c id

lemma stops_operand (h : Addressable E c a) : StopsFor E (operand c a) := by
  cases a with
  | none => exact stops_throw h
  | lit v => exact stops_literalAddress h
  | ref id ty => exact stops_addressOf hpool h

omit hpool

/-! ## Instructions -/

lemma stops_pushArgs {xs : List (Atom × Int)} (h : ∀ x ∈ xs, StopsFor E (operand c x.1)) :
    StopsFor E (pushArgs c xs) := by
  induction xs with
  | nil => exact stops_pure _
  | cons x xs ih =>
    rw [forall_mem_cons] at h
    exact h.1.bind fun _ => (ih h.2).bind fun _ => stops_pure _

lemma stops_gatherCode {dst : Address} {lane : Nat} {elems : List Atom}
    (h : ∀ x ∈ elems, StopsFor E (operand c x)) : StopsFor E (gatherCode c dst lane elems) := by
  induction elems generalizing lane with
  | nil => exact stops_pure _
  | cons x xs ih =>
    rw [forall_mem_cons] at h
    exact h.1.bind fun _ => (ih h.2).bind fun _ => stops_pure _

lemma stops_concatCode {f : α → Select (List Inst)} {xs : List α}
    (h : ∀ x ∈ xs, StopsFor E (f x)) : StopsFor E (concatCode f xs) := by
  induction xs with
  | nil => exact stops_pure _
  | cons x xs ih =>
    rw [forall_mem_cons] at h
    exact h.1.bind fun _ => (ih h.2).bind fun _ => stops_pure _

/-- All that the code of an instruction needs is there, or may be missing. -/
structure Selectable (E : Obstacle → Prop) (c : Context) (i : Instr) : Prop where
  dst : Typable E c i.dst
  uses : ∀ a ∈ i.uses, Addressable E c a
  binary : ∀ d op t scaling l r, i = .binary d op t scaling l r → ∀ leftType dst x y e,
    binaryCode op t scaling leftType dst x y = .error e → E e
  unknown : ∀ k, i = .unknown k → E (.unknownInstr k)

structure TermSelectable (E : Obstacle → Prop) (c : Context) (t : Term) : Prop where
  uses : ∀ a ∈ t.uses, Addressable E c a
  branch : ∀ l op r ty target, t = .branch l op r ty target → ∀ x y e,
    compareCode op ty x y = .error e → E e
  unknown : ∀ k, t = .unknown k → E (.unknownTerm k)

section Code

variable (hpool : c.pool = LiteralPool.ofModule c.module)

include hpool

lemma stops_stepCode {i : Instr} (h : Selectable E c i) : StopsFor E (stepCode c i) := by
  have hop {a : Atom} (ha : a ∈ i.uses) := stops_operand hpool (h.uses a ha)
  have hdst := stops_addressOf hpool h.dst
  have hty := stops_typeOf h.dst
  refine StopsFor.bind ?_ fun code => ?_
  · cases i with
    | assign dst src =>
      exact hdst.bind fun _ => (hop (by simp [Instr.uses])).bind fun _ => hty.bind fun _ =>
        stops_pure _
    | binary dst op operand scaling l r =>
      exact hdst.bind fun _ => (hop (by simp [Instr.uses])).bind fun _ =>
        (hop (by simp [Instr.uses])).bind fun _ => stops_lift (h.binary _ _ _ _ _ _ rfl _ _ _ _)
    | unary dst op x =>
      exact hdst.bind fun _ => (hop (by simp [Instr.uses])).bind fun _ => hty.bind fun _ =>
        stops_pure _
    | call dst callee name args =>
      refine (stops_pushArgs fun x hx => hop (of_mem_zip hx).1).bind fun _ => ?_
      by_cases hd : dst = 0
      · simp only [if_pos hd]
        exact stops_pure _
      · simp only [if_neg hd]
        exact hdst.bind fun _ => hty.bind fun _ => stops_pure _
    | pack dst elems =>
      exact hdst.bind fun _ => (stops_gatherCode fun x hx => hop hx).bind fun _ =>
        hty.bind fun _ => stops_pure _
    | swizzle dst x lanes =>
      exact hdst.bind fun _ => (hop (by simp [Instr.uses])).bind fun _ => hty.bind fun _ =>
        stops_pure _
    | unknown kind => exact stops_throw (h.unknown kind rfl)
  · split
    · exact stops_pure _
    · exact (stops_definedCode hpool h.dst).bind fun _ => stops_pure _

lemma stops_termCode {t : Term} (h : TermSelectable E c t) : StopsFor E (termCode c t) := by
  have hop {a : Atom} (ha : a ∈ t.uses) := stops_operand hpool (h.uses a ha)
  cases t with
  | branch l op r operand target =>
    exact (hop (by simp [Term.uses])).bind fun _ => (hop (by simp [Term.uses])).bind fun _ =>
      (stops_lift (h.branch _ _ _ _ _ rfl _ _)).bind fun _ => stops_pure _
  | ret value =>
    cases value with
    | none => exact stops_pure _
    | some v => exact (hop (by simp [Term.uses])).bind fun _ => stops_pure _
  | none | goto _ | halt => exact stops_pure _
  | unknown kind => exact stops_throw (h.unknown kind rfl)

lemma stops_bodyCode (hargs : ∀ a ∈ c.func.args, Typable E c a)
    (hblocks : ∀ b ∈ c.func.blocks.toList, (∀ i ∈ b.instrs.toList, Selectable E c i) ∧
      TermSelectable E c b.term) : StopsFor E (bodyCode c) := by
  have hall : StopsFor E (blocksCode c c.func.blocks.toList) := by
    generalize c.func.blocks.toList = bs at hblocks
    induction bs with
    | nil => exact stops_pure _
    | cons b bs ih =>
      rw [forall_mem_cons] at hblocks
      have hblock : StopsFor E (blockCode c b) :=
        (stops_concatCode fun i hi => stops_stepCode hpool (hblocks.1.1 i hi)).bind fun _ =>
          (stops_termCode hpool hblocks.1.2).bind fun _ => stops_pure _
      exact hblock.bind fun _ => (ih hblocks.2).bind fun _ => stops_pure _
  exact (stops_concatCode fun a ha => stops_definedCode hpool (hargs a ha)).bind fun _ =>
    hall.bind fun _ => stops_pure _

end Code

lemma exists_compareCode {op : BinaryOp} (h : op.isRel = true) (t : Ty) (l r : Address) :
    ∃ x, compareCode op t l r = .ok x := by
  unfold compareCode
  split
  · exact ⟨_, rfl⟩
  · cases op <;> first | exact ⟨_, rfl⟩ | cases h

lemma exists_binaryCode {op : BinaryOp} {tl tr t : Ty} (h : op.result? tl tr = some t)
    (leftType : Ty) (dst l r : Address) : ∃ code, binaryCode op
      (if op.isScaling tl tr then t else tl) (op.isScaling tl tr) leftType dst l r = .ok code := by
  unfold binaryCode
  by_cases hrel : op.isRel = true
  · obtain ⟨x, hx⟩ := exists_compareCode hrel _ l r
    exact ⟨_, by rw [if_pos hrel]; exact except_bind_eq_ok.2 ⟨x, hx, rfl⟩⟩
  rw [if_neg hrel]
  cases op with
  | invalid => simp [result?, isScaling] at h
  | add | sub | mul | div => split_ifs <;> exact ⟨_, rfl⟩
  | lt | le | gt | ge | eq | ne => exact absurd rfl hrel
  | and | or =>
    -- only truth values are combined
    have hbool : tl = .bool := by
      by_contra hne
      simp [result?, isScaling, hne] at h
    subst hbool
    exact ⟨_, rfl⟩

lemma exists_funcCode {params : List VarId} (hpool : c.pool = LiteralPool.ofModule c.module)
    (hM : S.module = c.module) (hcert : Certificate S params)
    (hfunc : S.func = c.func) (hmem : c.func ∈ c.module.funcs) (hzero : 0 < S.module.types.size)
    (hargs : ∀ a ∈ c.func.args, a < c.module.types.size) : ∃ lines, funcCode c = .ok lines := by
  obtain ⟨types, htypes⟩ : ∃ types, c.func.args.mapM c.module.typeOf = .ok types := by
    refine exists_mapM fun a ha => ⟨c.module.types.getD a .invalid, ?_⟩
    simp [Module.typeOf, Array.getD, hargs a ha]
  obtain ⟨slots, hslots⟩ : ∃ slots, argumentSlots c = .ok slots :=
    ⟨_, except_bind_eq_ok.2 ⟨types, by rw [htypes]; rfl, rfl⟩⟩
  cases hrun : (bodyCode c).run slots with
  | ok r => exact ⟨_, except_bind_eq_ok.2 ⟨slots, hslots, except_bind_eq_ok.2 ⟨r, hrun, rfl⟩⟩⟩
  | error e =>
    refine (stops_bodyCode (E := fun _ => False) hpool (fun a ha => typable_of_lt (hargs a ha))
      (fun b hb => ?_) slots e hrun).elim
    have hlit {uses : List Atom} (huses : uses ⊆ b.instrs.toList.flatMap Instr.uses ++ b.term.uses)
        (hok : ∀ a ∈ uses, ∃ t σ, S.AtomOk σ a t) : ∀ a ∈ uses, Addressable (fun _ => False) c a := by
      intro a ha
      obtain ⟨t, σ, ht⟩ := hok a ha
      cases a with
      | none => exact ht
      | ref id ty =>
        exact typable_of_lt (E := fun _ => False) (hM ▸ (Array.getElem?_eq_some_iff.1 ht.2.2.1).1)
      | lit v =>
        change v.bits ∈ c.pool
        rw [hpool]
        exact bits_mem_of_literals hmem (mem_flatMap.2 ⟨b, hb, mem_filterMap.2 ⟨_, huses ha, rfl⟩⟩)
    obtain ⟨j, hj⟩ := mem_iff_getElem?.1 hb
    rw [Array.getElem?_toList, ← hfunc] at hj
    obtain ⟨hinstrs, σ, -, hterm⟩ := hcert.instrOk hj
    refine ⟨fun i hi => ?_, hlit (subset_append_right _ _) fun a ha => ?_, ?_, ?_⟩
    · obtain ⟨σ, -, hi'⟩ := hinstrs i hi
      refine ⟨typable_of_lt (hM ▸ hi'.typed.1.elim (· ▸ hzero) (·)),
        hlit (fun a ha => mem_append_left _ (mem_flatMap.2 ⟨i, hi, ha⟩)) fun a ha => ?_, ?_, ?_⟩
      · obtain ⟨t, ht⟩ := hi'.typed.2 a ha
        exact ⟨t, σ, ht⟩
      · rintro d op t scaling l r rfl leftType dst x y e he
        obtain ⟨tl, tr, t, -, -, -, hres, rfl, rfl⟩ := hi'
        obtain ⟨code, hcode⟩ := exists_binaryCode hres leftType dst x y
        cases hcode.symm.trans he
      · rintro k rfl
        exact hi'
    · obtain ⟨t, ht⟩ := hterm.uses ha
      exact ⟨t, σ, ht⟩
    · rintro l op r ty target ht x y e he
      rw [ht] at hterm
      obtain ⟨code, hcode⟩ := exists_compareCode hterm.2.2.1 ty x y
      cases hcode.symm.trans he
    · rintro k ht
      rw [ht] at hterm
      exact hterm

lemma exists_program {table : SymbolTable} {types : VarId → Ty} {fits : Typed.Fits}
    (hc : Compiled table types fits M) : ∃ p, Program.ofModule M = .ok p := by
  have hzero : 0 < M.types.size := (Array.getElem?_eq_some_iff.1 hc.zero).1
  obtain ⟨main, sym, hmain, hsym, hbuiltin, -⟩ := hc.main
  obtain ⟨g, hg, hid⟩ := hc.defined hsym hbuiltin
  obtain ⟨main, hmain⟩ : ∃ f, M.mainFunc? = some f := by
    refine isSome_iff_exists.1 ?_
    rw [Module.mainFunc?, hmain, bind_some, find?_isSome]
    exact ⟨g, hg, decide_eq_true hid⟩
  obtain ⟨funcs, hfuncs⟩ : ∃ funcs, (M.funcs.mapM fun f =>
      (funcCode (contextOf M (LiteralPool.ofModule M) f)).mapError (EmitError.inFunction f.name)) =
        .ok funcs := by
    refine exists_mapM fun f hf => ?_
    obtain ⟨sym, q, -, -, -, -, hcert, htyped⟩ := hc.funcs f hf
    have hargs : ∀ a ∈ f.args, a < M.types.size := fun a ha => by
      obtain ⟨v, hv⟩ := hcert.owner_of_arg ha
      exact (Array.getElem?_eq_some_iff.1 (htyped a v hv)).1
    obtain ⟨lines, hlines⟩ := exists_funcCode (c := contextOf M (LiteralPool.ofModule M) f) rfl rfl
      hcert rfl hf hzero hargs
    exact ⟨lines, by rw [hlines]; rfl⟩
  rw [Program.ofModule, hmain]
  exact ⟨_, except_bind_eq_ok.2 ⟨funcs, hfuncs, rfl⟩⟩

/-- A program that is accepted has code in single assignment form with which nothing is wrong, of
which no two functions define the same value, and it has assembly. -/
theorem compiles_of_analyze {content : Bytes} {file : Nat} {a : Analysis} {tm : Typed.Module}
    (h : analyze .typing content file = .ok a) (htyped : a.typed = some tm) :
    ∃ M, lowerModule tm a.table = .ok M ∧ M.validate = .ok none ∧ M.funcs.Pairwise Func.Apart ∧
      ∃ p, Program.ofModule M = .ok p := by
  obtain ⟨lo, m, hacc⟩ := accepted_of_analyze h htyped
  obtain ⟨M, hM⟩ := exists_lowerModule hacc
  have hc := Machine.compiled_of_accepted hacc hM
  obtain ⟨hvalid, hapart⟩ := validate_of_lowerModule hacc hc hM
  exact ⟨M, hM, hvalid, hapart, exists_program hc⟩

theorem compiles_countdown : ∃ a tm M, analyze .typing Machine.countdown = .ok a ∧
    a.typed = some tm ∧ lowerModule tm a.table = .ok M ∧ M.validate = .ok none ∧
    ∃ p, Program.ofModule M = .ok p := by
  have hrun : acceptedWith (fun _ _ => true) Machine.countdown = true := by decide +kernel
  obtain ⟨a, tm, ha, htm, -⟩ := exists_of_acceptedWith hrun
  obtain ⟨M, hM, hvalid, -, hp⟩ := compiles_of_analyze ha htm
  exact ⟨a, tm, M, ha, htm, hM, hvalid, hp⟩

end VecLang.Assembly
