import VecLang.Proofs.Assembly.Frames

/-!
# The stack pointer

Code keeps track of the stack pointer without looking at it: at every line of the code of a function
the room that was taken since its beginning is known (`Levels`), however control got there (`Walk`).
So the stack pointer is aligned at every call (`storage_never_overlaps`).
-/

namespace VecLang.Assembly

open Ssa Stateful List Inst

variable {c : Context} {s s' : Storage} {α β : Type}

/-! ## The stack pointer -/

def Inst.written? : Inst → Option Reg
  | load r _ | move r _ | pop r | address r _ | moveIf _ r _ => some r
  | _ => none

/-- How far an instruction moves the stack pointer down. -/
def Inst.shift : Inst → Int
  | push _ => 8
  | pop _ => -8
  | reserve n => n
  | release n => -n
  | _ => 0

def Inst.isCall : Inst → Bool
  | call _ | callLibrary _ => true
  | _ => false

def Inst.target? : Inst → Option Bytes
  | jump l | jumpIf _ l => some l
  | _ => none

/-- Control may go on with the next instruction. -/
def Inst.falls : Inst → Bool
  | jump _ | ret => false
  | _ => true

/-- The stack pointer goes from `sp` to `sp'`; it may become anything where it is written. What is
called gives it back as it was. -/
def Inst.Moves (i : Inst) (sp sp' : Int) : Prop := i.written? = some .rsp ∨ sp' = sp - i.shift

/-- Control gets from the first line of the code to a line, with a stack pointer that was `start`
and is `sp`. -/
inductive Walk (code : List Line) (start : Int) : (pc : Nat) → (sp : Int) → Prop where
  | start : Walk code start 0 start
  | label {pc sp l} : Walk code start pc sp → code[pc]? = some (.label l) →
    Walk code start (pc + 1) sp
  | next {pc sp sp' i} : Walk code start pc sp → code[pc]? = some (.inst i) → i.falls →
    i.Moves sp sp' → Walk code start (pc + 1) sp'
  | jump {pc sp i l pc'} : Walk code start pc sp → code[pc]? = some (.inst i) →
    i.target? = some l → code[pc']? = some (.label l) → Walk code start pc' sp

/-- One line, and how much of the stack was taken before and after it: nothing where control comes
together, and a multiple of sixteen at calls. It is not known while a function is left. -/
inductive Level : Option Int → Line → Option Int → Prop where
  | label {l} : Level (some 0) (.label l) (some 0)
  | inst {n m : Int} {i : Inst} (hsp : i.written? ≠ some .rsp) (hcall : i.isCall → 16 ∣ n)
    (hjump : i.target?.isSome → n = 0) (hm : m = n + i.shift) : Level (some n) (.inst i) (some m)
  | leave {n} : Level (some n) (.inst (.move .rsp .rbp)) none
  | pop : Level none (.inst (.pop .rbp)) none
  | ret : Level none (.inst .ret) (some 0)

inductive Levels : Option Int → List Line → Option Int → Prop where
  | nil {n} : Levels n [] n
  | cons {n m k line code} : Level n line m → Levels m code k → Levels n (line :: code) k

lemma Levels.append {n m k : Option Int} {code code' : List Line} (h : Levels n code m)
    (h' : Levels m code' k) : Levels n (code ++ code') k := by
  induction h with
  | nil => exact h'
  | cons hline _ ih => exact .cons hline (ih h')

lemma Levels.exists_at {n k : Option Int} {code : List Line} (h : Levels n code k) :
    ∃ at? : Nat → Option Int, at? 0 = n ∧ at? code.length = k ∧
      ∀ pc line, code[pc]? = some line → Level (at? pc) line (at? (pc + 1)) := by
  induction h with
  | nil => exact ⟨fun _ => _, rfl, rfl, fun pc line h => by cases h⟩
  | @cons n m k line code hline _ ih =>
    obtain ⟨rest, hstart, hend, hrest⟩ := ih
    refine ⟨fun pc => pc.casesOn n rest, rfl, hend, fun pc l hl => ?_⟩
    cases pc with
    | zero =>
      cases hl
      change Level n line (rest 0)
      rwa [hstart]
    | succ pc => exact hrest pc l hl

lemma Walk.sp_eq {code : List Line} {start sp : Int} {pc : Nat} (h : Walk code start pc sp)
    {at? : Nat → Option Int} (hstart : at? 0 = some 0)
    (hat : ∀ pc line, code[pc]? = some line → Level (at? pc) line (at? (pc + 1))) :
    ∀ n, at? pc = some n → sp = start - n := by
  induction h with
  | start =>
    intro n hn
    cases hstart.symm.trans hn
    omega
  | @label pc sp l _ hline ih =>
    intro n hn
    have hlevel := hat pc _ hline
    rw [hn] at hlevel
    generalize hm : at? pc = m at hlevel
    cases hlevel
    exact ih _ hm
  | @next pc sp sp' i _ hline hfalls hmoves ih =>
    intro n hn
    have hlevel := hat pc _ hline
    rw [hn] at hlevel
    generalize hm : at? pc = m at hlevel
    cases hlevel with
    | inst hsp hcall hjump hshift =>
      have := ih _ hm
      have := hmoves.resolve_left hsp
      omega
    | ret => cases hfalls
  | @jump pc sp i l pc' _ hline htarget hlabel ih =>
    intro n hn
    -- both the jump and the label are at level zero
    have hlevel := hat pc' _ hlabel
    rw [hn] at hlevel
    have hfrom := hat pc _ hline
    generalize hm : at? pc = m at hfrom
    generalize at? (pc' + 1) = m' at hlevel
    generalize at? (pc + 1) = k at hfrom
    cases hlevel
    cases hfrom with
    | inst hsp hcall hjump hshift =>
      obtain rfl := hjump (by rw [htarget]; rfl)
      exact ih _ hm
    | leave => cases htarget
    | pop => cases htarget
    | ret => cases htarget

/-! ## Code that leaves the stack alone -/

def Inst.plain (i : Inst) : Bool :=
  i.written? ≠ some .rsp && !i.isCall && i.target?.isNone && i.shift = 0

variable {code : List Inst}

lemma levels_of_plain (h : code.all plain = true) (n : Int) :
    Levels (some n) (code.map .inst) (some n) := by
  induction code with
  | nil => exact .nil
  | cons i code ih =>
    rw [all_cons, Bool.and_eq_true] at h
    obtain ⟨⟨⟨hsp, hcall⟩, hjump⟩, hshift⟩ : ((i.written? ≠ some .rsp ∧ i.isCall = false) ∧
        i.target? = none) ∧ i.shift = 0 := by
      simpa [plain] using h.1
    exact .cons (.inst hsp (by simp [hcall]) (by simp [hjump]) (by simp [hshift])) (ih h.2)

lemma plain_copyCode (target : Target) (dst src : Address) (t : Ty) :
    (copyCode target dst src t).all plain = true := by
  unfold copyCode
  split <;> rfl

variable {op : BinaryOp} {t : Ty} {l r : Address}

lemma plain_compareCode {cond : Cond}
    (h : compareCode op t l r = .ok (code, cond)) : code.all plain = true := by
  unfold compareCode at h
  split at h
  · cases h
    rfl
  · cases op <;> cases h <;> rfl

lemma plain_wordCode {dst : Address}
    (h : wordCode op dst l r = .ok code) : code.all plain = true := by
  cases op <;> cases h <;> rfl

lemma plain_binaryCode {leftType : Ty} {scaling : Bool} {dst : Address}
    (h : binaryCode op t scaling leftType dst l r = .ok code) :
    code.all plain = true := by
  unfold binaryCode at h
  split at h
  · obtain ⟨⟨test, cond⟩, htest, h⟩ := except_bind_eq_ok.1 h
    cases h
    rw [all_append, plain_compareCode htest]
    rfl
  split at h
  · exact plain_wordCode h
  split at h
  · cases h
    split <;> rfl
  split at h
  · cases h
    cases op <;> rfl
  · unfold laneCode at h
    split at h
    · cases h
    · cases h
      rfl

lemma plain_unaryCode (op : UnaryOp) (t : Ty) (dst x : Address) :
    (unaryCode op t dst x).all plain = true := by
  unfold unaryCode
  split
  · rfl
  split <;> rfl

lemma plain_padCode (t : Ty) (dst : Address) : (padCode t dst).all plain = true := by
  unfold padCode
  split <;> rfl

/-! ## Selection -/

/-- The computation does nothing to the slots but ask for some, and what it returns is in `P`. -/
def Makes (c : Context) (P : α → Prop) (x : Select α) : Prop :=
  ∀ s a s', x s = .ok (a, s') → Answered c s s' ∧ P a

variable {P : α → Prop}

lemma makes_pure {a : α} (h : P a) : Makes c P (pure a) := by
  intro s a' s' hok
  cases pure_eq_ok.1 hok
  exact ⟨.none s, h⟩

lemma makes_throw {e : Obstacle} : Makes c P (throw e) := fun _ _ _ hok => absurd hok throw_ne_ok

lemma makes_lift {x : Except Obstacle α} (h : ∀ a, x = .ok a → P a) :
    Makes c P (liftM x : Select α) := by
  intro s a s' hok
  obtain ⟨a', ha', heq⟩ := lift_eq_ok.1 hok
  cases heq
  exact ⟨.none s, h a ha'⟩

lemma Makes.bind {Q : β → Prop} {x : Select α} {f : α → Select β}
    (h : Makes c P x) (h' : ∀ a, P a → Makes c Q (f a)) : Makes c Q (x >>= f) := by
  intro s b s' hok
  obtain ⟨a, s1, hx, hf⟩ := bind_eq_ok.1 hok
  obtain ⟨hs1, ha⟩ := h s a s1 hx
  obtain ⟨hs', hb⟩ := h' a ha s1 b s' hf
  exact ⟨hs1.trans hs', hb⟩

lemma makes_answer (r : Request) : Makes c (fun _ => True) (r.answer c) :=
  fun s _ _ hok => ⟨.more r (.none s) hok, trivial⟩

lemma makes_typeOf (id : ValueId) : Makes c (fun _ => True) (typeOf c id) := by
  intro s t s' hok
  obtain ⟨-, rfl⟩ := typeOf_eq_ok.1 hok
  exact ⟨.none _, trivial⟩

lemma makes_operand (a : Atom) : Makes c (fun _ => True) (operand c a) := by
  cases a with
  | none => exact makes_throw
  | ref id t => exact makes_answer (.own id)
  | lit v =>
    intro s x s' hok
    cases tidy_literalAddress hok
    exact ⟨.none _, trivial⟩

/-- Code that ends where it began. -/
def Steady (code : List Inst) : Prop := Levels (some 0) (code.map .inst) (some 0)

lemma Steady.append {code' : List Inst} (h : Steady code) (h' : Steady code') :
    Steady (code ++ code') := by
  unfold Steady
  rw [map_append]
  exact Levels.append h h'

variable {i : Inst}

lemma Steady.cons (h : Steady [i]) (h' : Steady code) : Steady (i :: code) := h.append h'

lemma makes_plain (h : code.all plain = true) :
    Makes c Steady (pure code) := makes_pure (levels_of_plain h 0)

lemma makes_definedCode (id : ValueId) : Makes c Steady (definedCode c id) := by
  unfold definedCode
  split
  · exact makes_plain rfl
  · exact (makes_answer (.shared id)).bind fun dst _ => (makes_answer (.own id)).bind fun src _ =>
      (makes_typeOf id).bind fun t _ => makes_plain (plain_copyCode ..)

lemma makes_pushArgs (args : List (Atom × Int)) :
    Makes c (fun code => code.all plain = true) (pushArgs c args) := by
  induction args with
  | nil => exact makes_pure rfl
  | cons a args ih =>
    exact (makes_operand a.1).bind fun src _ => ih.bind fun code hcode => makes_pure (by
      rw [all_append, plain_copyCode, hcode]; rfl)

lemma makes_gatherCode (dst : Address) (lane : Nat) (elems : List Atom) :
    Makes c (fun code => code.all plain = true) (gatherCode c dst lane elems) := by
  induction elems generalizing lane with
  | nil => exact makes_pure rfl
  | cons a elems ih =>
    exact (makes_operand a).bind fun src _ => (ih (lane + 1)).bind fun code hcode => makes_pure (by
      rw [all_append, hcode]; rfl)

variable {size : Int}

lemma steady_call (hsize : 16 ∣ size) (name : Bytes) {pushed : List Inst}
    (h : pushed.all plain = true) :
    Steady ((if size > 0 then [.reserve size] else []) ++ pushed ++ [.call name]
      ++ (if size > 0 then [.release size] else [])) := by
  have hcall {n : Int} (hn : 16 ∣ n) : Levels (some n) [.inst (.call name)] (some n) :=
    .cons (.inst nofun (fun _ => hn) nofun (Int.add_zero n).symm) .nil
  unfold Steady
  split
  · simp only [map_append, append_assoc]
    refine .cons (.inst nofun nofun nofun (Int.zero_add size).symm)
      ((levels_of_plain h size).append ((hcall hsize).append ?_))
    exact .cons (.inst nofun nofun nofun (Int.add_right_neg size).symm) .nil
  · simp only [map_append, append_nil, nil_append]
    exact (levels_of_plain h 0).append (hcall (Int.dvd_zero 16))

lemma makes_instrCode (htarget : c.target = {}) (i : Instr) : Makes c Steady (instrCode c i) := by
  cases i with
  | assign d s =>
    exact (makes_answer (.own d)).bind fun dst _ => (makes_operand s).bind fun src _ =>
      (makes_typeOf d).bind fun t _ => makes_plain (plain_copyCode ..)
  | binary d op t scaling l r =>
    exact (makes_answer (.own d)).bind fun dst _ => (makes_operand l).bind fun la _ =>
      (makes_operand r).bind fun ra _ => makes_lift fun code hcode =>
        levels_of_plain (plain_binaryCode hcode) 0
  | unary d op x =>
    exact (makes_answer (.own d)).bind fun dst _ => (makes_operand x).bind fun src _ =>
      (makes_typeOf d).bind fun t _ => makes_plain (plain_unaryCode ..)
  | call d res name args =>
    have hsize : 16 ∣ (c.target.args (args.map atomType)).size := by
      rw [htarget]
      exact dvd_alignUp _ (by decide)
    refine (makes_pushArgs _).bind fun pushed hpushed => ?_
    have hcall := steady_call hsize (calleeLabel name) hpushed
    dsimp only
    split
    · exact makes_pure hcall
    · refine (makes_answer (.own d)).bind fun dst _ => (makes_typeOf d).bind fun t _ => ?_
      refine makes_pure (hcall.append (levels_of_plain ?_ 0))
      split <;> rfl
  | pack d elems =>
    exact (makes_answer (.own d)).bind fun dst _ => (makes_gatherCode dst 0 elems).bind
      fun code hcode => (makes_typeOf d).bind fun t _ => makes_plain (by
        rw [all_append, hcode, plain_padCode]; rfl)
  | swizzle d x lanes =>
    refine (makes_answer (.own d)).bind fun dst _ => (makes_operand x).bind fun src _ =>
      (makes_typeOf d).bind fun t _ => makes_plain ?_
    rw [all_append, plain_padCode, Bool.and_true, all_flatMap]
    exact all_eq_true.2 fun _ _ => rfl
  | unknown k => exact makes_throw

lemma makes_stepCode (htarget : c.target = {}) (i : Instr) : Makes c Steady (stepCode c i) := by
  refine (makes_instrCode htarget i).bind fun code hcode => ?_
  split
  · exact makes_pure hcode
  · exact (makes_definedCode i.dst).bind fun more hmore => makes_pure (hcode.append hmore)

lemma steady_leaveCode : Steady leaveCode := Levels.cons .leave (.cons .pop (.cons .ret .nil))

lemma steady_jump (hsp : i.written? ≠ some .rsp) (hshift : i.shift = 0) : Steady [i] :=
  Levels.cons (.inst hsp (fun _ => Int.dvd_zero 16) (fun _ => rfl) (by simp [hshift])) .nil

lemma makes_termCode (t : Term) : Makes c Steady (termCode c t) := by
  cases t with
  | none => exact makes_plain rfl
  | branch l op r t target =>
    exact (makes_operand l).bind fun la _ => (makes_operand r).bind fun ra _ =>
      (makes_lift fun _ h => h).bind fun test htest => makes_pure
        (Steady.append (levels_of_plain (plain_compareCode htest) 0) (steady_jump nofun rfl))
  | goto target => exact makes_pure (steady_jump nofun rfl)
  | ret a =>
    cases a with
    | none => exact makes_pure steady_leaveCode
    | some a =>
      refine (makes_operand a).bind fun src _ => makes_pure ?_
      refine .cons (levels_of_plain ?_ 0) steady_leaveCode
      split <;> rfl
  | halt =>
    exact makes_pure (.cons (levels_of_plain rfl 0)
      (.cons (steady_jump nofun rfl) (levels_of_plain rfl 0)))
  | unknown k => exact makes_throw

lemma makes_concatCode {f : α → Select (List Inst)} (h : ∀ a, Makes c Steady (f a))
    (as : List α) : Makes c Steady (concatCode f as) := by
  induction as with
  | nil => exact makes_plain rfl
  | cons a as ih =>
    exact (h a).bind fun code hcode => ih.bind fun rest hrest => makes_pure (hcode.append hrest)

lemma makes_blocksCode (htarget : c.target = {}) (blocks : List Block) :
    Makes c (fun code => Levels (some 0) code (some 0)) (blocksCode c blocks) := by
  induction blocks with
  | nil => exact makes_pure .nil
  | cons b blocks ih =>
    have hblock : Makes c (fun code => Levels (some 0) code (some 0)) (blockCode c b) := by
      refine (makes_concatCode (makes_stepCode htarget) _).bind fun body hbody =>
        (makes_termCode b.term).bind fun last hlast => makes_pure ?_
      have hcode := hbody.append hlast
      split
      · exact hcode
      · exact .cons .label hcode
    exact hblock.bind fun code hcode => ih.bind fun rest hrest => makes_pure (hcode.append hrest)

lemma makes_bodyCode (htarget : c.target = {}) :
    Makes c (fun code => Levels (some 0) code (some 0)) (bodyCode c) :=
  (makes_concatCode makes_definedCode _).bind fun _ hargs =>
    (makes_blocksCode htarget _).bind fun _ hblocks => makes_pure (Levels.append hargs hblocks)

/-! ## Functions -/

/-- The lines before the body of a function: the frame pointer is saved and set, and room for the
slots is taken. -/
def enterCode (name : Bytes) (size : Int) : List Line :=
  [.label (funcLabel name), .inst (.push .rbp), .inst (.move .rbp .rsp)]
    ++ if size > 0 then [.inst (.reserve size)] else []

lemma levels_enterCode (name : Bytes) (h : 0 ≤ size) :
    Levels (some 0) (enterCode name size) (some (8 + size)) := by
  refine .cons .label (.cons (.inst nofun nofun nofun rfl) (.cons (.inst nofun nofun nofun rfl) ?_))
  split
  · exact .cons (.inst nofun nofun nofun rfl) .nil
  · rw [show size = 0 by omega]
    exact .nil

lemma funcCode_eq_ok {lines : List Line} : funcCode c = .ok lines ↔
    ∃ s0 body s, argumentSlots c = .ok s0 ∧ bodyCode c s0 = .ok (body, s) ∧
      lines = enterCode c.func.name (alignUp s.size c.target.stackAlign) ++ body := by
  constructor
  · intro h
    obtain ⟨s0, hstart, h⟩ := except_bind_eq_ok.1 h
    obtain ⟨⟨body, s⟩, hbody, h⟩ := except_bind_eq_ok.1 h
    cases h
    exact ⟨s0, body, s, hstart, hbody, by simp [enterCode]⟩
  · rintro ⟨s0, body, s, hstart, hbody, rfl⟩
    refine except_bind_eq_ok.2 ⟨s0, hstart, except_bind_eq_ok.2 ⟨(body, s), hbody, ?_⟩⟩
    simp [enterCode, pure, Except.pure]

lemma Request.exists_answer (r : Request) (s : Storage)
    (hpool : c.module.pool.get? r.value = none) (ht : c.module.typeOf r.value = .ok t) :
    ∃ x s', r.answer c s = .ok (x, s') := by
  cases r with
  | shared id => exact exists_sharedAddress s ht
  | own id =>
    change ∃ x s', addressOf c id s = .ok (x, s')
    cases hphi : isPhi c.func id with
    | true =>
      unfold addressOf
      rw [show c.module.pool.get? id = none from hpool, if_pos hphi]
      exact exists_sharedAddress s ht
    | false =>
      have hpool : c.module.pool.get? id = none := hpool
      rw [addressOf_eq hpool hphi, show c.module.typeOf id = .ok t from ht]
      cases s.slots.get? id <;> exact ⟨_, _, rfl⟩

lemma aligned_at_calls {body : List Line} (hbody : Levels (some 0) body (some 0))
    (hsize : 0 ≤ size) (haligned : 16 ∣ size) {name : Bytes} {entry start : Int}
    (hentry : 16 ∣ entry + 8)
    (henter : Walk (enterCode name size) entry (enterCode name size).length start) {pc : Nat}
    {sp : Int} (hwalk : Walk body start pc sp) (hi : body[pc]? = some (.inst i))
    (hcall : i.isCall) : 16 ∣ sp := by
  obtain ⟨at?, hzero, hend, hat⟩ := (levels_enterCode name hsize).exists_at
  have hstart := henter.sp_eq hzero hat _ hend
  obtain ⟨at?, hzero, -, hat⟩ := hbody.exists_at
  have hlevel := hat pc _ hi
  generalize hn : at? pc = n at hlevel
  generalize at? (pc + 1) = m at hlevel
  cases hlevel with
  | inst hsp hdvd hjump hm =>
    have := hwalk.sp_eq hzero hat _ hn
    have := hdvd hcall
    omega
  | leave => cases hcall
  | pop => cases hcall
  | ret => cases hcall

/-- Slots never overlap. In whatever order slots are asked for, each request for a value that has a
type is answered, and with the same place from then on; the slots lie apart from each other, those
of arguments above the frame pointer and all others below it, aligned and within the room that is in
use. The code of a function takes at least that room, in multiples of sixteen; and so the stack
pointer is aligned at every call that the function makes, if it was at the call of the function,
which has pushed eight bytes. -/
theorem storage_never_overlaps (htarget : c.target = {})
    (hlinked : ∀ a b, Connected c.func.phis a b → c.module.typeOf a = c.module.typeOf b)
    {types : List Ty} (htypes : c.func.args.mapM c.module.typeOf = .ok types) :
    ∃ s0, argumentSlots c = .ok s0 ∧
      (∀ s, Answered c s0 s → Laid c (c.target.args types).size s ∧ ∀ r : Request,
        (∀ t, c.module.pool.get? r.value = none → c.module.typeOf r.value = .ok t →
          ∃ x s1, r.answer c s = .ok (x, s1)) ∧
        ∀ x s1, r.answer c s = .ok (x, s1) →
          ((∃ i, x = { base := .literal i }) ∨ s1.slot? (r.slot c) = some x) ∧
          ∀ s2, Answered c s1 s2 → r.answer c s2 = .ok (x, s2)) ∧
      ∀ lines, funcCode c = .ok lines → ∃ body s size, Answered c s0 s ∧
        lines = enterCode c.func.name size ++ body ∧ s.size ≤ size ∧ 16 ∣ size ∧
        ∀ entry start pc sp i, 16 ∣ entry + 8 →
          Walk (enterCode c.func.name size) entry (enterCode c.func.name size).length start →
          Walk body start pc sp → body[pc]? = some (.inst i) → i.isCall → 16 ∣ sp := by
  have hword : 0 < c.target.wordSize := by rw [htarget]; decide
  have hbase : 0 ≤ c.target.argBase := by rw [htarget]; decide
  obtain ⟨s0, hstart, hlaid⟩ := laid_argumentSlots hword.le htypes
  refine ⟨s0, hstart, fun s hs => ?_, fun lines hlines => ?_⟩
  · obtain ⟨hlaid, -⟩ := hs.laid hword hbase hlinked hlaid
    refine ⟨hlaid, fun r => ⟨fun t => r.exists_answer s, fun x s1 hok => ?_⟩⟩
    obtain ⟨hlaid1, -, hslot, hagain⟩ := hlaid.answer hword hbase hlinked hok
    exact ⟨hslot, fun s2 hs2 => hagain s2 (hs2.laid hword hbase hlinked hlaid1).2⟩
  · obtain ⟨s0', body, s, hstart', hbody, rfl⟩ := funcCode_eq_ok.1 hlines
    cases hstart.symm.trans hstart'
    obtain ⟨hs, hlevels⟩ := makes_bodyCode htarget _ _ _ hbody
    have hsize := (hs.laid hword hbase hlinked hlaid).1.size
    have hle := le_alignUp hsize c.target.stackAlign
    have hdvd : 16 ∣ alignUp s.size c.target.stackAlign := by
      rw [htarget]
      exact dvd_alignUp _ (by decide)
    exact ⟨body, s, _, hs, rfl, hle, hdvd, fun entry start pc sp i hentry henter hwalk hi hcall =>
      aligned_at_calls hlevels (hsize.trans hle) hdvd hentry henter hwalk hi hcall⟩

lemma typeOf_eq_of_connected_crossedPhis {a b : ValueId} (h : Connected crossedPhis.phis a b) :
    crossedContext.module.typeOf a = crossedContext.module.typeOf b := by
  induction h with
  | rel a b hedge =>
    have hall : ∀ p ∈ crossedPhis.phis, ∀ b ∈ p.branches,
        crossedContext.module.typeOf p.dst = crossedContext.module.typeOf b := by decide
    obtain ⟨p, hp, rfl, hb⟩ := hedge
    exact hall p hp b hb
  | refl a => rfl
  | symm a b _ ih => exact ih.symm
  | trans a b d _ _ ih ih' => exact ih.trans ih'

theorem storage_never_overlaps_crossedPhis : ∃ s0 lines, argumentSlots crossedContext = .ok s0 ∧
    funcCode crossedContext = .ok lines ∧ Laid crossedContext 16 s0 ∧
    ∃ body size, lines = enterCode "f" size ++ body ∧ 16 ∣ size := by
  have htypes : crossedContext.func.args.mapM crossedContext.module.typeOf = .ok [.int, .int] := rfl
  obtain ⟨s0, hstart, hlaid, hcode⟩ := storage_never_overlaps rfl
    (fun _ _ => typeOf_eq_of_connected_crossedPhis) htypes
  obtain ⟨body, s, size, -, hlines, -, hdvd, -⟩ := hcode _ rfl
  exact ⟨s0, _, hstart, rfl, (hlaid s0 (.none s0)).1, body, size, hlines, hdvd⟩

end VecLang.Assembly
