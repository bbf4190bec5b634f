import VecLang.Proofs.Assembly.Emission

/-!
# Entries of the pool

The pool is collected before code is selected, by another walk over the program, but from the same
operands. So the entry of an operand is there whenever it is looked up, it holds the bits of
the operand, and no bits are held twice (`pool_exact`).
-/

namespace VecLang.Assembly

open Ssa Stateful List LiteralPool
open LiteralPool (signMask)

/-! ## Bits of values -/

lemma pairBits_inj {a b x y : Binary32} (h : Value.pairBits a b = Value.pairBits x y) :
    a = x ∧ b = y := by
  have hnat (a b : Binary32) :
      (Value.pairBits a b).toNat = b.bits.toNat * 2 ^ 32 + a.bits.toNat := by
    have hb := b.bits.toNat_lt
    have hlt : b.bits.toNat <<< 32 < 2 ^ 64 := by
      rw [Nat.shiftLeft_eq]
      omega
    simp only [Value.pairBits, UInt64.toNat_or, UInt64.toNat_shiftLeft, UInt32.toNat_toUInt64,
      UInt64.reduceToNat, Nat.reduceMod, Nat.mod_eq_of_lt hlt]
    rw [Nat.or_comm, ← Nat.shiftLeft_add_eq_or_of_lt a.bits.toNat_lt, Nat.shiftLeft_eq]
  have heq := congrArg UInt64.toNat h
  rw [hnat, hnat] at heq
  have ha := a.bits.toNat_lt
  have hx := x.bits.toNat_lt
  obtain ⟨a⟩ := a
  obtain ⟨b⟩ := b
  obtain ⟨x⟩ := x
  obtain ⟨y⟩ := y
  rw [Binary32.mk.injEq, Binary32.mk.injEq, ← UInt32.toNat_inj, ← UInt32.toNat_inj]
  dsimp only at *
  omega

lemma take_ofList {ls : List Binary32} (h : ls.length ≤ 4) :
    (Lanes.ofList ls).toList.take ls.length = ls := by
  match ls with
  | [] | [_] | [_, _] | [_, _, _] | [_, _, _, _] => rfl
  | _ :: _ :: _ :: _ :: _ :: ls => exact absurd h (by simp)

/-- Values of one type look the same in memory if the parts are the same that count for it. -/
lemma bits_eq_iff {v w : Value} (ht : v.ty = w.ty) : v.bits = w.bits ↔
    if v.ty.isFloat then v.parts = w.parts else v.word = w.word := by
  unfold Value.bits
  rw [← ht]
  split
  · refine ⟨fun h => ?_, fun h => by rw [h]⟩
    rw [Value.Bits.mk.injEq] at h
    obtain ⟨hx, hy⟩ := pairBits_inj h.1
    obtain ⟨hz, hw⟩ := pairBits_inj h.2
    have hlanes : Lanes.ofList v.parts = Lanes.ofList w.parts := by
      cases hv : Lanes.ofList v.parts
      cases hw : Lanes.ofList w.parts
      simp_all
    have hlen (u : Value) : u.parts.length = min u.ty.lanes 4 := length_take
    have hparts (u : Value) : (Lanes.ofList u.parts).toList.take (min u.ty.lanes 4) = u.parts := by
      rw [← hlen, take_ofList (by rw [hlen]; omega)]
    rw [← hparts v, hlanes, ht, hparts]
  · rw [Value.Bits.mk.injEq, and_iff_left rfl]
    exact ⟨congrArg UInt64.toInt64, congrArg Int64.toUInt64⟩

/-! ## What the pool holds -/

/-- The value is an operand of an instruction or of the end of a block. -/
def Mentions (f : Func) (v : Value) : Prop :=
  ∃ b ∈ f.blocks.toList, .lit v ∈ b.instrs.toList.flatMap Instr.uses ++ b.term.uses

lemma mem_literals {f : Func} {v : Value} : v ∈ literals f ↔ Mentions f v := by
  simp only [literals, mem_flatMap, mem_filterMap, Mentions]
  refine exists_congr fun b => and_congr_right fun _ => ⟨fun ⟨a, ha, hv⟩ => ?_, fun h => ⟨_, h, rfl⟩⟩
  cases a <;> cases hv
  exact ha

variable {M : Module} {b : Value.Bits} {v w : Value}

lemma nodup_add {p : LiteralPool} (h : p.Nodup) (b : Value.Bits) : (p.add b).Nodup := by
  unfold add
  split
  · exact h
  next hb =>
    rw [contains_iff_mem] at hb
    exact h.append (nodup_singleton b) (by simpa [eq_comm] using hb)

lemma foldl_add_spec (vs : List Value) {p : LiteralPool} (hp : p.Nodup) :
    (vs.foldl (fun p v => add p v.bits) p).Nodup ∧
      p <+: vs.foldl (fun p v => add p v.bits) p := by
  induction vs generalizing p with
  | nil => exact ⟨hp, prefix_rfl⟩
  | cons v vs ih =>
    obtain ⟨hnodup, hprefix⟩ := ih (nodup_add hp v.bits)
    refine ⟨hnodup, .trans ?_ hprefix⟩
    unfold add
    split
    · exact prefix_rfl
    · exact prefix_append ..

lemma mem_ofModule : b ∈ ofModule M ↔ b = signMask ∨
    ∃ v, ((∃ id, (id, v) ∈ M.pool) ∨ ∃ f ∈ M.funcs, Mentions f v) ∧ v.bits = b := by
  refine mem_foldl_add.trans (or_congr mem_singleton (exists_congr fun v => ?_))
  simp [mem_literals]

/-- The value that is known to an operand before the program runs. -/
def constant? (M : Module) : Atom → Option Value
  | .lit v => some v
  | .ref id _ => M.pool.get? id
  | .none => none

/-! ## Selection -/

lemma compareCode_ne_noEntry (op : BinaryOp) (t : Ty) (l r : Address) :
    compareCode op t l r ≠ .error (.noEntry b) := by
  unfold compareCode
  split
  · nofun
  · cases op <;> nofun

lemma binaryCode_ne_noEntry (op : BinaryOp) (t : Ty) (scaling : Bool) (leftType : Ty)
    (dst l r : Address) : binaryCode op t scaling leftType dst l r ≠ .error (.noEntry b) := by
  unfold binaryCode
  split
  · intro h
    cases hcode : compareCode op t l r with
    | ok x =>
      rw [hcode] at h
      cases h
    | error e =>
      rw [hcode] at h
      cases h
      exact compareCode_ne_noEntry _ _ _ _ hcode
  split
  · cases op <;> nofun
  split
  · nofun
  split
  · nofun
  · unfold laneCode
    split <;> nofun

section Code

variable {c : Context} (hpool : c.pool = ofModule c.module)

include hpool

lemma bits_mem_pool
    (h : (∃ id, c.module.pool.get? id = some v) ∨ c.func ∈ c.module.funcs ∧ Mentions c.func v) :
    v.bits ∈ c.pool := by
  rw [hpool, mem_ofModule]
  refine .inr ⟨v, h.imp (fun ⟨id, hid⟩ => ⟨id, Assoc.mem_of_get?_eq_some hid⟩) ?_, rfl⟩
  exact fun h => ⟨c.func, h⟩

lemma funcCode_ne_noEntry (hfunc : c.func ∈ c.module.funcs) : funcCode c ≠ .error (.noEntry b) := by
  have hlit {uses : List Atom} (h : ∀ v, .lit v ∈ uses → Mentions c.func v) :
      ∀ a ∈ uses, Addressable (fun e => ∀ b, e ≠ .noEntry b) c a := by
    intro a ha
    cases a with
    | none => nofun
    | ref id t => nofun
    | lit v => exact bits_mem_pool hpool (.inr ⟨hfunc, h v ha⟩)
  have hbody : StopsFor (fun e => ∀ b, e ≠ .noEntry b) (bodyCode c) := by
    refine stops_bodyCode hpool nofun fun d hd => ⟨fun i hi => ⟨nofun, hlit fun v hv => ?_, ?_, nofun⟩,
      hlit fun v hv => ?_, ?_, nofun⟩
    · exact ⟨d, hd, mem_append_left _ (mem_flatMap.2 ⟨i, hi, hv⟩)⟩
    · rintro _ _ _ _ _ _ - _ _ _ _ e he b rfl
      exact binaryCode_ne_noEntry _ _ _ _ _ _ _ he
    · exact ⟨d, hd, mem_append_right _ hv⟩
    · rintro _ _ _ _ _ - _ _ e he b rfl
      exact compareCode_ne_noEntry _ _ _ _ he
  intro h
  unfold funcCode at h
  cases hslots : argumentSlots c with
  | error e =>
    rw [hslots] at h
    cases h
    unfold argumentSlots at hslots
    generalize c.func.args.mapM c.module.typeOf = types at hslots
    cases types <;> cases hslots
  | ok s =>
    rw [hslots] at h
    change Except.bind (bodyCode c s) _ = _ at h
    cases hrun : bodyCode c s with
    | error e =>
      rw [hrun] at h
      cases h
      exact hbody s _ hrun b rfl
    | ok r =>
      rw [hrun] at h
      cases h

end Code

/-! ## The pool of a program -/

lemma address?_eq_iff {p : LiteralPool} (hv : v.bits ∈ p) :
    p.address? v = p.address? w ↔ v.bits = w.bits := by
  refine ⟨fun h => ?_, fun h => by rw [address?, h, address?]⟩
  obtain ⟨i, hi⟩ := Option.isSome_iff_exists.1 (isSome_idxOf?.2 hv)
  rw [address?, address?, hi] at h
  obtain ⟨j, hj, heq⟩ := Option.map_eq_some_iff.1 h.symm
  cases heq
  obtain ⟨hlt, hv', -⟩ := idxOf?_eq_some_iff.1 hi
  obtain ⟨_, hw', -⟩ := idxOf?_eq_some_iff.1 hj
  exact hv'.symm.trans hw'

/-- The pool of a program holds the mask first, and besides it exactly the constants of the program
and the literals of its code, no bits twice. Selection of code finds the entry of every operand
whose value is known, with the bits of this value, whatever slots were handed out before. It never
stops because an entry is missing. Values of one type share an entry if and only if they have the
same parts, or the same word. -/
theorem pool_exact (M : Module) :
    (ofModule M).Nodup ∧ (ofModule M).head? = some signMask ∧
    (∀ b, b ∈ ofModule M ↔ b = signMask ∨
      ∃ v, ((∃ id, (id, v) ∈ M.pool) ∨ ∃ f ∈ M.funcs, Mentions f v) ∧ v.bits = b) ∧
    (∀ f ∈ M.funcs, ∀ c, c = contextOf M (ofModule M) f →
      (∀ a v, constant? M a = some v → (a = .lit v → Mentions f v) → ∀ s, ∃ k,
        operand c a s = .ok ({ base := .literal k }, s) ∧ c.pool[k]? = some v.bits) ∧
      ∀ b, funcCode c ≠ .error (.noEntry b)) ∧
    ∀ v w : Value, v.ty = w.ty → v.bits ∈ ofModule M →
      ((ofModule M).address? v = (ofModule M).address? w ↔
        if v.ty.isFloat then v.parts = w.parts else v.word = w.word) := by
  obtain ⟨hnodup, hprefix⟩ := foldl_add_spec
    ((M.pool.mergeSort fun a b => a.1 ≤ b.1).map (·.2) ++ M.funcs.flatMap literals)
    (nodup_singleton signMask)
  refine ⟨hnodup, ?_, fun _ => mem_ofModule, ?_, fun v w ht hv => ?_⟩
  · obtain ⟨rest, hrest⟩ := hprefix
    exact congrArg head? hrest.symm
  · rintro f hf _ rfl
    refine ⟨fun a v ha hlit s => ?_, fun _ => funcCode_ne_noEntry rfl hf⟩
    · cases a with
      | none => cases ha
      | lit w =>
        cases ha
        exact literalAddress_spec (bits_mem_pool rfl (.inr ⟨hf, hlit rfl⟩)) s
      | ref id t =>
        change M.pool.get? id = some v at ha
        rw [operand, addressOf, show (contextOf M _ f).module.pool.get? id = _ from ha]
        exact literalAddress_spec (bits_mem_pool rfl (.inl ⟨id, ha⟩)) s
  · exact (address?_eq_iff hv).trans (bits_eq_iff ht)

end VecLang.Assembly
