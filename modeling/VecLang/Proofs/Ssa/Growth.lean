import VecLang.Proofs.Ssa.Construction

/-!
# Growth of code

Lowering only appends. `Grows s t` says that the code of `t` begins with that of `s`: blocks that
were finished stay as they are, and the current block may have got longer. `Adds out pre vals s t`
says besides that the code in between is complete: every value and every label that was taken in
between is defined there, exactly once, and jumps from there go to labels that were taken in
between or to the labels `out`. Of what was taken before, the labels `pre` and the values `vals` are
defined there.
-/

namespace VecLang.Ssa

open Typed
open List hiding all

open Stateful LowerState

structure Block.Begins (b b' : Block) : Prop where
  label : b.label = b'.label
  instrs : b.instrs.toList <+: b'.instrs.toList
  ended : b.term ≠ .none → b' = b

lemma Block.Begins.refl (b : Block) : b.Begins b := ⟨rfl, prefix_rfl, fun _ => rfl⟩

lemma Block.Begins.trans {a b d : Block} (hab : a.Begins b) (hbd : b.Begins d) : a.Begins d where
  label := hab.label.trans hbd.label
  instrs := hab.instrs.trans hbd.instrs
  ended h := by
    have hb := hab.ended h
    rw [hb] at hbd
    exact hbd.ended h

namespace LowerState

def all (s : LowerState) : Array Block := s.blocks.push s.current

/-- How often a value is defined, besides as an argument. -/
def defs (s : LowerState) (id : ValueId) : Nat := (s.phis.toList.map (·.dst)).count id +
    (s.all.toList.flatMap fun b => b.instrs.toList.map Instr.dst).count id

def started (s : LowerState) (l : LabelId) : Nat := (s.all.toList.map (·.label)).count l

/-- The jumps so far, each with the number of the block it ends, in order. -/
def jumps (s : LowerState) : List (Nat × Nat) :=
  s.all.toList.zipIdx.flatMap fun x => x.1.term.targets.map (x.2, ·)

end LowerState

structure Grows (s t : LowerState) : Prop where
  types : s.types.toList <+: t.types.toList
  labels : s.labels.size ≤ t.labels.size
  phis : s.phis.toList <+: t.phis.toList
  size : s.blocks.size ≤ t.blocks.size
  done : ∀ i < s.blocks.size, t.all[i]? = s.all[i]?
  current : ∃ b, t.all[s.blocks.size]? = some b ∧ s.current.Begins b

variable {c : LowerContext} {s t u : LowerState}

variable {ty : Ty}

lemma type?_of_begins {as bs : Array Ty} (h : as.toList <+: bs.toList) {id : ValueId}
    (hid : as[id]? = some ty) : bs[id]? = some ty := by
  obtain ⟨more, hmore⟩ := h
  rw [← Array.getElem?_toList] at hid ⊢
  rw [← hmore, getElem?_append_left (List.getElem?_eq_some_iff.1 hid).1]
  exact hid

lemma getElem?_all_size (s : LowerState) : s.all[s.blocks.size]? = some s.current :=
  Array.getElem?_push_size

namespace Grows

lemma refl (s : LowerState) : Grows s s :=
  ⟨prefix_rfl, Nat.le_refl _, prefix_rfl, Nat.le_refl _, fun _ _ => rfl,
    s.current, getElem?_all_size s, .refl _⟩

lemma trans (hst : Grows s t) (htu : Grows t u) : Grows s u where
  types := hst.types.trans htu.types
  labels := Nat.le_trans hst.labels htu.labels
  phis := hst.phis.trans htu.phis
  size := Nat.le_trans hst.size htu.size
  done i hi := (htu.done i (Nat.lt_of_lt_of_le hi hst.size)).trans (hst.done i hi)
  current := by
    obtain ⟨b, hb, hsb⟩ := hst.current
    rcases Nat.lt_or_eq_of_le hst.size with hlt | heq
    · exact ⟨b, (htu.done _ hlt).trans hb, hsb⟩
    · -- the block that was current in `s` is still current in `t`
      rw [heq, getElem?_all_size] at hb
      cases hb
      obtain ⟨d, hd, htd⟩ := htu.current
      exact ⟨d, heq ▸ hd, hsb.trans htd⟩

lemma types_size (h : Grows s t) : s.types.size ≤ t.types.size := by
  simpa using h.types.length_le

lemma type? (h : Grows s t) {id : ValueId} (hid : s.types[id]? = some ty) :
    t.types[id]? = some ty := type?_of_begins h.types hid

lemma of_same (htypes : s.types.toList <+: t.types.toList) (hlabels : s.labels.size ≤ t.labels.size)
    (hphis : s.phis.toList <+: t.phis.toList) (hblocks : t.blocks = s.blocks)
    (hcurrent : s.current.Begins t.current) : Grows s t where
  types := htypes
  labels := hlabels
  phis := hphis
  size := Nat.le_of_eq (by rw [hblocks])
  done i hi := by
    unfold LowerState.all
    rw [hblocks, Array.getElem?_push_lt hi, Array.getElem?_push_lt hi]
  current := ⟨t.current, by rw [← hblocks, getElem?_all_size], hcurrent⟩

end Grows

/-! ## Single steps -/

lemma grows_addValue (s : LowerState) (ty : Ty) : Grows s (s.addValue ty) :=
  .of_same (by simp [addValue]) (Nat.le_refl _) prefix_rfl rfl (.refl _)

lemma grows_addValues (s : LowerState) (tys : List Ty) : Grows s (s.addValues tys) :=
  .of_same (by simp [addValues]) (Nat.le_refl _) prefix_rfl rfl (.refl _)

lemma grows_addLabel (s : LowerState) (hint : Bytes) : Grows s (s.addLabel hint) :=
  .of_same prefix_rfl (by simp) prefix_rfl rfl (.refl _)

lemma grows_addPhis (s : LowerState) (ps : List Phi) : Grows s (s.addPhis ps) :=
  .of_same prefix_rfl (Nat.le_refl _) (by simp [addPhis]) rfl (.refl _)

lemma grows_inScope (s : LowerState) (scope : List Bindings) : Grows s (s.inScope scope) :=
  .of_same prefix_rfl (Nat.le_refl _) prefix_rfl rfl (.refl _)

lemma grows_inLoops (s : LowerState) (loops : List LoopFrame) : Grows s (s.inLoops loops) :=
  .of_same prefix_rfl (Nat.le_refl _) prefix_rfl rfl (.refl _)

lemma grows_append (hlive : s.Live) (i : Instr) : Grows s (s.append i) :=
  .of_same prefix_rfl (Nat.le_refl _) prefix_rfl rfl
    ⟨rfl, by simp [append], fun h => absurd hlive h⟩

lemma grows_close (hlive : s.Live) (term : Term) : Grows s (s.close term) :=
  .of_same prefix_rfl (Nat.le_refl _) prefix_rfl rfl
    ⟨rfl, prefix_rfl, fun h => absurd hlive h⟩

lemma grows_opened (s : LowerState) (l : LabelId) : Grows s (s.opened l) where
  types := prefix_rfl
  labels := Nat.le_refl _
  phis := prefix_rfl
  size := by simp [opened]
  done i hi := by
    have hlt : i < (s.blocks.push s.current).size := by
      rw [Array.size_push]
      omega
    unfold LowerState.all opened
    rw [Array.getElem?_push_lt hlt, Array.getElem?_eq_getElem hlt]
  current := by
    refine ⟨s.current, ?_, .refl _⟩
    have hlt : s.blocks.size < (s.blocks.push s.current).size := by
      rw [Array.size_push]
      omega
    unfold LowerState.all opened
    rw [Array.getElem?_push_lt hlt, Array.getElem_push_eq]

section Counts

variable (s : LowerState) (id : ValueId) (l : LabelId)

lemma defs_append (i : Instr) : (s.append i).defs id = s.defs id + if i.dst = id then 1 else 0 := by
  simp [defs, all, append, count_append, count_singleton, Nat.add_assoc]

lemma defs_addPhis (ps : List Phi) :
    (s.addPhis ps).defs id = s.defs id + (ps.map (·.dst)).count id := by
  simp [defs, all, addPhis, count_append]
  omega

lemma defs_opened : (s.opened l).defs id = s.defs id := by
  simp [defs, all, opened]

lemma started_opened (l' : LabelId) :
    (s.opened l).started l' = s.started l' + if l = l' then 1 else 0 := by
  simp [started, all, opened, count_append, count_cons, Nat.add_assoc, Nat.add_comm]

lemma started_append (i : Instr) : (s.append i).started l = s.started l := by
  simp [started, all, append]

lemma started_close (t : Term) : (s.close t).started l = s.started l := by
  simp [started, all, close]

lemma jumps_append (i : Instr) : (s.append i).jumps = s.jumps := by
  simp [jumps, all, append, zipIdx_append]

lemma jumps_opened : (s.opened l).jumps = s.jumps := by
  simp [jumps, all, opened, zipIdx_append, Term.targets]

variable {s} in
lemma jumps_close (hlive : s.Live) (t : Term) :
    (s.close t).jumps = s.jumps ++ t.targets.map (s.blocks.size, ·) := by
  have hnone : s.current.term.targets = [] := by
    rw [show s.current.term = .none from hlive]
    rfl
  simp [jumps, all, close, zipIdx_append, hnone]

end Counts

/-! ## Complete code -/

/-- One for the numbers from `a` on and below `b`, and zero for others. -/
def within (a b n : Nat) : Nat := if a ≤ n ∧ n < b then 1 else 0

lemma within_add {a b d : Nat} (hab : a ≤ b) (hbd : b ≤ d) (n : Nat) :
    within a b n + within b d n = within a d n := by
  unfold within
  split_ifs <;> omega

lemma within_self (a n : Nat) : within a a n = 0 := if_neg (by omega)

lemma within_succ (a n : Nat) : within a (a + 1) n = if a = n then 1 else 0 := by
  unfold within
  split_ifs <;> omega

/-- The code between `s` and `t` is complete: what was taken in between is there. Jumps may go to
the labels `out` besides. The labels `pre` and the values `vals` were taken before and are there
only now. -/
structure Adds (out pre vals : List Nat) (s t : LowerState) : Prop where
  grows : Grows s t
  defs : ∀ id ≠ 0, t.defs id = s.defs id + vals.count id + within s.types.size t.types.size id
  started : ∀ l ≠ 0,
    t.started l = s.started l + pre.count l + within (s.labels.size + 1) (t.labels.size + 1) l
  jumps : ∃ new, t.jumps = s.jumps ++ new ∧
    ∀ x ∈ new, x.2 ∈ out ∨ (s.labels.size < x.2 ∧ x.2 ≤ t.labels.size)
  phis : ∃ new, t.phis.toList = s.phis.toList ++ new ∧
    ∀ p ∈ new, p.label ∈ pre ∨ (s.labels.size < p.label ∧ t.labels.size ≥ p.label)

variable {i : Instr}

namespace Adds

variable {out out' pre pre' vals vals' : List Nat}

lemma refl (out : List Nat) (s : LowerState) : Adds out [] [] s s where
  grows := .refl s
  defs _ _ := by simp [within_self]
  started _ _ := by simp [within_self]
  jumps := ⟨[], by simp, nofun⟩
  phis := ⟨[], by simp, nofun⟩

lemma trans (hst : Adds out pre vals s t) (htu : Adds out pre' vals' t u) :
    Adds out (pre ++ pre') (vals ++ vals') s u where
  grows := hst.grows.trans htu.grows
  defs id hid := by
    have hadd := within_add hst.grows.types_size htu.grows.types_size id
    rw [htu.defs id hid, hst.defs id hid, count_append]
    omega
  started l hl := by
    have hadd := within_add (Nat.succ_le_succ hst.grows.labels)
      (Nat.succ_le_succ htu.grows.labels) l
    rw [htu.started l hl, hst.started l hl, count_append]
    simp only [Nat.succ_eq_add_one] at hadd
    omega
  jumps := by
    obtain ⟨new, hnew, hin⟩ := hst.jumps
    obtain ⟨more, hmore, hin'⟩ := htu.jumps
    have hs := hst.grows.labels
    have ht := htu.grows.labels
    refine ⟨new ++ more, by rw [hmore, hnew, append_assoc], fun x hx => ?_⟩
    rcases mem_append.1 hx with hx | hx
    · exact (hin x hx).imp_right fun ⟨h1, h2⟩ => ⟨h1, Nat.le_trans h2 ht⟩
    · exact (hin' x hx).imp_right fun ⟨h1, h2⟩ => ⟨Nat.lt_of_le_of_lt hs h1, h2⟩
  phis := by
    obtain ⟨new, hnew, hin⟩ := hst.phis
    obtain ⟨more, hmore, hin'⟩ := htu.phis
    have hs := hst.grows.labels
    have ht := htu.grows.labels
    refine ⟨new ++ more, by rw [hmore, hnew, append_assoc], fun x hx => ?_⟩
    rw [mem_append]
    rcases mem_append.1 hx with hx | hx
    · exact (hin x hx).imp .inl fun ⟨h1, h2⟩ => ⟨h1, Nat.le_trans h2 ht⟩
    · exact (hin' x hx).imp .inr fun ⟨h1, h2⟩ => ⟨Nat.lt_of_le_of_lt hs h1, h2⟩

lemma mono (h : Adds out pre vals s t) (hout : out ⊆ out') : Adds out' pre vals s t where
  grows := h.grows
  defs := h.defs
  started := h.started
  jumps := by
    obtain ⟨new, hnew, hin⟩ := h.jumps
    exact ⟨new, hnew, fun x hx => (hin x hx).imp_left fun hm => hout hm⟩
  phis := h.phis

lemma of_quiet (h : Grows s t) (htypes : t.types = s.types) (hlabels : t.labels = s.labels)
    (hphis : t.phis = s.phis) (hdefs : ∀ id ≠ 0, t.defs id = s.defs id)
    (hstarted : ∀ l ≠ 0, t.started l = s.started l + pre.count l) (hjumps : t.jumps = s.jumps) :
    Adds out pre [] s t where
  grows := h
  defs id hid := by simp [hdefs id hid, htypes, within_self]
  started l hl := by rw [hstarted l hl, hlabels, within_self, Nat.add_zero]
  jumps := ⟨[], by simp [hjumps], nofun⟩
  phis := ⟨[], by simp [hphis], nofun⟩

lemma inScope (h : Adds out pre vals s t) (scope : List Bindings) :
    Adds out pre vals s (t.inScope scope) :=
  ⟨h.grows.trans (grows_inScope t scope), h.defs, h.started, h.jumps, h.phis⟩

lemma inLoops (h : Adds out pre vals s t) (loops : List LoopFrame) :
    Adds out pre vals s (t.inLoops loops) :=
  ⟨h.grows.trans (grows_inLoops t loops), h.defs, h.started, h.jumps, h.phis⟩

lemma close (hlive : s.Live) {term : Term} (hout : ∀ l ∈ term.targets, l ∈ out) :
    Adds out [] [] s (s.close term) where
  grows := grows_close hlive term
  defs id _ := by
    change _ = s.defs id + 0 + within s.types.size s.types.size id
    rw [within_self]
    simp [LowerState.defs, all, LowerState.close]
  started l _ := by
    change _ = s.started l + 0 + within (s.labels.size + 1) (s.labels.size + 1) l
    rw [within_self, started_close, Nat.add_zero]
  jumps := by
    refine ⟨_, jumps_close hlive term, fun x hx => ?_⟩
    obtain ⟨l, hl, rfl⟩ := mem_map.1 hx
    exact .inl (hout l hl)
  phis := ⟨[], by simp [LowerState.close], nofun⟩

lemma define (hlive : s.Live) (ty : Ty) (hi : i.dst = s.types.size) :
    Adds out [] [] s ((s.addValue ty).append i) where
  grows := (grows_addValue s ty).trans (grows_append (s := s.addValue ty) hlive i)
  defs id _ := by
    change _ = s.defs id + 0 + within s.types.size (s.types.push ty).size id
    rw [defs_append, Array.size_push, within_succ, hi]
    rfl
  started l _ := by
    change _ = s.started l + 0 + within (s.labels.size + 1) (s.labels.size + 1) l
    rw [within_self, started_append]
    rfl
  jumps := ⟨[], by rw [jumps_append, append_nil]; rfl, nofun⟩
  phis := ⟨[], by simp [append, addValue], nofun⟩

lemma run (hlive : s.Live) (hi : i.dst = 0) : Adds out [] [] s (s.append i) := by
  refine .of_quiet (grows_append hlive i) rfl rfl rfl (fun id hid => ?_)
    (fun l _ => started_append s l i) (jumps_append s i)
  rw [defs_append, hi, if_neg hid.symm, Nat.add_zero]

lemma opened (s : LowerState) (l : Nat) : Adds out [l] [] s (s.opened l) := by
  refine .of_quiet (grows_opened s l) rfl rfl rfl (fun id _ => defs_opened s id l)
    (fun l' _ => ?_) (jumps_opened s l)
  rw [started_opened, count_singleton]
  simp

lemma opened_zero (s : LowerState) : Adds out [] [] s (s.opened 0) := by
  refine .of_quiet (grows_opened s 0) rfl rfl rfl (fun id _ => defs_opened s id 0) (fun l hl => ?_)
    (jumps_opened s 0)
  rw [started_opened, if_neg hl.symm, count_nil]

lemma of_taken (h : Adds out' pre' vals' t u) (hst : Grows s t) (hdefs : t.defs = s.defs)
    (hstarted : t.started = s.started) (hjumps : t.jumps = s.jumps) (hphis : t.phis = s.phis)
    (hpre : ∀ l, pre'.count l = pre.count l + within (s.labels.size + 1) (t.labels.size + 1) l)
    (hvals : ∀ id, vals'.count id = vals.count id + within s.types.size t.types.size id)
    (hout : ∀ l ∈ out', l ∈ out ∨ (s.labels.size < l ∧ l ≤ t.labels.size)) :
    Adds out pre vals s u where
  grows := hst.trans h.grows
  defs id hid := by
    have hadd := within_add hst.types_size h.grows.types_size id
    rw [h.defs id hid, hdefs, hvals]
    omega
  started l hl := by
    have hadd := within_add (Nat.succ_le_succ hst.labels) (Nat.succ_le_succ h.grows.labels) l
    rw [h.started l hl, hstarted, hpre]
    simp only [Nat.succ_eq_add_one] at hadd
    omega
  jumps := by
    obtain ⟨new, hnew, hin⟩ := h.jumps
    have hs := hst.labels
    have ht := h.grows.labels
    refine ⟨new, by rw [hnew, hjumps], fun x hx => ?_⟩
    rcases hin x hx with hx | ⟨h1, h2⟩
    · exact (hout _ hx).imp_right fun ⟨h1, h2⟩ => ⟨h1, Nat.le_trans h2 ht⟩
    · exact .inr ⟨Nat.lt_of_le_of_lt hs h1, h2⟩
  phis := by
    obtain ⟨new, hnew, hin⟩ := h.phis
    have hs := hst.labels
    have ht := h.grows.labels
    refine ⟨new, by rw [hnew, hphis], fun p hp => ?_⟩
    rcases hin p hp with hp | ⟨h1, h2⟩
    · have hcount : 0 < pre'.count p.label := count_pos_iff.2 hp
      rw [hpre] at hcount
      by_cases hmem : p.label ∈ pre
      · exact .inl hmem
      · rw [count_eq_zero.2 hmem, Nat.zero_add] at hcount
        unfold within at hcount
        split at hcount
        case isTrue hin => exact .inr ⟨hin.1, Nat.le_trans (Nat.le_of_lt_succ hin.2) ht⟩
        case isFalse => exact absurd hcount (Nat.lt_irrefl 0)
    · exact .inr ⟨Nat.lt_of_le_of_lt hs h1, h2⟩

end Adds

/-! ## Expressions -/

structure Emits (s t : LowerState) : Prop where
  adds : Adds [] [] [] s t
  blocks : t.blocks = s.blocks
  label : t.current.label = s.current.label
  term : t.current.term = s.current.term
  labels : t.labels = s.labels
  phis : t.phis = s.phis
  scope : t.scope = s.scope
  loops : t.loops = s.loops

namespace Emits

lemma refl (s : LowerState) : Emits s s := ⟨.refl _ s, rfl, rfl, rfl, rfl, rfl, rfl, rfl⟩

lemma trans (hst : Emits s t) (htu : Emits t u) : Emits s u :=
  ⟨hst.adds.trans htu.adds, htu.blocks.trans hst.blocks, htu.label.trans hst.label,
    htu.term.trans hst.term, htu.labels.trans hst.labels, htu.phis.trans hst.phis,
    htu.scope.trans hst.scope, htu.loops.trans hst.loops⟩

lemma live (h : Emits s t) (hlive : s.Live) : t.Live := h.term.trans hlive

lemma instrs (h : Emits s t) : s.current.instrs.toList <+: t.current.instrs.toList := by
  obtain ⟨b, hb, hbegins⟩ := h.adds.grows.current
  rw [← h.blocks, getElem?_all_size] at hb
  cases hb
  exact hbegins.instrs

lemma define (hlive : s.Live) (ty : Ty) (hi : i.dst = s.types.size) :
    Emits s ((s.addValue ty).append i) := ⟨.define hlive ty hi, rfl, rfl, rfl, rfl, rfl, rfl, rfl⟩

lemma run (hlive : s.Live) (hi : i.dst = 0) : Emits s (s.append i) :=
  ⟨.run hlive hi, rfl, rfl, rfl, rfl, rfl, rfl, rfl⟩

end Emits

lemma emits_result (hlive : s.Live) {known : Option Value} {instr : ValueId → Instr}
    (hdst : ∀ id, (instr id).dst = id) {a : Atom} (h : result known ty instr s = .ok (a, t)) :
    Emits s t := by
  rcases result_eq_ok.1 h with ⟨v, -, heq⟩ | ⟨-, heq⟩
  · cases heq
    exact .refl s
  · cases heq
    exact .define hlive ty (hdst _)

mutual

lemma emits_lowerExpr (e : Expr) {s t : LowerState} (hlive : s.Live) {a : Atom}
    (h : lowerExpr c e s = .ok (a, t)) : Emits s t := by
  match e with
  | .lit _ _ v =>
    cases pure_eq_ok.1 h
    exact .refl s
  | .var ty _ id =>
    obtain ⟨id', s1, hid, h⟩ := bind_eq_ok.1 h
    obtain ⟨_, -, heq⟩ := varValue_eq_ok.1 hid
    cases heq
    cases pure_eq_ok.1 h
    exact .refl s
  | .unary ty _ op x =>
    obtain ⟨l, s1, hx, h⟩ := bind_eq_ok.1 h
    have hx := emits_lowerExpr x hlive hx
    exact hx.trans (emits_result (hx.live hlive) (fun _ => rfl) h)
  | .binary ty _ op operand scaling x y =>
    simp only [lowerExpr, bind_eq_ok] at h
    obtain ⟨l, s1, hx, r, s2, hy, h⟩ := h
    have hx := emits_lowerExpr x hlive hx
    have hy := emits_lowerExpr y (hx.live hlive) hy
    exact (hx.trans hy).trans (emits_result ((hx.trans hy).live hlive) (fun _ => rfl) h)
  | .call ty _ callee args =>
    obtain ⟨as, s1, has, h⟩ := bind_eq_ok.1 h
    have has := emits_lowerExprs args hlive has
    have hlive1 := has.live hlive
    cases hf : c.table.fun? callee with
    | none =>
      simp only [hf] at h
      exact absurd h throw_ne_ok
    | some f =>
      simp only [hf] at h
      split at h
      · cases h
        exact has.trans (.run hlive1 rfl)
      · cases h
        exact has.trans (.define hlive1 ty rfl)
  | .pack ty _ elems =>
    obtain ⟨as, s1, has, _, h, -⟩ := lowerExpr_pack_eq_ok h
    have has := emits_lowerExprs elems hlive has
    exact has.trans (emits_result (has.live hlive) (fun _ => rfl) h)
  | .swizzle ty _ lanes x =>
    obtain ⟨l, s1, hx, _, h, -⟩ := lowerExpr_swizzle_eq_ok h
    have hx := emits_lowerExpr x hlive hx
    exact hx.trans (emits_result (hx.live hlive) (fun _ => rfl) h)

lemma emits_lowerExprs (es : List Expr) {s t : LowerState} (hlive : s.Live)
    {as : List Atom} (h : lowerExprs c es s = .ok (as, t)) : Emits s t := by
  match es with
  | [] =>
    cases pure_eq_ok.1 h
    exact .refl s
  | e :: es =>
    simp only [lowerExprs, bind_eq_ok, pure_eq_ok] at h
    obtain ⟨a, s1, ha, as, s2, has, h⟩ := h
    cases h
    have ha := emits_lowerExpr e hlive ha
    exact ha.trans (emits_lowerExprs es (ha.live hlive) has)

end

/-! ## Conditions -/

structure Branches (yes no : Nat) (s t : LowerState) : Prop where
  adds : Adds [yes, no] [] [] s t
  ended : t.current.term.fallsThrough = false
  phis : t.phis = s.phis
  scope : t.scope = s.scope
  loops : t.loops = s.loops

variable {yes no : Nat}

lemma Branches.swap (h : Branches yes no s t) : Branches no yes s t :=
  ⟨h.adds.mono (by simp), h.ended, h.phis, h.scope, h.loops⟩

lemma Emits.branches (h : Emits s t) (htu : Branches yes no t u) : Branches yes no s u :=
  ⟨(h.adds.mono (nil_subset _)).trans htu.adds, htu.ended, htu.phis.trans h.phis,
    htu.scope.trans h.scope, htu.loops.trans h.loops⟩

lemma branches_goto (hlive : s.Live) {l : Nat} (hl : l ∈ [yes, no]) :
    Branches yes no s (s.close (.goto l)) where
  adds := .close hlive (by simpa [Term.targets] using hl)
  ended := rfl
  phis := rfl
  scope := rfl
  loops := rfl

lemma branches_branch (hlive : s.Live) (a : Atom) (op : BinaryOp) (b : Atom) (ty : Ty)
    (yes no : Nat) :
    Branches yes no s (((s.close (.branch a op b ty yes)).opened 0).close (.goto no)) where
  adds := by
    have hfirst : Adds [yes, no] [] [] s (s.close (.branch a op b ty yes)) :=
      .close hlive (by simp [Term.targets])
    have hlast : Branches yes no ((s.close (.branch a op b ty yes)).opened 0)
        (((s.close (.branch a op b ty yes)).opened 0).close (.goto no)) :=
      branches_goto (s := (s.close (.branch a op b ty yes)).opened 0) rfl (by simp)
    exact (hfirst.trans (.opened_zero _)).trans hlast.adds
  ended := rfl
  phis := rfl
  scope := rfl
  loops := rfl

lemma branches_lowerBranch (hlive : s.Live) {a : Atom} {op : BinaryOp} {b : Atom}
    (h : lowerBranch c a op b ty yes no s = .ok ((), t)) :
    Branches yes no s t := by
  rw [lowerBranch_eq] at h
  cases hk : c.known? op a b with
  | some v =>
    rw [hk] at h
    cases h
    refine branches_goto hlive ?_
    split <;> simp
  | none =>
    rw [hk] at h
    cases h
    exact branches_branch hlive _ _ _ _ _ _

lemma branches_lowerTest (hlive : s.Live) {e : Expr}
    (h : lowerTest c e yes no s = .ok ((), t)) : Branches yes no s t := by
  obtain ⟨a, s1, ha, rfl⟩ := lowerTest_eq_ok.1 h
  have ha := emits_lowerExpr e hlive ha
  refine ha.branches ?_
  split
  · refine branches_goto (ha.live hlive) ?_
    split <;> simp
  · exact branches_branch (ha.live hlive) _ _ _ _ _ _

lemma branches_between {rhs : Nat} {out : List Nat} (hint : Bytes)
    (hrhs : rhs = s.labels.size + 1) (hout : out ⊆ [rhs, yes, no])
    (hst : Adds out [] [] (s.addLabel hint) t) (hscope : t.scope = s.scope)
    (hloops : t.loops = s.loops) (hphis : t.phis = s.phis)
    (htu : Branches yes no (t.opened rhs) u) : Branches yes no s u where
  adds := by
    have hfirst : Adds [rhs, yes, no] [rhs] [] (s.addLabel hint) (t.opened rhs) :=
      (hst.mono hout).trans (.opened t rhs)
    have hall := hfirst.trans (htu.adds.mono (subset_cons_self _ _))
    refine hall.of_taken (grows_addLabel s hint) rfl rfl rfl rfl (fun l => ?_) (fun id => ?_) ?_
    · rw [size_labels_addLabel, within_succ, hrhs]
      simp [count_cons]
    · change _ = _ + within s.types.size s.types.size id
      simp [within_self]
    · intro l hl
      rcases mem_cons.1 hl with rfl | hl
      · rw [size_labels_addLabel]
        exact .inr ⟨by omega, by omega⟩
      · exact .inl hl
  ended := htu.ended
  phis := htu.phis.trans hphis
  scope := htu.scope.trans hscope
  loops := htu.loops.trans hloops

lemma CondRun.branches {e : Expr} {yes no : LabelId} (h : CondRun c e yes no s t)
    (hlive : s.Live) : Branches yes no s t := by
  induction h with
  | negation _ ih => exact (ih hlive).swap
  | both _ _ ihx ihy =>
    have hx := ihx hlive
    exact branches_between _ rfl (by simp) hx.adds hx.scope hx.loops hx.phis (ihy rfl)
  | either _ _ ihx ihy =>
    have hx := ihx hlive
    exact branches_between _ rfl (by simp) hx.adds hx.scope hx.loops hx.phis (ihy rfl)
  | compare _ hx hy h =>
    have hx := emits_lowerExpr _ hlive hx
    have hxy := hx.trans (emits_lowerExpr _ (hx.live hlive) hy)
    exact hxy.branches (branches_lowerBranch (hxy.live hlive) h)
  | test h => exact branches_lowerTest hlive h

lemma branches_lowerCond (e : Expr) {s t : LowerState} (hlive : s.Live)
    (h : lowerCond c e yes no s = .ok ((), t)) : Branches yes no s t :=
  (condRun_of_lowerCond e h).branches hlive

end VecLang.Ssa
