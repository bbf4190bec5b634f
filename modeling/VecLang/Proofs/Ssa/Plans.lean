import VecLang.Proofs.Ssa.Edges
import VecLang.Proofs.Typed.WellTyped

/-!
# Plans

What can be known of a function in single assignment form without running it. A plan says of each
value which variable it is a value of, if of any, and of each block which values the variables in
scope have where it begins. Code follows a plan (`Setting.BlockOk`) if every operand is at hand
where it is read, every operation fits the types of its operands, and on each way into a block the
variables have the values that the plan says, where a phi stands for the branch of that way.
-/

namespace VecLang.Ssa

open List

abbrev Env := VarId → Option ValueId

/-- What is at hand at a place in a block: the variables in scope, and what was worked out in the
block and belongs to no variable. -/
structure Point where
  env : Env
  temps : List ValueId := []

structure Plan where
  /-- The variables that values belong to, by the number of the value. -/
  owners : List (Option VarId)
  /-- The variables where the block of a label begins, by the number of the label. -/
  entries : List Env
  /-- The variables where a block without a label begins, by the number of the block. -/
  starts : List Env

namespace Plan

def owner (q : Plan) (id : ValueId) : Option VarId := q.owners[id]?.join

def entryAt (q : Plan) (l : LabelId) (j : Nat) : Option Env :=
  if l = 0 then q.starts[j]? else q.entries[l]?

def Owned (q : Plan) (e : Env) : Prop := ∀ v id, e v = some id → q.owner id = some v

end Plan

/-- What is at hand behind an instruction: its value is the new value of the variable it belongs
to. -/
def Point.after (q : Plan) (σ : Point) (i : Instr) : Point :=
  if i.dst = 0 then σ
  else match q.owner i.dst with
    | some v => { σ with env := fun w => if w = v then some i.dst else σ.env w }
    | none => { σ with temps := i.dst :: σ.temps }

def Point.afterAll (q : Plan) (σ : Point) (is : List Instr) : Point := is.foldl (·.after q) σ

structure Setting where
  module : Module
  table : SymbolTable
  fits : Typed.Fits
  func : Func
  plan : Plan

variable {q : Plan} {id : ValueId}

namespace Setting

def Knows (S : Setting) (σ : Point) (id : ValueId) : Prop :=
  (S.module.pool.get? id).isSome ∨ id ∈ σ.temps ∨ ∃ v, σ.env v = some id

def AtomOk (S : Setting) (σ : Point) : Atom → Ty → Prop
  | .none, _ => False
  | .lit v, t => v.ty = t ∧ v.Normal
  | .ref id ty, t => ty = t ∧ t ≠ .invalid ∧ S.module.types[id]? = some t ∧ S.Knows σ id

def InstrOk (S : Setting) (σ : Point) : Instr → Prop
  | .assign dst src => ∃ t, S.module.types[dst]? = some t ∧ S.AtomOk σ src t
  | .binary dst op operand scaling l r => ∃ tl tr t,
      S.module.types[dst]? = some t ∧ S.AtomOk σ l tl ∧ S.AtomOk σ r tr ∧
        op.result? tl tr = some t ∧ scaling = op.isScaling tl tr ∧
        operand = if scaling then t else tl
  | .unary dst op x => ∃ tx t,
      S.module.types[dst]? = some t ∧ S.AtomOk σ x tx ∧ op.result? tx = some t
  | .call dst callee name args => ∃ g, S.table.fun? callee = some g ∧ name = g.name ∧
      List.Forall₂ (fun a p => ∃ t, S.AtomOk σ a t ∧ S.fits p t) args g.params ∧
      (if dst = 0 then g.result = .invalid
        else g.result ≠ .invalid ∧ S.module.types[dst]? = some g.result)
  | .pack dst elems => ∃ t, S.module.types[dst]? = some t ∧ t ∈ Resolved.constructors ∧
      elems.length = t.lanes ∧ ∀ a ∈ elems, S.AtomOk σ a .real
  | .swizzle dst x lanes => ∃ tx t, S.module.types[dst]? = some t ∧ S.AtomOk σ x tx ∧
      tx.isVector ∧ Resolved.maxLane lanes < tx.lanes ∧ Swizzle.result? lanes.length = some t
  | .unknown _ => False

def CodeOk (S : Setting) : Point → List Instr → Prop
  | _, [] => True
  | σ, i :: is => S.InstrOk σ i ∧ S.CodeOk (σ.after S.plan i) is

/-- The operands of the end of a block are at hand and have types that fit. -/
def TermOk (S : Setting) (σ : Point) : Term → Prop
  | .none => True
  | .branch l op r operand _ => S.AtomOk σ l operand ∧ S.AtomOk σ r operand ∧ op.isRel = true ∧
      (op.result? operand operand = some .bool ∨ operand = .bool)
  | .goto _ => True
  | .ret none => S.func.result = .invalid
  | .ret (some a) => S.AtomOk σ a S.func.result
  | .halt => True
  | .unknown _ => False

/-- Along the `k`-th way to the label `l` the variables `e` become the variables `e'`: a phi takes
the place of its branch, and all else stays. -/
def Flow (S : Setting) (l : LabelId) (k : Nat) (e e' : Env) : Prop := ∀ v id, e' v = some id →
    (∃ p ∈ S.func.phis, p.label = l ∧ p.dst = id ∧ ∃ b, e v = some b ∧ p.branches[k]? = some b) ∨
      (e v = some id ∧ ∀ p ∈ S.func.phis, p.label = l → p.dst ≠ id)

def Arrives (S : Setting) (w : Way) (j : Nat) (e : Env) : Prop :=
  ∀ b k, S.func.blocks[j]? = some b → (arrivals S.func.blocks j)[k]? = some w →
    ∃ e', S.plan.entryAt b.label j = some e' ∧ S.Flow b.label k e e'

structure EndOk (S : Setting) (j : Nat) (σ : Point) (t : Term) : Prop where
  term : S.TermOk σ t
  jump : ∀ l ∈ t.targets, ∀ j', blockOf? S.func.blocks l = some j' → S.Arrives (.jump j) j' σ.env
  fall : t.fallsThrough = true → S.Arrives (.fall j) (j + 1) σ.env

def BlockOk (S : Setting) (j : Nat) : Prop :=
  ∃ b e, S.func.blocks[j]? = some b ∧ S.plan.entryAt b.label j = some e ∧ S.plan.Owned e ∧
    S.CodeOk ⟨e, []⟩ b.instrs.toList ∧
    S.EndOk j (Point.afterAll S.plan ⟨e, []⟩ b.instrs.toList) b.term

/-- The value of a phi and its branches belong to one variable, and there is a branch for every way
to its label. -/
def PhiOk (S : Setting) (p : Phi) : Prop :=
  ∃ v e, S.plan.owner p.dst = some v ∧ S.plan.entries[p.label]? = some e ∧ e v = some p.dst ∧
    (∀ b ∈ p.branches, S.plan.owner b = some v) ∧
    ∀ j, blockOf? S.func.blocks p.label = some j →
      p.branches.length = (arrivals S.func.blocks j).length

variable {S : Setting} {σ σ' : Point}

/-! ## Points -/

lemma afterAll_append (q : Plan) (σ : Point) (is : List Instr) (i : Instr) :
    σ.afterAll q (is ++ [i]) = (σ.afterAll q is).after q i := by
  simp [Point.afterAll]

variable {i : Instr}

lemma codeOk_append {is : List Instr} : S.CodeOk σ (is ++ [i]) ↔
    S.CodeOk σ is ∧ S.InstrOk (σ.afterAll S.plan is) i := by
  induction is generalizing σ with
  | nil => simp [CodeOk, Point.afterAll]
  | cons x xs ih =>
    rw [cons_append, CodeOk, CodeOk, ih, and_assoc]
    rfl

lemma CodeOk.instrOk {is : List Instr} (h : S.CodeOk σ is) {n : Nat}
    (hi : is[n]? = some i) : S.InstrOk (σ.afterAll S.plan (is.take n)) i := by
  induction is generalizing σ n with
  | nil => simp at hi
  | cons x xs ih =>
    cases n with
    | zero =>
      cases hi
      exact h.1
    | succ n =>
      rw [getElem?_cons_succ] at hi
      exact ih h.2 hi

lemma after_of_dst_eq_zero (h : i.dst = 0) : σ.after q i = σ := by
  rw [Point.after, if_pos h]

variable {v : VarId}

lemma after_of_owner_eq_some (hdst : i.dst ≠ 0) (h : q.owner i.dst = some v) :
    σ.after q i = { σ with env := fun w => if w = v then some i.dst else σ.env w } := by
  rw [Point.after, if_neg hdst, h]

lemma env_after_of_owner_ne (h : q.owner i.dst ≠ some v) : (σ.after q i).env v = σ.env v := by
  unfold Point.after
  split
  · rfl
  · split
    · next w hw => exact if_neg fun he => h (by rw [hw, he])
    · rfl

lemma mem_temps_after (h : id ∈ (σ.after q i).temps) : id = i.dst ∨ id ∈ σ.temps := by
  unfold Point.after at h
  split at h
  · exact .inr h
  · split at h
    · exact .inr h
    · exact mem_cons.1 h

lemma env_after (hdst : i.dst ≠ 0) (h : (σ.after q i).env v = some id) :
    id = i.dst ∨ σ.env v = some id ∧ q.owner i.dst ≠ some v := by
  unfold Point.after at h
  rw [if_neg hdst] at h
  cases ho : q.owner i.dst with
  | none =>
    rw [ho] at h
    exact .inr ⟨h, nofun⟩
  | some w =>
    rw [ho] at h
    dsimp only at h
    split at h
    · exact .inl (Option.some.inj h).symm
    · next hne => exact .inr ⟨h, fun he => hne (Option.some.inj he).symm⟩

end Setting

lemma Plan.Owned.after {σ : Point} (h : q.Owned σ.env) (i : Instr) : q.Owned (σ.after q i).env := by
  unfold Point.after
  split_ifs with hdst
  · exact h
  · cases ho : q.owner i.dst with
    | none => exact h
    | some v =>
      intro w id hw
      simp only at hw
      split_ifs at hw with hwv
      · cases hw
        rw [ho, hwv]
      · exact h w id hw

/-! ## Plans that go on -/

namespace Plan

structure Begins (p q : Plan) : Prop where
  owners : p.owners <+: q.owners
  entries : p.entries <+: q.entries
  starts : p.starts <+: q.starts

lemma Begins.refl (p : Plan) : p.Begins p := ⟨prefix_rfl, prefix_rfl, prefix_rfl⟩

lemma Begins.trans {p r : Plan} (hpq : p.Begins q) (hqr : q.Begins r) : p.Begins r :=
  ⟨hpq.owners.trans hqr.owners, hpq.entries.trans hqr.entries, hpq.starts.trans hqr.starts⟩

def addOwners (p : Plan) (vs : List (Option VarId)) : Plan := { p with owners := p.owners ++ vs }

def addEntries (p : Plan) (es : List Env) : Plan := { p with entries := p.entries ++ es }

def addStarts (p : Plan) (es : List Env) : Plan := { p with starts := p.starts ++ es }

variable {p q : Plan}

lemma begins_addOwners (p : Plan) (vs : List (Option VarId)) : p.Begins (p.addOwners vs) :=
  ⟨prefix_append _ _, prefix_rfl, prefix_rfl⟩

lemma begins_addEntries (p : Plan) (es : List Env) : p.Begins (p.addEntries es) :=
  ⟨prefix_rfl, prefix_append _ _, prefix_rfl⟩

lemma begins_addStarts (p : Plan) (es : List Env) : p.Begins (p.addStarts es) :=
  ⟨prefix_rfl, prefix_rfl, prefix_append _ _⟩

lemma Begins.owner_eq (h : p.Begins q) (hid : id < p.owners.length) : q.owner id = p.owner id := by
  obtain ⟨rest, hrest⟩ := h.owners
  rw [owner, owner, ← hrest, getElem?_append_left hid]

variable {k : Nat}

lemma Begins.owner_added {vs : List (Option VarId)} (h : (p.addOwners vs).Begins q)
    (hk : k < vs.length) : q.owner (p.owners.length + k) = vs[k]?.join := by
  obtain ⟨more, hmore⟩ := h.owners
  rw [owner, ← hmore, addOwners, getElem?_append_left (by simp; omega),
    getElem?_append_right (Nat.le_add_right _ _), Nat.add_sub_cancel_left]

variable {es : List Env}

lemma Begins.entry_added (h : (p.addEntries es).Begins q) {e : Env}
    (hk : es[k]? = some e) : q.entries[p.entries.length + k]? = some e := by
  obtain ⟨more, hmore⟩ := h.entries
  have hlt : k < es.length := (List.getElem?_eq_some_iff.1 hk).1
  rw [← hmore, addEntries, getElem?_append_left (by simp; omega),
    getElem?_append_right (Nat.le_add_right _ _), Nat.add_sub_cancel_left, hk]

lemma Begins.start_added (h : (p.addStarts es).Begins q) {e : Env}
    (hk : es[k]? = some e) : q.starts[p.starts.length + k]? = some e := by
  obtain ⟨more, hmore⟩ := h.starts
  have hlt : k < es.length := (List.getElem?_eq_some_iff.1 hk).1
  rw [← hmore, addStarts, getElem?_append_left (by simp; omega),
    getElem?_append_right (Nat.le_add_right _ _), Nat.add_sub_cancel_left, hk]

structure Covers (c : LowerContext) (p : Plan) (s : LowerState) : Prop where
  owners : p.owners.length = s.types.size
  entries : p.entries.length = s.labels.size + 1
  starts : p.starts.length = s.blocks.size + 1
  typed : ∀ id v, p.owner id = some v → s.types[id]? = some (c.module.varType v)

section Covers

variable {c : LowerContext} {s t : LowerState}

lemma Covers.addOwners (h : p.Covers c s) {vs : List (Option VarId)}
    (hsize : t.types.size = s.types.size + vs.length) (hlabels : t.labels.size = s.labels.size)
    (hblocks : t.blocks.size = s.blocks.size) (hgrows : s.types.toList <+: t.types.toList)
    (htyped : ∀ k v, vs[k]? = some (some v) →
      t.types[s.types.size + k]? = some (c.module.varType v)) :
    (p.addOwners vs).Covers c t where
  owners := by rw [hsize, ← h.owners, Plan.addOwners, length_append]
  entries := by rw [hlabels, ← h.entries]; rfl
  starts := by rw [hblocks, ← h.starts]; rfl
  typed id v hid := by
    rw [owner, Plan.addOwners] at hid
    by_cases hlt : id < p.owners.length
    · rw [getElem?_append_left hlt] at hid
      have hty := h.typed id v hid
      rw [← Array.getElem?_toList] at hty ⊢
      obtain ⟨more, hmore⟩ := hgrows
      rw [← hmore, getElem?_append_left (List.getElem?_eq_some_iff.1 hty).1, hty]
    · obtain ⟨k, rfl⟩ := Nat.exists_eq_add_of_le (Nat.not_lt.1 hlt)
      rw [getElem?_append_right (Nat.le_add_right _ _), Nat.add_sub_cancel_left] at hid
      rw [h.owners]
      exact htyped k v (Option.join_eq_some_iff.1 hid)

lemma Covers.addEntries (h : p.Covers c s) (htypes : t.types = s.types)
    (hlabels : t.labels.size = s.labels.size + es.length)
    (hblocks : t.blocks.size = s.blocks.size) : (p.addEntries es).Covers c t where
  owners := by rw [htypes, ← h.owners]; rfl
  entries := by rw [hlabels, Plan.addEntries, length_append, h.entries]; omega
  starts := by rw [hblocks, ← h.starts]; rfl
  typed id v hid := by
    rw [htypes]
    exact h.typed id v hid

lemma Covers.addStarts (h : p.Covers c s) (htypes : t.types = s.types)
    (hlabels : t.labels.size = s.labels.size)
    (hblocks : t.blocks.size = s.blocks.size + es.length) : (p.addStarts es).Covers c t where
  owners := by rw [htypes, ← h.owners]; rfl
  entries := by rw [hlabels, ← h.entries]; rfl
  starts := by rw [hblocks, Plan.addStarts, length_append, h.starts]; omega
  typed id v hid := by
    rw [htypes]
    exact h.typed id v hid

end Covers

end Plan

end VecLang.Ssa
