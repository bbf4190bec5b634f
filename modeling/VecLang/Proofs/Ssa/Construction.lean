import VecLang.Ssa.Lower
import VecLang.Proofs.Stateful

/-!
# How code is constructed

What each part of lowering does to the state, as plain equations. The primitive steps become
functions on states (`LowerState.append`, `LowerState.close`, `LowerState.opened`), and the parts
made of them are taken apart into the runs of their own parts, with the states in between
(`ChoiceRun`, `LoopRun`). Nothing here depends on the program being well typed.
-/

namespace VecLang.Ssa

open Stateful List Array Typed

namespace LowerState

def addValue (s : LowerState) (t : Ty) : LowerState := { s with types := s.types.push t }

def addValues (s : LowerState) (ts : List Ty) : LowerState :=
  { s with types := s.types ++ ts.toArray }

def addLabel (s : LowerState) (hint : Bytes) : LowerState :=
  { s with labels := s.labels.push ("L" ++ Bytes.ofNat (s.labels.size + 1) ++ "_" ++ hint) }

def append (s : LowerState) (i : Instr) : LowerState :=
  { s with current := { s.current with instrs := s.current.instrs.push i } }

def close (s : LowerState) (t : Term) : LowerState :=
  { s with current := { s.current with term := t } }

def opened (s : LowerState) (l : LabelId) : LowerState :=
  { s with blocks := s.blocks.push s.current, current := { label := l } }

def addPhis (s : LowerState) (ps : List Phi) : LowerState := { s with phis := s.phis ++ ps.toArray }

def inScope (s : LowerState) (scope : List Bindings) : LowerState := { s with scope }

def inLoops (s : LowerState) (loops : List LoopFrame) : LowerState := { s with loops }

def bound (s : LowerState) (v : VarId) (id : ValueId) : LowerState := s.inScope (setIn s.scope v id)

/-- Code can be appended: the current block has not ended. -/
def Live (s : LowerState) : Prop := s.current.term = .none

instance (s : LowerState) : Decidable s.Live := inferInstanceAs (Decidable (_ = _))

/-- The values set in the innermost part of the scope. -/
def arm (s : LowerState) : Bindings := s.scope.headD []

def lookup (s : LowerState) (v : VarId) : Option ValueId := lookupIn s.scope v

end LowerState

open LowerState

variable {c : LowerContext} {s t : LowerState}

/-! ## Scopes -/

lemma lookupIn_cons (b : Bindings) (scope : List Bindings) (v : VarId) :
    lookupIn (b :: scope) v = (b.get? v).or (lookupIn scope v) := by
  unfold lookupIn
  rw [findSome?_cons]
  cases b.get? v <;> rfl

lemma lookupIn_setIn (scope : List Bindings) (v w : VarId) (id : ValueId) :
    lookupIn (setIn scope v id) w = if v = w then some id else lookupIn scope w := by
  cases scope with
  | nil =>
    rw [setIn, lookupIn_cons, Assoc.get?_set]
    split <;> rfl
  | cons b rest =>
    rw [setIn, lookupIn_cons, lookupIn_cons, Assoc.get?_set]
    split
    · rfl
    · rfl

lemma tail_setIn (scope : List Bindings) (v : VarId) (id : ValueId) :
    (setIn scope v id).tail = scope.tail := by
  cases scope <;> rfl

lemma lookup_bound (s : LowerState) (v w : VarId) (id : ValueId) :
    (s.bound v id).lookup w = if v = w then some id else s.lookup w :=
  lookupIn_setIn s.scope v w id

lemma varValue_eq_ok {v : VarId} {r : ValueId × LowerState} :
    varValue c v s = .ok r ↔ ∃ id, (s.lookup v).or (c.consts.get? v) = some id ∧ r = (id, s) := by
  rw [varValue, get_bind, LowerState.lookup]
  cases lookupIn s.scope v with
  | some id => simp [pure_eq_ok]
  | none =>
    cases c.consts.get? v with
    | some id => simp [pure_eq_ok]
    | none => cases c.table.var? v <;> simp [throw_ne_ok]

lemma mapM_varValue_eq_ok {vs : List VarId} {r : List ValueId × LowerState} :
    vs.mapM (varValue c) s = .ok r ↔
      ∃ ids, vs.map (fun v => (s.lookup v).or (c.consts.get? v)) = ids.map some ∧ r = (ids, s) := by
  induction vs generalizing r with
  | nil => simp [pure_eq_ok]
  | cons v vs ih =>
    simp only [mapM_cons_eq_ok, varValue_eq_ok, map_cons]
    constructor
    · rintro ⟨id, t, ids, u, ⟨_, hid, heq⟩, hids, rfl⟩
      cases heq
      obtain ⟨_, hids', heq⟩ := ih.1 hids
      cases heq
      exact ⟨id :: ids, by rw [hid, hids', map_cons], rfl⟩
    · rintro ⟨_ | ⟨id, ids⟩, h, rfl⟩
      · cases h
      · obtain ⟨hid, hids⟩ := List.cons.inj h
        exact ⟨id, s, ids, s, ⟨id, hid, rfl⟩, ih.2 ⟨ids, hids, rfl⟩, rfl⟩

/-! ## Results and branches -/

lemma result_eq_ok {known : Option Value} {ty : Ty} {instr : ValueId → Instr}
    {r : Atom × LowerState} :
    result known ty instr s = .ok r ↔ (∃ v, known = some v ∧ r = (.lit v, s)) ∨
        (known = none ∧ r = (.ref s.types.size ty, (s.addValue ty).append (instr s.types.size))) := by
  cases known with
  | some v => simp [result, pure_eq_ok]
  | none =>
    simp only [result, reduceCtorEq, false_and, exists_false, true_and, false_or]
    exact Iff.intro (fun h => by cases h; rfl) fun h => by rw [h]; rfl

/-- A result is known where its operands are: it is worked out at once. -/
def Folded {α : Type} (operands : Option α) (f : α → Except Breakdown Value) (ty : Ty)
    (instr : ValueId → Instr) (s : LowerState) (r : Atom × LowerState) : Prop :=
  ∃ known, result known ty instr s = .ok r ∧ (known = none → operands = none) ∧
    ∀ v, known = some v → ∃ x, operands = some x ∧ f x = .ok v

section Folded

variable {ty : Ty} {span : Span} {r : Atom × LowerState}

lemma folded_of {α : Type} {operands : Option α} {f : α → Except Breakdown Value}
    {instr : ValueId → Instr} (hnone : operands = none → result none ty instr s = .ok r)
    (hsome : ∀ x, operands = some x → (do return .lit (← f x) : Lower Atom) s = .ok r) :
    Folded operands f ty instr s r := by
  cases operands with
  | none => exact ⟨none, hnone rfl, fun _ => rfl, nofun⟩
  | some x =>
    obtain ⟨v, _, hv, h⟩ := bind_eq_ok.1 (hsome x rfl)
    obtain ⟨_, hx, heq⟩ := lift_eq_ok.1 hv
    cases heq
    exact ⟨some v, h, nofun, fun _ hw => ⟨x, rfl, Option.some.inj hw ▸ hx⟩⟩

lemma lowerExpr_pack_eq_ok {elems : List Expr} (h : lowerExpr c (.pack ty span elems) s = .ok r) :
    ∃ as s1, lowerExprs c elems s = .ok (as, s1) ∧
      Folded (as.mapM c.constant?) (Value.pack ty) ty (.pack · as) s1 r := by
  obtain ⟨as, s1, has, h⟩ := bind_eq_ok.1 h
  exact ⟨as, s1, has, folded_of (fun hk => by simpa only [hk] using h) fun _ hk => by
    simpa only [hk] using h⟩

lemma lowerExpr_swizzle_eq_ok {lanes : List Nat} {x : Expr}
    (h : lowerExpr c (.swizzle ty span lanes x) s = .ok r) : ∃ l s1, lowerExpr c x s = .ok (l, s1) ∧
      Folded (c.constant? l) (·.swizzle lanes) ty (.swizzle · l lanes) s1 r := by
  obtain ⟨l, s1, hl, h⟩ := bind_eq_ok.1 h
  exact ⟨l, s1, hl, folded_of (fun hk => by simpa only [hk] using h) fun _ hk => by
    simpa only [hk] using h⟩

end Folded

def LowerContext.known? (c : LowerContext) (op : BinaryOp) (l r : Atom) : Option Value := do
  Value.binary? op (← c.constant? l) (← c.constant? r)

lemma lowerBranch_eq (l : Atom) (op : BinaryOp) (r : Atom) (operand : Ty) (yes no : LabelId) :
    lowerBranch c l op r operand yes no s = .ok ((), match c.known? op l r with
      | some v => s.close (.goto (if v.isTrue then yes else no))
      | none => ((s.close (.branch l op r operand yes)).opened 0).close (.goto no)) := by
  change (match c.known? op l r with | some v => _ | none => _ : Lower Unit) s = _
  cases c.known? op l r <;> rfl

lemma lowerTest_eq_ok {e : Expr} {yes no : LabelId} :
    lowerTest c e yes no s = .ok ((), t) ↔ ∃ a s1, lowerExpr c e s = .ok (a, s1) ∧
      t = match c.constant? a with
        | some v => s1.close (.goto (if v.isTrue then yes else no))
        | none => ((s1.close (.branch a .eq (.lit (.bool true)) .bool yes)).opened 0).close
            (.goto no) := by
  rw [lowerTest, bind_eq_ok]
  refine exists_congr fun a => exists_congr fun s1 => and_congr_right fun _ => ?_
  cases hk : c.constant? a with
  | some v =>
    simp only
    exact ⟨fun h => by cases h; rfl, fun h => by rw [h]; rfl⟩
  | none =>
    simp only
    rw [lowerBranch_eq]
    have hknown : c.known? .eq a (.lit (.bool true)) = none := by
      simp [LowerContext.known?, hk]
    rw [hknown]
    exact ⟨fun h => by cases h; rfl, fun h => by rw [h]⟩

@[simp] lemma size_labels_addLabel (s : LowerState) (hint : Bytes) :
    (s.addLabel hint).labels.size = s.labels.size + 1 := size_push _

lemma startBlock_bind {α : Type} {l : LabelId} {f : Unit → Lower α} :
    (startBlock l >>= f) s = f () (s.opened l) := (rfl)

lemma jumpIf_bind {α : Type} {b : Bool} {l : LabelId} {f : Lower α} :
    (if b = true then jump l >>= fun _ => f else f) s = f (if b = true then s.close (.goto l) else s) := by
  cases b <;> rfl

lemma newLabel_bind {α : Type} {hint : Bytes} {f : LabelId → Lower α} :
    (newLabel hint >>= f) s = f (s.labels.size + 1) (s.addLabel hint) := (rfl)

/-! ## Conditions -/

inductive CondRun (c : LowerContext) :
    Expr → LabelId → LabelId → LowerState → LowerState → Prop
  | negation {ty span x yes no s t} (h : CondRun c x no yes s t) :
      CondRun c (.unary ty span .not x) yes no s t
  | both {ty span operand scaling x y yes no s t u}
      (hx : CondRun c x (s.labels.size + 1) no (s.addLabel "and") u)
      (hy : CondRun c y yes no (u.opened (s.labels.size + 1)) t) :
      CondRun c (.binary ty span .and operand scaling x y) yes no s t
  | either {ty span operand scaling x y yes no s t u}
      (hx : CondRun c x yes (s.labels.size + 1) (s.addLabel "or") u)
      (hy : CondRun c y yes no (u.opened (s.labels.size + 1)) t) :
      CondRun c (.binary ty span .or operand scaling x y) yes no s t
  | compare {ty span op operand scaling x y l r yes no s s1 s2 t} (hop : op.isRel = true)
      (hx : lowerExpr c x s = .ok (l, s1)) (hy : lowerExpr c y s1 = .ok (r, s2))
      (h : lowerBranch c l op r operand yes no s2 = .ok ((), t)) :
      CondRun c (.binary ty span op operand scaling x y) yes no s t
  | test {e yes no s t} (h : lowerTest c e yes no s = .ok ((), t)) : CondRun c e yes no s t

lemma condRun_of_lowerCond (e : Expr) {yes no : LabelId} {s t : LowerState}
    (h : lowerCond c e yes no s = .ok ((), t)) : CondRun c e yes no s t := by
  match e with
  | .unary ty span op x =>
    rw [lowerCond] at h
    split at h
    case isTrue hop =>
      subst hop
      exact .negation (condRun_of_lowerCond x h)
    case isFalse => exact .test h
  | .binary ty span op operand scaling x y =>
    rw [lowerCond] at h
    split at h
    case isTrue hop =>
      subst hop
      rw [newLabel_bind] at h
      obtain ⟨⟨⟩, u, hx, h⟩ := bind_eq_ok.1 h
      exact .both (condRun_of_lowerCond x hx) (condRun_of_lowerCond y h)
    split at h
    case isTrue hop =>
      subst hop
      rw [newLabel_bind] at h
      obtain ⟨⟨⟩, u, hx, h⟩ := bind_eq_ok.1 h
      exact .either (condRun_of_lowerCond x hx) (condRun_of_lowerCond y h)
    split at h
    case isTrue hop =>
      simp only [bind_eq_ok] at h
      obtain ⟨l, s1, hx, r, s2, hy, h⟩ := h
      exact .compare hop hx hy h
    case isFalse => exact .test h
  | .lit _ _ _ | .var _ _ _ | .call _ _ _ _ | .pack _ _ _ | .swizzle _ _ _ _ =>
    exact .test h

/-! ## Loop exits -/

/-- The frame of a loop with one more way back to its start, or out of it. -/
def LoopFrame.left (loop : LoopFrame) (again : Bool) (vals : List ValueId) : LoopFrame :=
  if again then { loop with continues := vals :: loop.continues }
  else { loop with breaks := vals :: loop.breaks }

/-- Where a way out of the current round goes. -/
def LoopFrame.exit (loop : LoopFrame) (again : Bool) : LabelId :=
  if again then loop.start else loop.stop

lemma lowerLoopExit_eq_ok {again : Bool} :
    lowerLoopExit c again s = .ok ((), t) ↔ ∃ loop outer vals, s.loops = loop :: outer ∧
      loop.carried.mapM (varValue c) s = .ok (vals, s) ∧
      t = (s.inLoops (loop.left again vals :: outer)).close (.goto (loop.exit again)) := by
  rw [lowerLoopExit, get_bind]
  cases s.loops with
  | nil => simp [throw_ne_ok]
  | cons loop outer =>
    simp only [bind_eq_ok]
    constructor
    · rintro ⟨vals, s1, hvals, h⟩
      obtain ⟨ids, -, heq⟩ := mapM_varValue_eq_ok.1 hvals
      cases heq
      refine ⟨loop, outer, vals, rfl, hvals, ?_⟩
      cases again <;> cases h <;> rfl
    · rintro ⟨_, _, vals, heq, hvals, rfl⟩
      cases heq
      refine ⟨vals, s, hvals, ?_⟩
      cases again <;> rfl

/-! ## Where control flow meets -/

inductive Meet where
  /-- A phi takes the place of the values that meet. -/
  | phi (branches : List ValueId)
  | take (id : ValueId)
  | keep

def LowerState.meet (c : LowerContext) (label : LabelId) (s : LowerState) (v : VarId) :
    Meet → LowerState
  | .phi branches =>
    ((s.addValue (c.module.varType v)).addPhis [⟨s.types.size, label, branches⟩]).bound v
      s.types.size
  | .take id => s.bound v id
  | .keep => s

def LowerState.meetAll (c : LowerContext) (label : LabelId) :
    LowerState → List (VarId × Meet) → LowerState
  | s, [] => s
  | s, (v, m) :: rest => (s.meet c label v m).meetAll c label rest

/-- What becomes of a variable behind the two arms of a choice. -/
def armMeet (aLive bLive : Bool) (outer a b : Option ValueId) : Meet :=
  if aLive && bLive then
    match a.or outer, b.or outer with
    | some av, some bv => .phi [av, bv]
    | some av, none => .take av
    | none, some bv => .take bv
    | none, none => .keep
  else if aLive then (a.map .take).getD .keep
  else if bLive then (b.map .take).getD .keep
  else .keep

/-- The variables that one of two arms has set. -/
def touched (a b : Bindings) : List VarId := a.keys ++ b.keys.filter fun v => (a.get? v).isNone

lemma mergeVar_eq (label : LabelId) (outer a b : Option ValueId) (aLive bLive : Bool) (v : VarId) :
    mergeVar c label outer a b aLive bLive v s =
      .ok ((), s.meet c label v (armMeet aLive bLive outer a b)) := by
  cases aLive <;> cases bLive
  · rfl
  · cases b <;> rfl
  · cases a <;> rfl
  · cases a <;> cases b <;> cases outer <;> rfl

lemma lookup_meet_of_ne (label : LabelId) {v w : VarId} (hvw : v ≠ w) (m : Meet) :
    (s.meet c label v m).lookup w = s.lookup w := by
  cases m with
  | phi branches => exact (lookup_bound _ v w _).trans (if_neg hvw)
  | take id => exact (lookup_bound _ v w _).trans (if_neg hvw)
  | keep => rfl

/-- What becomes of the variables that the arms of a choice have set. -/
def armMeets (aLive bLive : Bool) (outer : VarId → Option ValueId) (a b : Bindings) :
    List (VarId × Meet) :=
  (touched a b).map fun v => (v, armMeet aLive bLive (outer v) (a.get? v) (b.get? v))

lemma mergeArms_eq (label : LabelId) {a b : Bindings} (aLive bLive : Bool)
    (hnodup : (touched a b).Nodup) :
    mergeArms c label a b aLive bLive s =
      .ok ((), s.meetAll c label (armMeets aLive bLive s.lookup a b)) := by
  -- a variable that is still to be dealt with has the value it had at the start
  have main : ∀ (vs : List VarId) (u : LowerState), vs.Nodup → (∀ v ∈ vs, u.lookup v = s.lookup v) →
      (vs.forM fun v => do
        mergeVar c label (lookupIn (← get).scope v) (a.get? v) (b.get? v) aLive bLive v) u =
      .ok ((), u.meetAll c label
        (vs.map fun v => (v, armMeet aLive bLive (s.lookup v) (a.get? v) (b.get? v)))) := by
    intro vs
    induction vs with
    | nil => exact fun u _ _ => rfl
    | cons v vs ih =>
      intro u hnd hsame
      obtain ⟨hv, hnd⟩ := nodup_cons.1 hnd
      have hlook : lookupIn u.scope v = s.lookup v := hsame v mem_cons_self
      let m := armMeet aLive bLive (s.lookup v) (a.get? v) (b.get? v)
      refine bind_eq_ok.2 ⟨(), u.meet c label v m, ?_, ?_⟩
      · refine bind_eq_ok.2 ⟨u, u, get_eq_ok.2 rfl, ?_⟩
        rw [hlook]
        exact mergeVar_eq _ _ _ _ _ _ _
      · refine ih _ hnd fun w hw => ?_
        have hne : v ≠ w := fun heq => hv (heq ▸ hw)
        rw [lookup_meet_of_ne label hne]
        exact hsame w (mem_cons_of_mem _ hw)
  exact main (touched a b) s hnodup fun _ _ => rfl

/-- What becomes of the variables of a loop behind it, given their values at the ways out. -/
def exitMeets (breaks : List (List ValueId)) : Nat → List (VarId × ValueId) → List (VarId × Meet)
  | _, [] => []
  | i, (v, head) :: rest =>
    (v, if breaks.isEmpty then .take head
      else .phi ((breaks.map fun vals => vals.getD i 0) ++ [head])) :: exitMeets breaks (i + 1) rest

lemma leaveLoop_eq (stop : LabelId) (breaks : List (List ValueId)) (i : Nat)
    (vars : List (VarId × ValueId)) (s : LowerState) :
    leaveLoop c stop breaks i vars s = .ok ((), s.meetAll c stop (exitMeets breaks i vars)) := by
  induction vars generalizing i s with
  | nil => rfl
  | cons x vars ih =>
    obtain ⟨v, head⟩ := x
    rw [leaveLoop]
    cases hb : breaks.isEmpty with
    | true =>
      rw [if_pos rfl, exitMeets, hb]
      exact bind_eq_ok.2 ⟨(), s.bound v head, rfl, ih _ _⟩
    | false =>
      rw [if_neg (by decide), exitMeets, hb]
      exact ih _ _

def headPhis (start : LabelId) (ways : List (List ValueId)) :
    Nat → List (ValueId × ValueId) → List Phi
  | _, [] => []
  | i, (head, entry) :: rest =>
    ⟨head, start, entry :: ways.map fun vals => vals.getD i 0⟩ :: headPhis start ways (i + 1) rest

lemma addHeadPhis_eq (start : LabelId) (loop : LoopFrame) (back : Option (List ValueId))
    (i : Nat) (vars : List (ValueId × ValueId)) (s : LowerState) :
    addHeadPhis start loop back i vars s =
      .ok ((), s.addPhis (headPhis start (loop.continues.reverse ++ back.toList) i vars)) := by
  induction vars generalizing i s with
  | nil => simp [addHeadPhis, headPhis, addPhis, pure_eq_ok]
  | cons x vars ih =>
    obtain ⟨head, entry⟩ := x
    refine bind_eq_ok.2 ⟨(), s.addPhis [_], rfl, ?_⟩
    rw [ih]
    simp [addPhis, headPhis]

/-! ## Choices and loops -/

lemma not_ended (s : LowerState) : (!decide (s.current.term ≠ .none)) = decide s.Live := by
  by_cases h : s.Live
  · simp [h, show s.current.term = .none from h]
  · simp [h, show s.current.term ≠ .none from h]

lemma terminated_eq (s : LowerState) : terminated s = .ok (!decide s.Live, s) := by
  change Except.ok (decide (s.current.term ≠ .none), s) = _
  rw [← not_ended, Bool.not_not]

lemma inArm_eq_ok {first : Bindings} {arm : Lower Unit} {r : (Bindings × Bool) × LowerState} :
    inArm first arm s = .ok r ↔ ∃ u, arm (s.inScope (first :: s.scope)) = .ok ((), u) ∧
      r = ((u.arm, decide u.Live), u.inScope s.scope) := by
  rw [inArm, get_bind, modify_bind, unit_bind_eq_ok]
  refine exists_congr fun u => and_congr_right fun _ => ?_
  rw [← not_ended]
  exact ⟨fun h => by cases h; rfl, fun h => by rw [h]; rfl⟩

structure ChoiceRun (c : LowerContext) (cond : Expr) (thenArm elseArm : Lower Unit)
    (s : LowerState) where
  afterCond : LowerState
  afterThen : LowerState
  afterElse : LowerState
  cond_eq : lowerCond c cond (s.labels.size + 1) (s.labels.size + 2)
    (((s.addLabel "then").addLabel "else").addLabel "endif") = .ok ((), afterCond)
  then_eq : thenArm ((afterCond.opened (s.labels.size + 1)).inScope ([] :: afterCond.scope)) =
    .ok ((), afterThen)
  else_eq : elseArm (((if afterThen.Live then afterThen.close (.goto (s.labels.size + 3))
    else afterThen).opened (s.labels.size + 2)).inScope ([] :: afterCond.scope)) =
    .ok ((), afterElse)

variable {cond : Expr}

def ChoiceRun.joinStart {thenArm elseArm : Lower Unit}
    (r : ChoiceRun c cond thenArm elseArm s) : LowerState :=
  (r.afterElse.opened (s.labels.size + 3)).inScope r.afterCond.scope

lemma lowerChoice_eq_ok {thenArm elseArm : Lower Unit} :
    lowerChoice c cond thenArm elseArm s = .ok ((), t) ↔ ∃ r : ChoiceRun c cond thenArm elseArm s,
        mergeArms c (s.labels.size + 3) r.afterThen.arm r.afterElse.arm (decide r.afterThen.Live)
          (decide r.afterElse.Live) r.joinStart = .ok ((), t) := by
  have hjump (u : LowerState) (scope : List Bindings) (l : LabelId) :
      (if decide u.Live = true then (u.inScope scope).close (.goto l) else u.inScope scope) =
        (if u.Live then u.close (.goto l) else u).inScope scope := by
    by_cases hlive : u.Live <;> simp only [hlive, decide_true, decide_false, if_true] <;> rfl
  simp only [lowerChoice, newLabel_bind, size_labels_addLabel, Nat.add_assoc, Nat.reduceAdd,
    startBlock_bind, jumpIf_bind, bind_eq_ok, inArm_eq_ok]
  constructor
  · rintro ⟨_, s1, hcond, _, _, ⟨s2, hthen, heq⟩, _, _, ⟨s3, helse, heq'⟩, h⟩
    cases heq
    cases heq'
    rw [hjump] at helse h
    exact ⟨⟨s1, s2, s3, hcond, hthen, helse⟩, h⟩
  · rintro ⟨⟨s1, s2, s3, hcond, hthen, helse⟩, h⟩
    refine ⟨(), s1, hcond, _, _, ⟨s2, hthen, rfl⟩, _, _, ⟨s3, ?_, rfl⟩, ?_⟩
    · rw [hjump]
      exact helse
    · rw [hjump]
      exact h

lemma lowerBack_eq_ok {start : LabelId} {carried : List VarId} {back : Option (List ValueId)} :
    lowerBack c start carried s = .ok (back, t) ↔ (¬ s.Live ∧ back = none ∧ t = s) ∨
        (s.Live ∧ ∃ vals, carried.mapM (varValue c) s = .ok (vals, s) ∧ back = some vals ∧
          t = s.close (.goto start)) := by
  rw [lowerBack, bind_of_eq_ok (terminated_eq s)]
  by_cases hlive : s.Live
  · simp only [hlive, decide_true, Bool.not_true, Bool.false_eq_true, if_false, not_true, false_and,
      true_and, false_or, jump, terminate, modify_bind, bind_eq_ok, mapM_varValue_eq_ok, pure_eq_ok]
    constructor
    · rintro ⟨_, _, ⟨vals, hvals, heq⟩, heq'⟩
      cases heq
      cases heq'
      exact ⟨_, ⟨_, hvals, rfl⟩, rfl, rfl⟩
    · rintro ⟨_, ⟨vals, hvals, heq⟩, rfl, rfl⟩
      cases heq
      exact ⟨_, _, ⟨_, hvals, rfl⟩, rfl⟩
  · simp [hlive, pure_eq_ok]

def carriedBy (s : LowerState) (body : List Typed.Stmt) : List VarId :=
  (carriedVars s.scope body).map (·.1)

/-- The values of those variables at the start of every round. -/
def headsOf (s : LowerState) (body : List Typed.Stmt) : List ValueId :=
  List.range' s.types.size (carriedBy s body).length

def loopHead (c : LowerContext) (s : LowerState) (body : List Typed.Stmt) : LowerState :=
  ((((((s.addLabel "while").addLabel "body").addLabel "exit").addLabel "endwhile").addValues
    ((carriedBy s body).map c.module.varType)).opened (s.labels.size + 1)).inScope
      ((carriedBy s body).zip (headsOf s body) :: s.scope)

structure LoopRun (c : LowerContext) (cond : Expr) (body : List Typed.Stmt)
    (run : Lower Unit) (s : LowerState) where
  afterCond : LowerState
  afterBody : LowerState
  afterBack : LowerState
  back : Option (List ValueId)
  cond_eq : lowerCond c cond (s.labels.size + 2) (s.labels.size + 3) (loopHead c s body) =
    .ok ((), afterCond)
  body_eq : run ((afterCond.opened (s.labels.size + 2)).inLoops
    (⟨s.labels.size + 1, s.labels.size + 4, carriedBy s body, [], []⟩ :: afterCond.loops)) =
    .ok ((), afterBody)
  back_eq : lowerBack c (s.labels.size + 1) (carriedBy s body) afterBody = .ok (back, afterBack)

namespace LoopRun

variable {cond : Expr} {body : List Typed.Stmt} {run : Lower Unit}

def loop (r : LoopRun c cond body run s) : LoopFrame :=
  r.afterBack.loops.headD ⟨s.labels.size + 1, s.labels.size + 4, carriedBy s body, [], []⟩

def phis (r : LoopRun c cond body run s) : List Phi :=
  headPhis (s.labels.size + 1) (r.loop.continues.reverse ++ r.back.toList) 0
    ((headsOf s body).zip ((carriedVars s.scope body).map (·.2)))

def closed (r : LoopRun c cond body run s) : LowerState :=
  ((((r.afterBack.inLoops r.afterBack.loops.tail).inScope s.scope).addPhis r.phis).opened
    (s.labels.size + 3)).opened (s.labels.size + 4)

def meets (r : LoopRun c cond body run s) : List (VarId × Meet) :=
  exitMeets r.loop.breaks.reverse 0 ((carriedBy s body).zip (headsOf s body))

end LoopRun

@[simp] lemma size_types_addValue (s : LowerState) (t : Ty) :
    (s.addValue t).types.size = s.types.size + 1 := size_push _

lemma mapM_newValue (vs : List VarId) (s : LowerState) :
    (vs.mapM fun v => newValue (c.module.varType v)) s =
      .ok (List.range' s.types.size vs.length, s.addValues (vs.map c.module.varType)) := by
  induction vs generalizing s with
  | nil => simp [addValues, pure_eq_ok]
  | cons v vs ih =>
    refine mapM_cons_eq_ok.2 ⟨_, s.addValue (c.module.varType v), _, _, rfl, ih _, ?_⟩
    have hpush : (s.addValue (c.module.varType v)).addValues (vs.map c.module.varType) =
        s.addValues ((v :: vs).map c.module.varType) := by
      simp [addValues, addValue]
    rw [hpush, size_types_addValue, length_cons, List.range'_succ]

lemma lowerLoop_eq_ok {body : List Typed.Stmt} {run : Lower Unit} :
    lowerLoop c cond body run s = .ok ((), t) ↔
      ∃ r : LoopRun c cond body run s, t = r.closed.meetAll c (s.labels.size + 4) r.meets := by
  simp only [lowerLoop, newLabel_bind, size_labels_addLabel, Nat.add_assoc, Nat.reduceAdd, get_bind,
    bind_of_eq_ok (mapM_newValue _ _), startBlock_bind, modify_bind, leaveLoop_eq,
    bind_of_eq_ok (addHeadPhis_eq _ _ _ _ _ _), bind_eq_ok, Except.ok.injEq, Prod.mk.injEq, true_and]
  constructor
  · rintro ⟨_, s1, hcond, _, s2, hbody, back, s3, hback, rfl⟩
    exact ⟨⟨s1, s2, s3, back, hcond, hbody, hback⟩, rfl⟩
  · rintro ⟨r, rfl⟩
    exact ⟨(), _, r.cond_eq, (), _, r.body_eq, _, _, r.back_eq, rfl⟩

end VecLang.Ssa
