import VecLang.Assembly.Program
import VecLang.Machine.State
import VecLang.Proofs.Assoc
import VecLang.Proofs.Ssa.Components
import VecLang.Proofs.Stateful

/-!
# Shared slots

The slots of a function are handed out as they are asked for. Whatever is asked in whatever order,
two values come to share a slot exactly if they are connected by phis (`sharedAddress_eq_iff`). So
the code of a function shares slots where the machine shares cells, and both write to them on the
same occasions (`shares_alike`).
-/

namespace VecLang.Assembly

open Ssa Stateful List Option

variable {phis : List Phi} {a b id : ValueId}

/-! ## Components -/

lemma mem_neighbours : b ∈ neighbours phis a ↔ Edge phis a b ∨ Edge phis b a := by
  simp only [neighbours, mem_flatMap, mem_append, Edge]
  constructor
  · rintro ⟨p, hp, h | h⟩
    · split at h
      · exact .inl ⟨p, hp, ‹_›, h⟩
      · cases h
    · split at h
      · exact .inr ⟨p, hp, (mem_singleton.1 h).symm, contains_iff_mem.1 ‹_›⟩
      · cases h
  · rintro (⟨p, hp, hdst, hb⟩ | ⟨p, hp, rfl, ha⟩)
    · exact ⟨p, hp, .inl (by rwa [if_pos hdst])⟩
    · refine ⟨p, hp, .inr ?_⟩
      rw [if_pos (contains_iff_mem.2 ha)]
      exact mem_singleton_self _

lemma connected_of_mem_neighbours (h : b ∈ neighbours phis a) : Connected phis a b :=
  (mem_neighbours.1 h).elim .of_edge fun h => (Connected.of_edge h).symm

def occurrences (phis : List Phi) : List ValueId := phis.flatMap fun p => p.dst :: p.branches

lemma length_occurrences (phis : List Phi) : (occurrences phis).length =
    (phis.map fun p => p.branches.length + 1).foldr (· + ·) 0 := by
  simp only [occurrences, length_flatMap, length_cons]
  rfl

lemma mem_occurrences_of_mem_neighbours (h : b ∈ neighbours phis a) : b ∈ occurrences phis := by
  rw [occurrences, mem_flatMap]
  rcases mem_neighbours.1 h with ⟨p, hp, -, hb⟩ | ⟨p, hp, rfl, -⟩
  · exact ⟨p, hp, mem_cons_of_mem _ hb⟩
  · exact ⟨p, hp, mem_cons_self⟩

lemma reachable_succ (phis : List Phi) (n : Nat) (found : List ValueId) :
    reachable phis (n + 1) found =
      if (added found (found.flatMap (neighbours phis))).length = found.length then found
      else reachable phis n (added found (found.flatMap (neighbours phis))) := rfl

lemma subset_reachable (n : Nat) (found : List ValueId) : found ⊆ reachable phis n found := by
  induction n generalizing found with
  | zero => exact fun _ h => h
  | succ n ih =>
    rw [reachable_succ]
    split
    · exact fun _ h => h
    · exact fun x hx => ih _ (mem_added.2 (.inl hx))

variable {found : List ValueId}

lemma connected_of_mem_reachable {n : Nat}
    (h : b ∈ reachable phis n found) : ∃ a ∈ found, Connected phis a b := by
  induction n generalizing found with
  | zero => exact ⟨b, h, .refl phis b⟩
  | succ n ih =>
    rw [reachable_succ] at h
    split at h
    · exact ⟨b, h, .refl phis b⟩
    · obtain ⟨c, hc, hcb⟩ := ih h
      rcases mem_added.1 hc with hc | hc
      · exact ⟨c, hc, hcb⟩
      · obtain ⟨a, ha, hac⟩ := mem_flatMap.1 hc
        exact ⟨a, ha, (connected_of_mem_neighbours hac).trans hcb⟩

def Closed (phis : List Phi) (found : List ValueId) : Prop :=
  ∀ a ∈ found, ∀ b ∈ neighbours phis a, b ∈ found

/-- A round that finds nothing new ends the search, and every other round makes the found values
more: after as many rounds as there are values left to be found, none is missing. -/
lemma closed_reachable {U : List ValueId} (hU : ∀ a, ∀ b ∈ neighbours phis a, b ∈ U) {n : Nat}
    (hnodup : found.Nodup) (hsub : found ⊆ U)
    (hlen : U.length ≤ found.length + n) : Closed phis (reachable phis n found) := by
  induction n generalizing found with
  | zero =>
    have hperm : found.Perm U := (subperm_of_subset hnodup hsub).perm_of_length_le hlen
    exact fun a _ b hb => hperm.mem_iff.2 (hU a b hb)
  | succ n ih =>
    rw [reachable_succ]
    have hprefix := prefix_added found (found.flatMap (neighbours phis))
    split
    next hsame =>
      -- nothing was added, so all neighbours were there
      have heq := hprefix.eq_of_length hsame.symm
      intro a ha b hb
      rw [heq]
      exact mem_added.2 (.inr (mem_flatMap.2 ⟨a, ha, hb⟩))
    next hmore =>
      have hle := hprefix.length_le
      refine ih (nodup_added hnodup _) (fun x hx => ?_) (by omega)
      rcases mem_added.1 hx with hx | hx
      · exact hsub hx
      · obtain ⟨a, -, hb⟩ := mem_flatMap.1 hx
        exact hU a x hb

lemma Closed.mem_iff (h : Closed phis found) (hab : Connected phis a b) :
    a ∈ found ↔ b ∈ found := by
  induction hab with
  | rel a b hedge =>
    exact ⟨fun ha => h a ha b (mem_neighbours.2 (.inl hedge)),
      fun hb => h b hb a (mem_neighbours.2 (.inr hedge))⟩
  | refl a => exact Iff.rfl
  | symm a b _ ih => exact ih.symm
  | trans a b c _ _ ih ih' => exact ih.trans ih'

/-- The search finds the connected component of a value, also where edges form a cycle. -/
lemma mem_component_iff : b ∈ component phis a ↔ Connected phis a b := by
  constructor
  · intro h
    obtain ⟨a', ha', hab⟩ := connected_of_mem_reachable h
    rwa [mem_singleton.1 ha'] at hab
  · intro hab
    have hclosed : Closed phis (component phis a) := by
      refine closed_reachable
        (fun x y hy => mem_cons_of_mem _ (mem_occurrences_of_mem_neighbours hy))
        (nodup_singleton a) (cons_subset_cons a (nil_subset _)) ?_
      rw [length_cons, length_singleton, length_occurrences]
      omega
    exact (hclosed.mem_iff hab).1 (subset_reachable _ _ (mem_singleton_self a))

/-! ## Room for slots -/

lemma le_alignUp {n : Int} (hn : 0 ≤ n) (a : Int) : n ≤ alignUp n a := by
  unfold alignUp
  split
  · exact Int.le_refl n
  · have hpos : 0 < a := by omega
    rw [Int.tdiv_eq_ediv_of_nonneg (by omega)]
    have hdiv := Int.ediv_mul_add_emod (n + a - 1) a
    have hmod := Int.emod_lt_of_pos (n + a - 1) hpos
    omega

lemma size_roomOf_nonneg {target : Target} (h : 0 ≤ target.wordSize) (t : Ty) :
    0 ≤ (target.roomOf t).size := by
  cases t <;> simp [Target.roomOf, h]

/-- The place at a distance below the frame pointer. -/
def below (k : Int) : Address := { base := .reg .rbp, offset := -k }

variable {k : Int}

lemma below_inj {j : Int} (h : below j = below k) : j = k := by
  have hoffset : -j = -k := congrArg Address.offset h
  omega

lemma exists_allocate {target : Target} (hword : 0 ≤ target.wordSize) {s : Storage}
    (hs : 0 ≤ s.size) (t : Ty) : ∃ k, s.allocate target t = (below k, { s with size := k }) ∧
      s.size + (target.roomOf t).size ≤ k := by
  have hroom := size_roomOf_nonneg hword t
  exact ⟨_, rfl, le_alignUp (by omega) _⟩

/-! ## One request -/

def assigned (m : Assoc ValueId Address) (ids : List ValueId) (x : Address) :
    Assoc ValueId Address :=
  ids.foldl (fun m v => if (m.get? v).isSome then m else m.set v x) m

lemma get?_assigned (m : Assoc ValueId Address) (ids : List ValueId) (x : Address) :
    (assigned m ids x).get? a = (m.get? a).or (if a ∈ ids then some x else none) := by
  induction ids generalizing m with
  | nil => simp [assigned]
  | cons v vs ih =>
    change (assigned (if (m.get? v).isSome then m else m.set v x) vs x).get? a = _
    rw [ih]
    cases hv : m.get? v with
    | some y =>
      by_cases hva : a = v
      · simp [hva, hv]
      · simp [hva]
    | none =>
      by_cases hva : a = v
      · simp [hva, hv, Assoc.get?_set]
      · simp [hva, Assoc.get?_set, Ne.symm hva]

variable {c : Context} {s s' : Storage} {x : Address}

variable {t : Ty}

lemma typeOf_eq_ok : typeOf c id s = .ok (t, s') ↔ c.module.typeOf id = .ok t ∧ s' = s := by
  unfold typeOf
  cases c.module.typeOf id with
  | error e => simp [throw_ne_ok]
  | ok u =>
    simp only [pure_eq_ok, Prod.mk.injEq, Except.ok.injEq]
    exact and_congr_left fun _ => eq_comm

lemma sharedAddress_of_some (h : s.shared.get? id = some x) :
    sharedAddress c id s = .ok (x, s) := by
  rw [sharedAddress, Stateful.get_bind, h]
  rfl

lemma sharedAddress_of_none (h : s.shared.get? id = none)
    (ht : c.module.typeOf id = .ok t) : sharedAddress c id s =
      .ok ((s.allocate c.target t).1, { (s.allocate c.target t).2 with
        shared := assigned s.shared (component c.func.phis id) (s.allocate c.target t).1 }) := by
  rw [sharedAddress, Stateful.get_bind, h]
  refine bind_eq_ok.2 ⟨(s.allocate c.target t).1, (s.allocate c.target t).2, ?_, rfl⟩
  exact bind_of_eq_ok (typeOf_eq_ok.2 ⟨ht, rfl⟩)

lemma exists_typeOf_of_sharedAddress (h : s.shared.get? id = none)
    (hok : sharedAddress c id s = .ok (x, s')) : ∃ t, c.module.typeOf id = .ok t := by
  obtain ⟨s1, _, hget, hok⟩ := bind_eq_ok.1 hok
  cases get_eq_ok.1 hget
  rw [h] at hok
  obtain ⟨y, s2, hallocate, -⟩ := bind_eq_ok.1 hok
  obtain ⟨t, s3, htype, -⟩ := bind_eq_ok.1 hallocate
  exact ⟨t, (typeOf_eq_ok.1 htype).1⟩

/-! ## What holds of the slots at any time -/

def HasType (c : Context) (a : ValueId) (t : Ty) : Prop :=
  ∀ b, Connected c.func.phis a b → c.module.typeOf b = .ok t

def TakesRoom (c : Context) (t : Ty) : Prop := (c.target.roomOf t).size ≠ 0

/-- The shared slots are right: connected values share, others do not. -/
structure Tidy (c : Context) (s : Storage) : Prop where
  size : 0 ≤ s.size
  connected : ∀ {a b x}, s.shared.get? a = some x → Connected c.func.phis a b →
    s.shared.get? b = some x
  inUse : ∀ {a x}, s.shared.get? a = some x → ∃ k, x = below k ∧ k ≤ s.size
  apart : ∀ {a b x t u}, s.shared.get? a = some x → s.shared.get? b = some x →
    HasType c a t → TakesRoom c t → HasType c b u → TakesRoom c u → Connected c.func.phis a b

/-- More slots were handed out, and no shared slot was changed. -/
structure Serves (s s' : Storage) : Prop where
  shared : ∀ {a x}, s.shared.get? a = some x → s'.shared.get? a = some x

lemma Tidy.grow (h : Tidy c s) (hk : s.size ≤ k) : Tidy c { s with size := k } where
  size := Int.le_trans h.size hk
  connected := h.connected
  inUse ha := by
    obtain ⟨j, hj, hle⟩ := h.inUse ha
    exact ⟨j, hj, Int.le_trans hle hk⟩
  apart := h.apart

lemma Tidy.assign (h : Tidy c s) (hnone : s.shared.get? id = none)
    (ht : c.module.typeOf id = .ok t) (hk : s.size + (c.target.roomOf t).size ≤ k)
    (hroom : 0 ≤ (c.target.roomOf t).size) :
    Tidy c { s with size := k, shared := assigned s.shared (component c.func.phis id) (below k) } := by
  -- no value of the component has a slot, since all of them would
  have hfresh {a : ValueId} (ha : Connected c.func.phis id a) : s.shared.get? a = none := by
    cases hget : s.shared.get? a with
    | none => rfl
    | some x => rw [h.connected hget ha.symm] at hnone; cases hnone
  have hcases {a : ValueId} {x : Address}
      (ha : (assigned s.shared (component c.func.phis id) (below k)).get? a = some x) :
      (Connected c.func.phis id a ∧ x = below k) ∨
        (¬ Connected c.func.phis id a ∧ s.shared.get? a = some x) := by
    rw [get?_assigned] at ha
    by_cases hconn : Connected c.func.phis id a
    · rw [hfresh hconn, if_pos (mem_component_iff.2 hconn)] at ha
      exact .inl ⟨hconn, (Option.some.inj ha).symm⟩
    · rw [if_neg (mt mem_component_iff.1 hconn), or_none] at ha
      exact .inr ⟨hconn, ha⟩
  -- an older slot at this place would have been followed by a value without room
  have hold {a b : ValueId} {x : Address} {u : Ty} (ha : Connected c.func.phis id a)
      (hx : x = below k) (hb : s.shared.get? b = some x) (hu : HasType c a u)
      (hsize : TakesRoom c u) : False := by
    obtain ⟨j, hj, hle⟩ := h.inUse hb
    cases below_inj (hj.symm.trans hx)
    cases ht.symm.trans (hu id ha.symm)
    exact hsize (by omega)
  have hsize : 0 ≤ k := by
    have := h.size
    omega
  refine ⟨hsize, fun {a b x} ha hab => ?_, fun {a x} ha => ?_,
    fun {a b x t u} ha hb hta hsa htb hsb => ?_⟩
  · rw [get?_assigned]
    rcases hcases ha with ⟨hconn, rfl⟩ | ⟨hconn, hget⟩
    · rw [hfresh (hconn.trans hab), if_pos (mem_component_iff.2 (hconn.trans hab)), none_or]
    · rw [h.connected hget hab, some_or]
  · rcases hcases ha with ⟨-, rfl⟩ | ⟨-, hget⟩
    · exact ⟨k, rfl, Int.le_refl k⟩
    · obtain ⟨j, hj, hle⟩ := h.inUse hget
      exact ⟨j, hj, by change j ≤ k; omega⟩
  · rcases hcases ha with ⟨hconn, hx⟩ | ⟨-, hget⟩
    · rcases hcases hb with ⟨hconn', -⟩ | ⟨-, hget'⟩
      · exact hconn.symm.trans hconn'
      · exact (hold hconn hx hget' hta hsa).elim
    · rcases hcases hb with ⟨hconn', hx'⟩ | ⟨-, hget'⟩
      · exact (hold hconn' hx' hget htb hsb).elim
      · exact h.apart hget hget' hta hsa htb hsb

lemma tidy_sharedAddress (hword : 0 ≤ c.target.wordSize) (h : Tidy c s)
    (hok : sharedAddress c id s = .ok (x, s')) :
    Tidy c s' ∧ Serves s s' ∧ s'.shared.get? id = some x := by
  cases hget : s.shared.get? id with
  | some y =>
    rw [sharedAddress_of_some hget] at hok
    cases hok
    exact ⟨h, ⟨fun h => h⟩, hget⟩
  | none =>
    obtain ⟨t, ht⟩ := exists_typeOf_of_sharedAddress hget hok
    obtain ⟨k, hk, hle⟩ := exists_allocate hword h.size t
    rw [sharedAddress_of_none hget ht, hk] at hok
    cases hok
    refine ⟨h.assign hget ht hle (size_roomOf_nonneg hword t), ⟨fun {a y} ha => ?_⟩, ?_⟩
    · rw [get?_assigned, ha, some_or]
    · rw [get?_assigned, hget, if_pos (mem_component_iff.2 (.refl _ id)), none_or]

lemma tidy_literalAddress {v : Value} (hok : literalAddress c v s = .ok (x, s')) : s' = s := by
  unfold literalAddress at hok
  cases hpool : c.pool.address? v with
  | none =>
    rw [hpool] at hok
    exact absurd hok throw_ne_ok
  | some y =>
    rw [hpool] at hok
    cases pure_eq_ok.1 hok
    rfl

lemma tidy_addressOf (hword : 0 ≤ c.target.wordSize) (h : Tidy c s)
    (hok : addressOf c id s = .ok (x, s')) : Tidy c s' ∧ Serves s s' := by
  unfold addressOf at hok
  cases hpool : c.module.pool.get? id with
  | some v =>
    -- a constant lies in the pool and needs no slot
    rw [hpool] at hok
    cases tidy_literalAddress hok
    exact ⟨h, ⟨fun h => h⟩⟩
  | none =>
    rw [hpool] at hok
    by_cases hphi : isPhi c.func id = true
    · rw [if_pos hphi] at hok
      obtain ⟨htidy, hserves, -⟩ := tidy_sharedAddress hword h hok
      exact ⟨htidy, hserves⟩
    · rw [if_neg hphi] at hok
      obtain ⟨s1, _, hget, hok⟩ := bind_eq_ok.1 hok
      cases get_eq_ok.1 hget
      cases hslot : s.slots.get? id with
      | some y =>
        rw [hslot] at hok
        cases pure_eq_ok.1 hok
        exact ⟨h, ⟨fun h => h⟩⟩
      | none =>
        -- a slot of its own takes room, and no shared slot is touched
        rw [hslot] at hok
        obtain ⟨y, s2, hallocate, hok⟩ := bind_eq_ok.1 hok
        obtain ⟨t, s3, htype, hroomed⟩ := bind_eq_ok.1 hallocate
        obtain ⟨-, rfl⟩ := typeOf_eq_ok.1 htype
        obtain ⟨k, hk, hle⟩ := exists_allocate hword h.size t
        have hroom := size_roomOf_nonneg hword t
        have hslots := modifyGet_eq_ok.1 hroomed
        rw [hk] at hslots
        cases hslots
        obtain ⟨_, s4, hmodify, hok⟩ := bind_eq_ok.1 hok
        cases modify_eq_ok.1 hmodify
        cases pure_eq_ok.1 hok
        have hgrown := h.grow (k := k) (by omega)
        exact ⟨⟨hgrown.size, hgrown.connected, hgrown.inUse, hgrown.apart⟩, ⟨fun h => h⟩⟩

/-! ## Any number of requests -/

inductive Request where
  /-- Where a value is read from and written to. -/
  | own (id : ValueId)
  /-- The slot that a value shares with those it is connected with. -/
  | shared (id : ValueId)

def Request.answer (c : Context) : Request → Select Address
  | own id => addressOf c id
  | shared id => sharedAddress c id

inductive Answered (c : Context) : Storage → Storage → Prop where
  | none (s : Storage) : Answered c s s
  | more {s t u : Storage} (r : Request) {x : Address} :
    Answered c s t → r.answer c t = .ok (x, u) → Answered c s u

lemma Answered.tidy (hword : 0 ≤ c.target.wordSize) (h : Answered c s s') (hs : Tidy c s) :
    Tidy c s' ∧ Serves s s' := by
  induction h with
  | none => exact ⟨hs, ⟨fun h => h⟩⟩
  | @more t u r x _ hr ih =>
    obtain ⟨htidy, hserves⟩ := ih
    have hstep : Tidy c u ∧ Serves t u := by
      cases r with
      | own id => exact tidy_addressOf hword htidy hr
      | shared id =>
        obtain ⟨h, h', -⟩ := tidy_sharedAddress hword htidy hr
        exact ⟨h, h'⟩
    exact ⟨hstep.1, ⟨fun ha => hstep.2.shared (hserves.shared ha)⟩⟩

lemma tidy_argumentSlots (h : argumentSlots c = .ok s) : Tidy c s := by
  obtain ⟨types, -, h⟩ := except_bind_eq_ok.1 h
  cases h
  exact ⟨Int.le_refl 0, nofun, nofun, nofun⟩

lemma exists_sharedAddress (s : Storage) (ht : c.module.typeOf id = .ok t) :
    ∃ x s', sharedAddress c id s = .ok (x, s') := by
  cases hget : s.shared.get? id with
  | some x => exact ⟨x, s, sharedAddress_of_some hget⟩
  | none => exact ⟨_, _, sharedAddress_of_none hget ht⟩

/-- Whatever else is asked for before and in between, the slots of two values are the same exactly
if the values are connected. -/
lemma sharedAddress_eq_iff (hword : 0 ≤ c.target.wordSize) {s0 : Storage}
    (hstart : argumentSlots c = .ok s0) {u : Ty} (ha : HasType c a t) (hat : TakesRoom c t)
    (hb : HasType c b u) (hbu : TakesRoom c u) (hs : Answered c s0 s) :
    ∃ x s1, sharedAddress c a s = .ok (x, s1) ∧ ∀ s2, Answered c s1 s2 →
      ∃ y s3, sharedAddress c b s2 = .ok (y, s3) ∧ (x = y ↔ Connected c.func.phis a b) := by
  obtain ⟨htidy, -⟩ := hs.tidy hword (tidy_argumentSlots hstart)
  obtain ⟨x, s1, hx⟩ := exists_sharedAddress s (ha a (.refl _ a))
  refine ⟨x, s1, hx, fun s2 hs2 => ?_⟩
  obtain ⟨htidy1, -, hget⟩ := tidy_sharedAddress hword htidy hx
  obtain ⟨htidy2, hserves2⟩ := hs2.tidy hword htidy1
  obtain ⟨y, s3, hy⟩ := exists_sharedAddress s2 (hb b (.refl _ b))
  obtain ⟨htidy3, hserves3, hget'⟩ := tidy_sharedAddress hword htidy2 hy
  have hkept : s3.shared.get? a = some x := hserves3.shared (hserves2.shared hget)
  refine ⟨y, s3, hy, fun hxy => ?_, fun hab => ?_⟩
  · subst hxy
    exact htidy3.apart hkept hget' ha hat hb hbu
  · exact Option.some.inj ((htidy3.connected hkept hab).symm.trans hget')

/-! ## The machine and the code -/

structure Numbers (phis : List Phi) (number : ValueId → Option Nat) (count : Nat) : Prop where
  isSome : ∀ a, Occurs phis a → ∃ i < count, number a = some i
  eq_iff : ∀ a b, Occurs phis a → Occurs phis b → (number a = number b ↔ Connected phis a b)
  count : count = numComponents phis

lemma numbers_indexOf? (hphis : ∀ p ∈ phis, p.branches ≠ []) :
    Numbers phis (Chains.ofPhis phis).indexOf? (Chains.ofPhis phis).length where
  isSome a ha := by
    obtain ⟨i, hi⟩ := isSome_iff_exists.1 ((Chains.isSome_indexOf?_iff hphis).2 ha)
    exact ⟨i, Chains.lt_of_indexOf? hi, hi⟩
  eq_iff a b ha _ := Chains.indexOf?_eq_iff hphis ha
  count := Chains.length_ofPhis hphis

lemma numbers_numberAlong (hphis : ∀ p ∈ phis, p.branches ≠ []) {order : List ValueId}
    (horder : ∀ a, Occurs phis a → a ∈ order) :
    Numbers phis ((Chains.ofPhis phis).numberAlong order)
      ((Chains.ofPhis phis).meets order).length where
  isSome a ha := by
    obtain ⟨i, hi⟩ := isSome_iff_exists.1 ((Chains.isSome_indexOf?_iff hphis).2 ha)
    have hmem := Chains.mem_meets.2 ⟨a, horder a ha, hi⟩
    exact ⟨_, idxOf_lt_length_iff.2 hmem, by rw [Chains.numberAlong, hi, map_some]⟩
  eq_iff a b ha hb := Chains.numberAlong_eq_iff hphis horder ha hb
  count := (Chains.length_meets hphis horder).trans (Chains.length_ofPhis hphis)

def Copied (phis : List Phi) (id : ValueId) : Prop :=
  (∃ p ∈ phis, id ∈ p.branches) ∧ ∀ p ∈ phis, p.dst ≠ id

lemma copied_iff (f : Func) : Copied f.phis id ↔ isBranch f id = true ∧ isPhi f id = false := by
  simp [Copied, isBranch, isPhi]

lemma cells_define_iff {f : Func} (hphis : ∀ p ∈ f.phis, p.branches ≠ []) {fr : Machine.Frame}
    (hfr : fr.routine = .ofFunc f) (id : ValueId) (v : Value) :
    (Copied f.phis id → ∃ i, (Chains.ofPhis f.phis).indexOf? id = some i ∧
        (fr.define id v).cells = fr.cells.setIfInBounds i v) ∧
      (¬ Copied f.phis id → (fr.define id v).cells = fr.cells) := by
  have hisPhi : fr.routine.isPhi id = isPhi f id := by rw [hfr]; rfl
  have hchains : fr.routine.chains = .ofPhis f.phis := by rw [hfr]; rfl
  have hdefine : (fr.define id v).cells = if isPhi f id then fr.cells else
      ((Chains.ofPhis f.phis).indexOf? id).elim fr.cells (fr.cells.setIfInBounds · v) := by
    rw [Machine.Frame.define, hisPhi, hchains]
    by_cases hphi : isPhi f id = true
    · rw [if_pos hphi, if_pos hphi]
    · rw [if_neg hphi, if_neg hphi]
      cases (Chains.ofPhis f.phis).indexOf? id <;> rfl
  rw [hdefine]
  constructor
  · intro h
    obtain ⟨p, hp, hbranch⟩ := h.1
    have hoccurs : Occurs f.phis id := ⟨p, hp, .inr hbranch⟩
    obtain ⟨i, hi⟩ := isSome_iff_exists.1 ((Chains.isSome_indexOf?_iff hphis).2 hoccurs)
    refine ⟨i, hi, ?_⟩
    rw [((copied_iff f).1 h).2, hi]
    rfl
  · intro h
    by_cases hphi : isPhi f id = true
    · rw [if_pos hphi]
    · -- the value is on no chain: it would be a branch
      have hnone : (Chains.ofPhis f.phis).indexOf? id = none := by
        rw [← not_isSome_iff_eq_none, Chains.isSome_indexOf?_iff hphis]
        rintro ⟨p, hp, hdst | hbranch⟩
        · exact hphi (List.any_eq_true.2 ⟨p, hp, decide_eq_true hdst⟩)
        · refine h ((copied_iff f).2 ⟨?_, Bool.not_eq_true _ ▸ hphi⟩)
          exact List.any_eq_true.2 ⟨p, hp, contains_iff_mem.2 hbranch⟩
      rw [if_neg hphi, hnone]
      rfl

lemma definedCode_iff (c : Context) (id : ValueId) :
    (Copied c.func.phis id → definedCode c id = do
        let dst ← sharedAddress c id
        let src ← addressOf c id
        return copyCode c.target dst src (← typeOf c id)) ∧
      (¬ Copied c.func.phis id → definedCode c id = pure []) := by
  rw [copied_iff, definedCode]
  cases isBranch c.func id <;> cases isPhi c.func id <;> simp

/-- Two phis that take their values from each other, and one apart from them. -/
def crossedPhis : Func :=
  { id := 0, name := "f", result := .invalid, args := [1, 3], blocks := #[{}, { label := 7 }]
    phis := [⟨10, 7, [1, 11]⟩, ⟨11, 7, [10, 2]⟩, ⟨20, 7, [3, 4]⟩] }

/-- Code for these phis, all values being integers. -/
def crossedContext : Context :=
  { module := { funcs := [crossedPhis], main := none, pool := [], labels := [],
                types := Array.replicate 21 .int }
    pool := [], target := {}, func := crossedPhis }

lemma hasType_crossedContext (h : (component crossedPhis.phis a).all (· < 21) = true) :
    HasType crossedContext a .int := by
  intro b hab
  have hlt : b < 21 := by simpa using List.all_eq_true.1 h b (mem_component_iff.2 hab)
  simp [crossedContext, Module.typeOf, hlt]

end VecLang.Assembly
