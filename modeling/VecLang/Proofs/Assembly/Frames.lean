import VecLang.Proofs.Assembly.SharedSlots

/-!
# Frames

The slots of a function never overlap, in whatever order they are asked for, and stay where they
are (`Laid.answer`).
-/

namespace VecLang.Assembly

open Ssa Stateful List Option

variable {c : Context} {s s' s1 s2 : Storage} {p q r : Request} {x y : Address} {t : Ty} 
  {total : Int} {id : ValueId}

/-! ## Slots -/

def Request.value : Request → ValueId
  | own id | shared id => id

def Storage.slot? (s : Storage) : Request → Option Address
  | .own id => s.slots.get? id
  | .shared id => s.shared.get? id

/-- Both are about one slot: a value has one of its own, and shares one with those it is connected
with. -/
def Same (c : Context) : Request → Request → Prop
  | .own a, .own b => a = b
  | .shared a, .shared b => Connected c.func.phis a b
  | _, _ => False

/-- The slot that a request is answered with, unless the value is a constant. -/
def Request.slot (c : Context) : Request → Request
  | own id => if isPhi c.func id then shared id else own id
  | shared id => shared id

def Request.IsArgument (c : Context) : Request → Prop
  | own id => id ∈ c.func.args
  | shared _ => False

/-- The bytes at `x` lie below the frame pointer, in the part that is in use. -/
structure InFrame (s : Storage) (x : Address) (room : Room) : Prop where
  low : -s.size ≤ x.offset
  high : x.offset + room.size ≤ 0
  aligned : room.align ∣ x.offset

/-- The bytes at `x` lie among the arguments, which take `total` bytes. -/
structure InArguments (c : Context) (total : Int) (x : Address) (room : Room) : Prop where
  low : c.target.argBase ≤ x.offset
  high : x.offset + room.size ≤ c.target.argBase + total

/-- No byte lies in both places. -/
def Apart (x : Address) (room : Room) (y : Address) (room' : Room) : Prop :=
  x.offset + room.size ≤ y.offset ∨ y.offset + room'.size ≤ x.offset

/-- All slots have their places, and no two overlap. -/
structure Laid (c : Context) (total : Int) (s : Storage) : Prop where
  size : 0 ≤ s.size
  args : ∀ id ∈ c.func.args, (s.slots.get? id).isSome
  place : ∀ {p x}, s.slot? p = some x → ∃ t, c.module.typeOf p.value = .ok t ∧ x.base = .reg .rbp ∧
    (p.IsArgument c ∧ InArguments c total x (c.target.roomOf t) ∨
      ¬ p.IsArgument c ∧ InFrame s x (c.target.roomOf t))
  apart : ∀ {p q x y t u}, s.slot? p = some x → s.slot? q = some y → ¬ Same c p q →
    c.module.typeOf p.value = .ok t → c.module.typeOf q.value = .ok u →
    Apart x (c.target.roomOf t) y (c.target.roomOf u)

def Keeps (s s' : Storage) : Prop := ∀ p x, s.slot? p = some x → s'.slot? p = some x

lemma Same.symm (h : Same c p q) : Same c q p := by
  cases p <;> cases q
  · exact Eq.symm h
  · exact h
  · exact h
  · exact Connected.symm h

lemma Same.trans (h : Same c p q) (h' : Same c q r) : Same c p r := by
  cases p <;> cases q <;> cases r
  all_goals first | exact Eq.trans h h' | exact Connected.trans h h' | exact h.elim | exact h'.elim

lemma dvd_alignUp (n : Int) {a : Int} (ha : 0 < a) : a ∣ alignUp n a := by
  unfold alignUp
  split
  · rw [show a = 1 by omega]
    exact Int.one_dvd n
  · exact Int.dvd_mul_left _ _

lemma Laid.add (h : Laid c total s) (hbase : 0 ≤ c.target.argBase) {k : Int}
    (hk : s.size + (c.target.roomOf t).size ≤ k) (hroom : 0 ≤ (c.target.roomOf t).size)
    (halign : (c.target.roomOf t).align ∣ k) (hsize : s'.size = k)
    {new : Request → Option Address} (hslots : ∀ q, s'.slot? q = (s.slot? q).or (new q))
    (hnew : ∀ q y, new q = some y →
      (Same c p q ∧ c.module.typeOf q.value = .ok t ∧ ¬ q.IsArgument c) ∧ y = below k) :
    Laid c total s' ∧ Keeps s s' := by
  -- what was there lies above the new slot
  have hold {q : Request} {y : Address} (hq : s.slot? q = some y) :
      -k + (c.target.roomOf t).size ≤ y.offset := by
    have := h.size
    obtain ⟨u, -, -, ⟨-, hin⟩ | ⟨-, hin⟩⟩ := h.place hq
    · have := hin.low
      omega
    · have := hin.low
      omega
  have hkeeps : Keeps s s' := fun q y hq => by rw [hslots, hq, some_or]
  have hcases {q : Request} {y : Address} (hq : s'.slot? q = some y) : s.slot? q = some y ∨
      (Same c p q ∧ c.module.typeOf q.value = .ok t ∧ ¬ q.IsArgument c) ∧ y = below k := by
    rw [hslots] at hq
    exact (or_eq_some_iff.1 hq).imp id fun h => hnew q y h.2
  refine ⟨⟨by have := h.size; omega, fun id hid => ?_, fun {q y} hq => ?_,
    fun {q q' y y' u u'} hq hq' hne hu hu' => ?_⟩, hkeeps⟩
  · obtain ⟨y, hy⟩ := isSome_iff_exists.1 (h.args id hid)
    exact isSome_iff_exists.2 ⟨y, hkeeps (.own id) y hy⟩
  · rcases hcases hq with hq | ⟨⟨-, htype, harg⟩, rfl⟩
    · obtain ⟨u, hu, hy, hin | ⟨harg, hin⟩⟩ := h.place hq
      · exact ⟨u, hu, hy, .inl hin⟩
      · exact ⟨u, hu, hy, .inr ⟨harg, by have := hin.low; omega, hin.high, hin.aligned⟩⟩
    · refine ⟨t, htype, rfl, .inr ⟨harg, ?_, ?_, Int.dvd_neg.2 halign⟩⟩
      · rw [hsize]
        exact Int.le_refl _
      · have := h.size
        change -k + _ ≤ 0
        omega
  · rcases hcases hq with hq | ⟨⟨hsame, htype, -⟩, rfl⟩ <;>
      rcases hcases hq' with hq' | ⟨⟨hsame', htype', -⟩, rfl⟩
    · exact h.apart hq hq' hne hu hu'
    · cases hu'.symm.trans htype'
      exact .inr (hold hq)
    · cases hu.symm.trans htype
      exact .inl (hold hq')
    · exact absurd (hsame.symm.trans hsame') hne

/-! ## Requests -/

lemma align_dvd_size_allocate {target : Target} (hword : 0 < target.wordSize) (s : Storage)
    (t : Ty) : (target.roomOf t).align ∣ (s.allocate target t).2.size := by
  refine dvd_alignUp _ ?_
  cases t <;> first | exact hword | exact Int.one_pos | exact (by decide : (0 : Int) < 16)

lemma laid_sharedAddress (hword : 0 < c.target.wordSize) (hbase : 0 ≤ c.target.argBase)
    (htypes : ∀ a b, Connected c.func.phis a b → c.module.typeOf a = c.module.typeOf b)
    (h : Laid c total s) (hok : sharedAddress c id s = .ok (x, s')) :
    Laid c total s' ∧ Keeps s s' ∧ s'.shared.get? id = some x := by
  cases hget : s.shared.get? id with
  | some y =>
    rw [sharedAddress_of_some hget] at hok
    cases hok
    exact ⟨h, fun _ _ h => h, hget⟩
  | none =>
    obtain ⟨t, ht⟩ := exists_typeOf_of_sharedAddress hget hok
    obtain ⟨k, hk, hle⟩ := exists_allocate hword.le h.size t
    have halign := align_dvd_size_allocate hword s t
    rw [sharedAddress_of_none hget ht, hk] at hok
    rw [hk] at halign
    obtain ⟨rfl, hs'⟩ := Prod.mk.inj (Except.ok.inj hok)
    have hslots (q : Request) : s'.slot? q = (s.slot? q).or (match q with
        | .own _ => none
        | .shared a => if a ∈ component c.func.phis id then some (below k) else none) := by
      rw [← hs']
      cases q with
      | own a => exact (or_none).symm
      | shared a => exact get?_assigned ..
    obtain ⟨hlaid, hkeeps⟩ := h.add (p := .shared id) hbase hle (size_roomOf_nonneg hword.le t)
      halign (by rw [← hs']) hslots fun q y hq => by
        cases q with
        | own a => cases hq
        | shared a =>
          obtain ⟨hmem, hy⟩ := ite_none_right_eq_some.1 hq
          have hconn := mem_component_iff.1 hmem
          exact ⟨⟨hconn, (htypes id a hconn).symm.trans ht, fun h => h⟩, (Option.some.inj hy).symm⟩
    refine ⟨hlaid, hkeeps, (hslots (.shared id)).trans ?_⟩
    rw [show s.slot? (.shared id) = none from hget, none_or]
    exact if_pos (mem_component_iff.2 (.refl _ id))

lemma addressOf_eq (hpool : c.module.pool.get? id = none) (hphi : isPhi c.func id = false) :
    addressOf c id s = match s.slots.get? id with
      | some a => .ok (a, s)
      | none => match c.module.typeOf id with
        | .ok t => .ok ((s.allocate c.target t).1, { (s.allocate c.target t).2 with
            slots := s.slots.set id (s.allocate c.target t).1 })
        | .error e => .error (.broken e) := by
  unfold addressOf
  rw [hpool, if_neg (by simp [hphi])]
  change (match s.slots.get? id with | some a => _ | none => _ : Select Address) s = _
  cases s.slots.get? id with
  | some a => rfl
  | none =>
    unfold allocate typeOf
    cases c.module.typeOf id <;> rfl

section

variable (hword : 0 < c.target.wordSize) (hbase : 0 ≤ c.target.argBase)
include hword hbase

lemma laid_addressOf
    (hpool : c.module.pool.get? id = none) (hphi : isPhi c.func id = false) (h : Laid c total s)
    (hok : addressOf c id s = .ok (x, s')) :
    Laid c total s' ∧ Keeps s s' ∧ s'.slots.get? id = some x := by
  rw [addressOf_eq hpool hphi] at hok
  cases hget : s.slots.get? id with
  | some y =>
    rw [hget] at hok
    cases hok
    exact ⟨h, fun _ _ h => h, hget⟩
  | none =>
    rw [hget] at hok
    cases ht : c.module.typeOf id with
    | error e =>
      rw [ht] at hok
      cases hok
    | ok t =>
      obtain ⟨k, hk, hle⟩ := exists_allocate hword.le h.size t
      have halign := align_dvd_size_allocate hword s t
      rw [ht] at hok
      simp only [hk, Except.ok.injEq, Prod.mk.injEq] at hok halign
      obtain ⟨rfl, hs'⟩ := hok
      have hslots (q : Request) : s'.slot? q = (s.slot? q).or (match q with
          | .own a => if id = a then some (below k) else none
          | .shared _ => none) := by
        rw [← hs']
        cases q with
        | own a =>
          change (Assoc.set _ _ _).get? a =
            (s.slots.get? a).or (if id = a then some (below k) else none)
          rw [Assoc.get?_set]
          by_cases ha : id = a
          · rw [← ha, hget, if_pos rfl, none_or]
          · rw [if_neg ha, if_neg ha, or_none]
        | shared a => exact (or_none).symm
      obtain ⟨hlaid, hkeeps⟩ := h.add (p := .own id) hbase hle (size_roomOf_nonneg hword.le t)
        halign (by rw [← hs']) hslots fun q y hq => by
          cases q with
          | own a =>
            obtain ⟨rfl, hy⟩ := ite_none_right_eq_some.1 hq
            -- an argument has had its slot from the start
            have harg : id ∉ c.func.args := fun harg => by
              have := h.args id harg
              rw [hget] at this
              cases this
            exact ⟨⟨rfl, ht, harg⟩, (Option.some.inj hy).symm⟩
          | shared a => cases hq
      refine ⟨hlaid, hkeeps, (hslots (.own id)).trans ?_⟩
      rw [show s.slot? (.own id) = none from hget, none_or]
      exact if_pos rfl

lemma Laid.answer
    (htypes : ∀ a b, Connected c.func.phis a b → c.module.typeOf a = c.module.typeOf b)
    (h : Laid c total s) (hok : r.answer c s = .ok (x, s')) :
    Laid c total s' ∧ Keeps s s' ∧
      ((∃ i, x = { base := .literal i }) ∨ s'.slot? (r.slot c) = some x) ∧
      ∀ s2, Keeps s' s2 → r.answer c s2 = .ok (x, s2) := by
  have hshared {id : ValueId} (hok : sharedAddress c id s = .ok (x, s')) :
      Laid c total s' ∧ Keeps s s' ∧ s'.slot? (.shared id) = some x ∧
        ∀ s2, Keeps s' s2 → sharedAddress c id s2 = .ok (x, s2) := by
    obtain ⟨hlaid, hkeeps, hget⟩ := laid_sharedAddress hword hbase htypes h hok
    exact ⟨hlaid, hkeeps, hget, fun s2 hs2 => sharedAddress_of_some (hs2 (.shared id) x hget)⟩
  cases r with
  | shared id =>
    obtain ⟨hlaid, hkeeps, hget, hagain⟩ := hshared hok
    exact ⟨hlaid, hkeeps, .inr hget, hagain⟩
  | own id =>
    change addressOf c id s = _ at hok
    cases hpool : c.module.pool.get? id with
    | some v =>
      have hall (s : Storage) : addressOf c id s = literalAddress c v s := by
        unfold addressOf
        rw [hpool]
      rw [hall] at hok
      unfold literalAddress at hall hok
      cases haddr : c.pool.address? v with
      | none =>
        rw [haddr] at hok
        exact absurd hok throw_ne_ok
      | some y =>
        rw [haddr] at hok hall
        cases pure_eq_ok.1 hok
        obtain ⟨i, -, rfl⟩ := map_eq_some_iff.1 haddr
        exact ⟨h, fun _ _ h => h, .inl ⟨i, rfl⟩, fun s2 _ => hall s2⟩
    | none =>
      cases hphi : isPhi c.func id with
      | true =>
        have hall (s : Storage) : addressOf c id s = sharedAddress c id s := by
          unfold addressOf
          rw [hpool, if_pos hphi]
        rw [hall] at hok
        obtain ⟨hlaid, hkeeps, hget, hagain⟩ := hshared hok
        refine ⟨hlaid, hkeeps, .inr ?_, fun s2 hs2 => (hall s2).trans (hagain s2 hs2)⟩
        rw [Request.slot, if_pos hphi]
        exact hget
      | false =>
        obtain ⟨hlaid, hkeeps, hget⟩ := laid_addressOf hword hbase hpool hphi h hok
        refine ⟨hlaid, hkeeps, .inr ?_, fun s2 hs2 => ?_⟩
        · rw [Request.slot, if_neg (by simp [hphi])]
          exact hget
        · change addressOf c id s2 = _
          rw [addressOf_eq hpool hphi, show s2.slots.get? id = some x from hs2 (.own id) x hget]

lemma Answered.laid
    (htypes : ∀ a b, Connected c.func.phis a b → c.module.typeOf a = c.module.typeOf b)
    (hs : Answered c s s') (h : Laid c total s) : Laid c total s' ∧ Keeps s s' := by
  induction hs with
  | none => exact ⟨h, fun _ _ h => h⟩
  | more r _ hr ih =>
    obtain ⟨hlaid, hkeeps, -⟩ := ih.1.answer hword hbase htypes hr
    exact ⟨hlaid, fun p x hp => hkeeps p x (ih.2 p x hp)⟩

end

lemma Answered.trans (h : Answered c s s1) (h' : Answered c s1 s2) : Answered c s s2 := by
  induction h' with
  | none => exact h
  | more r _ hr ih => exact ih.more r hr

/-! ## Arguments -/

/-- The arguments `done` have their slots in `m`, which end at `off`. -/
structure ArgumentsLaid (c : Context) (done : List ValueId) (off : Int)
    (m : Assoc ValueId Address) : Prop where
  nonneg : 0 ≤ off
  isSome : ∀ id ∈ done, (m.get? id).isSome
  place : ∀ {id x}, m.get? id = some x → id ∈ done ∧ ∃ t, c.module.typeOf id = .ok t ∧
    x.base = .reg .rbp ∧ InArguments c off x (c.target.roomOf t)
  apart : ∀ {a b x y t u}, m.get? a = some x → m.get? b = some y → a ≠ b →
    c.module.typeOf a = .ok t → c.module.typeOf b = .ok u →
    Apart x (c.target.roomOf t) y (c.target.roomOf u)

lemma ArgumentsLaid.set {done : List ValueId} {off : Int} {m : Assoc ValueId Address}
    (h : ArgumentsLaid c done off m) (ht : c.module.typeOf id = .ok t)
    (hroom : 0 ≤ (c.target.roomOf t).size) :
    ArgumentsLaid c (done ++ [id]) (off + (c.target.roomOf t).size)
      (m.set id { base := .reg .rbp, offset := c.target.argBase + off }) := by
  have hcases {a : ValueId} {x : Address}
      (ha : (m.set id { base := .reg .rbp, offset := c.target.argBase + off }).get? a = some x) :
      a = id ∧ x = { base := .reg .rbp, offset := c.target.argBase + off } ∨ m.get? a = some x := by
    rw [Assoc.get?_set] at ha
    split at ha
    next heq => exact .inl ⟨heq.symm, (Option.some.inj ha).symm⟩
    next => exact .inr ha
  refine ⟨by have := h.nonneg; omega, fun a ha => ?_, fun {a x} ha => ?_,
    fun {a b x y t' u} ha hb hne hta htb => ?_⟩
  · rw [Assoc.get?_set]
    split
    · rfl
    next hne =>
      rcases mem_append.1 ha with ha | ha
      · exact h.isSome a ha
      · exact absurd (mem_singleton.1 ha).symm hne
  · rcases hcases ha with ⟨rfl, rfl⟩ | ha
    · refine ⟨by simp, t, ht, rfl, ?_, ?_⟩
      · have := h.nonneg
        change _ ≤ c.target.argBase + off
        omega
      · change c.target.argBase + off + _ ≤ _
        omega
    · obtain ⟨hdone, u, hu, hx, hin⟩ := h.place ha
      exact ⟨mem_append_left _ hdone, u, hu, hx, hin.low, by have := hin.high; omega⟩
  · -- the new slot begins where the others end
    have hend {a : ValueId} {x : Address} {u : Ty} (ha : m.get? a = some x)
        (hu : c.module.typeOf a = .ok u) :
        x.offset + (c.target.roomOf u).size ≤ c.target.argBase + off := by
      obtain ⟨-, u', hu', -, hin⟩ := h.place ha
      cases hu.symm.trans hu'
      exact hin.high
    rcases hcases ha with ⟨rfl, rfl⟩ | ha' <;> rcases hcases hb with ⟨rfl, rfl⟩ | hb'
    · exact absurd rfl hne
    · exact .inr (hend hb' htb)
    · exact .inl (hend ha' hta)
    · exact h.apart ha' hb' hne hta htb

lemma argumentsLaid_foldl (hword : 0 ≤ c.target.wordSize) {ids done : List ValueId}
    {types : List Ty} {off : Int} {m : Assoc ValueId Address}
    (htypes : ids.mapM c.module.typeOf = .ok types) (h : ArgumentsLaid c done off m) :
    ArgumentsLaid c (done ++ ids)
      (off + (types.map fun t => (c.target.roomOf t).size).foldr (· + ·) 0)
      ((ids.zip (c.target.offsets off types)).foldl (fun m (a, off) =>
        m.set a { base := .reg .rbp, offset := c.target.argBase + off }) m) := by
  induction ids generalizing done types off m with
  | nil =>
    cases htypes
    simpa using h
  | cons id ids ih =>
    rw [mapM_cons] at htypes
    obtain ⟨t, ht, htypes⟩ := except_bind_eq_ok.1 htypes
    obtain ⟨ts, hts, htypes⟩ := except_bind_eq_ok.1 htypes
    cases htypes
    have hrest := ih hts (h.set ht (size_roomOf_nonneg hword t))
    rw [append_assoc, Int.add_assoc] at hrest
    exact hrest

lemma laid_argumentSlots (hword : 0 ≤ c.target.wordSize) {types : List Ty}
    (htypes : c.func.args.mapM c.module.typeOf = .ok types) :
    ∃ s, argumentSlots c = .ok s ∧ Laid c (c.target.args types).size s := by
  have hnone : ArgumentsLaid c [] 0 [] := ⟨Int.le_refl 0, nofun, nofun, nofun⟩
  have hslots := argumentsLaid_foldl hword htypes hnone
  refine ⟨{ slots := _ }, by rw [argumentSlots, htypes]; rfl, Int.le_refl 0, hslots.isSome,
    fun {p x} hp => ?_, fun {p q x y t u} hp hq hne ht hu => ?_⟩
  · cases p with
    | own id =>
      obtain ⟨hmem, t, ht, hx, hin⟩ := hslots.place hp
      refine ⟨t, ht, hx, .inl ⟨hmem, hin.low, hin.high.trans ?_⟩⟩
      have := le_alignUp hslots.nonneg c.target.stackAlign
      simp only [Int.zero_add] at this ⊢
      exact Int.add_le_add_left this _
    | shared id => cases hp
  · cases p with
    | own a =>
      cases q with
      | own b => exact hslots.apart hp hq hne ht hu
      | shared b => cases hq
    | shared a => cases hp

end VecLang.Assembly
