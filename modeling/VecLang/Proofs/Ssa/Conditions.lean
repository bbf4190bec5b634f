import VecLang.Proofs.Ssa.Expressions

/-!
# The code of conditions follows the plan

The current block follows the plan as far as it goes (`Certified`), and so does what is finished
(`Made`). Plans are made along with the code (`Planned`): a part of the code is certified under
every plan that goes on from the one made for it. A condition leaves all variables as they are,
wherever control goes from it (`condPlanned_of_run`).
-/

namespace VecLang.Ssa

open Stateful LowerState List Option

variable {c : LowerContext} {S : Setting} {F s t u : LowerState} {σ : Point} {K V W : List VarId}

/-! ## Plans along with the code -/

/-- From a plan for the code of `s` one for the code of `t` can be made, so that `P` holds under
all plans that go on from it. -/
def Planned (c : LowerContext) (s t : LowerState) (P : Setting → LowerState → Prop) : Prop :=
  ∀ p : Plan, p.Covers c s → ∃ q : Plan, p.Begins q ∧ q.Covers c t ∧
    ∀ S F, Finishes c S F → q.Begins S.plan → Grows t F → P S F

section Planned

variable {P P' : Setting → LowerState → Prop}

lemma Planned.trans (h : Planned c s t P) (h' : Planned c t u P') (htu : Grows t u) :
    Planned c s u fun S F => P S F ∧ P' S F := by
  intro p hp
  obtain ⟨q, hpq, hq, hP⟩ := h p hp
  obtain ⟨r, hqr, hr, hP'⟩ := h' q hq
  exact ⟨r, hpq.trans hqr, hr, fun S F hS hrS hF =>
    ⟨hP S F hS (hqr.trans hrS) (htu.trans hF), hP' S F hS hrS hF⟩⟩

lemma Planned.mono (h : Planned c s t P)
    (hP : ∀ S F, Finishes c S F → Grows t F → P S F → P' S F) : Planned c s t P' := by
  intro p hp
  obtain ⟨q, hpq, hq, hP1⟩ := h p hp
  exact ⟨q, hpq, hq, fun S F hS hqS hF => hP S F hS hF (hP1 S F hS hqS hF)⟩

lemma planned_same (htypes : t.types = s.types) (hlabels : t.labels.size = s.labels.size)
    (hblocks : t.blocks.size = s.blocks.size) : Planned c s t fun _ _ => True := by
  intro p hp
  refine ⟨p, .refl p, ⟨?_, ?_, ?_, ?_⟩, fun _ _ _ _ _ => trivial⟩
  · rw [htypes, hp.owners]
  · rw [hlabels, hp.entries]
  · rw [hblocks, hp.starts]
  · rw [htypes]
    exact hp.typed

lemma planned_values (vs : List (Option VarId)) (hgrows : s.types.toList <+: t.types.toList)
    (hsize : t.types.size = s.types.size + vs.length) (hlabels : t.labels.size = s.labels.size)
    (hblocks : t.blocks.size = s.blocks.size) (htyped : ∀ k v, vs[k]? = some (some v) →
      t.types[s.types.size + k]? = some (c.module.varType v)) :
    Planned c s t fun S _ => ∀ k o, vs[k]? = some o → S.plan.owner (s.types.size + k) = o := by
  intro p hp
  refine ⟨_, p.begins_addOwners vs, hp.addOwners hsize hlabels hblocks hgrows htyped,
    fun S F _ hS _ k o hk => ?_⟩
  rw [← hp.owners, hS.owner_added (List.getElem?_eq_some_iff.1 hk).1, hk, join_some]

lemma planned_vars (vs : List VarId)
    (htypes : t.types = s.types ++ (vs.map c.module.varType).toArray)
    (hlabels : t.labels.size = s.labels.size) (hblocks : t.blocks.size = s.blocks.size) :
    Planned c s t fun S _ =>
      ∀ (k : Nat) (v : VarId), vs[k]? = some v → S.plan.owner (s.types.size + k) = some v := by
  refine Planned.mono (planned_values (vs.map some) ?_ ?_ hlabels hblocks ?_) ?_
  · rw [htypes]
    simp
  · rw [htypes]
    simp
  · intro k v hk
    rw [getElem?_map] at hk
    obtain ⟨w, hw, hk⟩ := map_eq_some_iff.1 hk
    cases hk
    rw [htypes, Array.getElem?_append_right (Nat.le_add_right _ _), Nat.add_sub_cancel_left,
      getElem?_toArray, getElem?_map, hw]
    rfl
  · intro S F _ _ howner k v hk
    exact howner k (some v) (by rw [getElem?_map, hk]; rfl)

lemma planned_labels (es : List Env) (htypes : t.types = s.types)
    (hlabels : t.labels.size = s.labels.size + es.length)
    (hblocks : t.blocks.size = s.blocks.size) :
    Planned c s t fun S _ =>
      ∀ k e, es[k]? = some e → S.plan.entries[s.labels.size + 1 + k]? = some e := by
  intro p hp
  refine ⟨_, p.begins_addEntries es, hp.addEntries htypes hlabels hblocks,
    fun S F _ hS _ k e hk => ?_⟩
  rw [← hp.entries]
  exact hS.entry_added hk

lemma planned_starts (es : List Env) (htypes : t.types = s.types)
    (hlabels : t.labels.size = s.labels.size)
    (hblocks : t.blocks.size = s.blocks.size + es.length) :
    Planned c s t fun S _ =>
      ∀ k e, es[k]? = some e → S.plan.starts[s.blocks.size + 1 + k]? = some e := by
  intro p hp
  refine ⟨_, p.begins_addStarts es, hp.addStarts htypes hlabels hblocks,
    fun S F _ hS _ k e hk => ?_⟩
  rw [← hp.starts]
  exact hS.start_added hk

lemma planned_block (htypes : t.types = s.types) (hlabels : t.labels.size = s.labels.size)
    (hblocks : t.blocks.size = s.blocks.size + 1) : Planned c s t fun _ _ => True :=
  (planned_starts [fun _ => none] htypes hlabels hblocks).mono fun _ _ _ _ _ => trivial

lemma planned_emits (h : Emits s t) : Planned c s t fun S _ => S.Unowned s t := by
  obtain ⟨n, hn⟩ := Nat.exists_eq_add_of_le h.adds.grows.types_size
  have hrep : ∀ (k : Nat) (o : Option VarId), (List.replicate n none)[k]? = some o → o = none := by
    intro k o hk
    rw [getElem?_replicate] at hk
    split_ifs at hk
    exact (Option.some.inj hk).symm
  refine (planned_values (List.replicate n none) h.adds.grows.types ?_ ?_ ?_ ?_).mono ?_
  · rw [hn, length_replicate]
  · rw [h.labels]
  · rw [h.blocks]
  · exact fun k v hk => nomatch hrep k _ hk
  · intro S F _ _ hP id hlo hhi
    obtain ⟨k, rfl⟩ := Nat.exists_eq_add_of_le hlo
    exact hP k none (by rw [getElem?_replicate, if_pos (by omega)])

end Planned

/-! ## Certified code -/

/-- The current block follows the plan so far, and the variables `V` are in scope. -/
structure Certified (S : Setting) (V : List VarId) (s : LowerState) : Prop where
  pos : 0 < s.types.size
  here : ∃ σ, S.At s σ ∧ Agrees V σ.env s ∧ (¬ s.Live → S.EndOk s.blocks.size σ s.current.term)

/-- The ways back and out of a loop have values that belong to the variables of the loop. -/
def Setting.RowsOwned (S : Setting) (loop : LoopFrame) : Prop :=
  ∀ row ∈ loop.continues ++ loop.breaks, ∀ (i : Nat) (v : VarId), loop.carried[i]? = some v →
    ∃ id, row[i]? = some id ∧ S.plan.owner id = some v

structure Made (S : Setting) (s t : LowerState) : Prop where
  done : ∀ j, s.blocks.size ≤ j → j < t.blocks.size → S.BlockOk j
  phis : ∀ p ∈ t.phis.toList, p ∈ s.phis.toList ∨ S.PhiOk p
  rows : (∀ loop ∈ s.loops.head?, S.RowsOwned loop) → ∀ loop ∈ t.loops.head?, S.RowsOwned loop

lemma Made.trans (h : Made S s t) (h' : Made S t u) : Made S s u where
  done j hlo hhi := by
    by_cases hj : j < t.blocks.size
    · exact h.done j hlo hj
    · exact h'.done j (Nat.not_lt.1 hj) hhi
  phis p hp := by
    rcases h'.phis p hp with hp | hok
    · exact h.phis p hp
    · exact .inr hok
  rows hs := h'.rows (h.rows hs)

lemma Made.of_same (hblocks : t.blocks.size = s.blocks.size) (hphis : t.phis = s.phis)
    (hloops : t.loops.head? = s.loops.head?) : Made S s t where
  done j hlo hhi := absurd hhi (by omega)
  phis p hp := .inl (hphis ▸ hp)
  rows hs := hloops ▸ hs

lemma Made.of_block (hblocks : t.blocks.size = s.blocks.size + 1) (hphis : t.phis = s.phis)
    (hloops : t.loops.head? = s.loops.head?) (hblock : S.BlockOk s.blocks.size) : Made S s t where
  done j hlo hhi := by
    rw [show j = s.blocks.size by omega]
    exact hblock
  phis p hp := .inl (hphis ▸ hp)
  rows hs := hloops ▸ hs

lemma Emits.made (h : Emits s t) : Made S s t :=
  .of_same (by rw [h.blocks]) h.phis (by rw [h.loops])

def LowerState.env (V : List VarId) (s : LowerState) : Env :=
  fun v => if v ∈ V then s.lookup v else none

def Env.Within (e e' : Env) : Prop := ∀ v id, e v = some id → e' v = some id

lemma agrees_env (V : List VarId) (s : LowerState) : Agrees V (s.env V) s := fun _ hv => if_pos hv

variable {e : Env}

lemma env_eq_some {v : VarId} {id : ValueId} :
    s.env V v = some id ↔ v ∈ V ∧ s.lookup v = some id := Option.ite_none_right_eq_some

lemma Agrees.within (h : Agrees V e s) : (s.env V).Within e := by
  intro v id hv
  obtain ⟨hmem, hv⟩ := env_eq_some.1 hv
  exact (h v hmem).trans hv

lemma Agrees.owned (h : Agrees V e s) {q : Plan} (hown : q.Owned e) :
    q.Owned (s.env V) := fun v id hv => hown v id (h.within v id hv)

lemma env_eq_of_scope (h : t.scope = s.scope) : t.env V = s.env V := by
  funext v
  rw [LowerState.env, LowerState.env, LowerState.lookup, LowerState.lookup, h]

lemma Certified.stands (h : Certified S V s) (hlive : s.Live) (hK : ∀ v ∈ K, s.lookup v = none) :
    ∃ σ, S.Stands K V s σ := by
  obtain ⟨σ, hat, hag, -⟩ := h.here
  exact ⟨σ, hlive, h.pos, hat, hag, hK⟩

lemma Certified.owned (h : Certified S V s) : S.plan.Owned (s.env V) := by
  obtain ⟨σ, hat, hag, -⟩ := h.here
  exact hag.owned hat.owned

lemma Setting.Stands.close (hs : S.Stands K V s σ) {term : Term}
    (hend : S.EndOk s.blocks.size σ term) : Certified S V (s.close term) :=
  ⟨hs.pos, σ, hs.at_point, hs.agrees, fun _ => hend⟩

variable {l : LabelId}

lemma blockOk_of_opened (hS : Finishes c S F) (hF : Grows (s.opened l) F)
    (hat : S.At s σ) (hend : S.EndOk s.blocks.size σ s.current.term) : S.BlockOk s.blocks.size := by
  obtain ⟨e, hentry, hown, hcode, rfl⟩ := hat
  exact ⟨s.current, e, by rw [hS.blocks]; exact hF.all_of_opened, hentry, hown, hcode, hend⟩

lemma Certified.exists_end (h : Certified S V s) (hlive : s.Live → ∀ σ : Point, Agrees V σ.env s →
      S.Arrives (.fall s.blocks.size) (s.blocks.size + 1) σ.env) :
    ∃ σ, S.At s σ ∧ S.EndOk s.blocks.size σ s.current.term := by
  obtain ⟨σ, hat, hag, hended⟩ := h.here
  by_cases hs : s.Live
  · refine ⟨σ, hat, ?_⟩
    rw [show s.current.term = .none from hs]
    exact ⟨trivial, nofun, fun _ => hlive hs σ hag⟩
  · exact ⟨σ, hat, hended hs⟩

lemma Certified.blockOk (hS : Finishes c S F) (hF : Grows (s.opened l) F)
    (h : Certified S V s) (hended : ¬ s.Live) : S.BlockOk s.blocks.size := by
  obtain ⟨σ, hat, hend⟩ := h.exists_end fun hlive => absurd hlive hended
  exact blockOk_of_opened hS hF hat hend

lemma certified_begin (hcurrent : u.current = { label := l })
    (hpos : 0 < u.types.size) (hentry : S.plan.entryAt l u.blocks.size = some e)
    (hown : S.plan.Owned e) (hag : Agrees W e u) : Certified S W u := by
  refine ⟨hpos, ⟨e, []⟩, ⟨e, ?_, hown, ?_, ?_⟩, hag, fun hlive => ?_⟩
  · rw [hcurrent]
    exact hentry
  · rw [hcurrent]
    trivial
  · rw [hcurrent]
    rfl
  · exact absurd (by rw [LowerState.Live, hcurrent]) hlive

lemma Branches.not_live {yes no : Nat} (h : Branches yes no s t) : ¬ t.Live := by
  intro hlive
  have hended := h.ended
  rw [show t.current.term = .none from hlive] at hended
  cases hended

/-! ## Labels without phis -/

structure Setting.Plain (S : Setting) (l : LabelId) (e : Env) : Prop where
  entry : S.plan.entries[l]? = some e
  phis : ∀ p ∈ S.func.phis, p.label ≠ l

variable {op : BinaryOp} {ty : Ty}

section Plain

variable {l yes no : LabelId} {e : Env} {j : Nat}

lemma entryAt_of_ne_zero {q : Plan} (hl : l ≠ 0) (j : Nat) : q.entryAt l j = q.entries[l]? :=
  if_neg hl

lemma flow_of_no_phis (h : ∀ p ∈ S.func.phis, p.label ≠ l) {e' : Env} (hsub : e.Within e')
    (k : Nat) : S.Flow l k e' e :=
  fun v id hv => .inr ⟨hsub v id hv, fun p hp hlabel => absurd hlabel (h p hp)⟩

lemma Setting.Plain.jump (h : S.Plain l e) (hsub : e.Within σ.env) {j' : Nat}
    (hj' : blockOf? S.func.blocks l = some j') : S.Arrives (.jump j) j' σ.env := by
  intro b k hb _
  obtain ⟨hl, b', hb', rfl⟩ := blockOf?_eq_some hj'
  cases hb.symm.trans hb'
  exact ⟨e, by rw [entryAt_of_ne_zero hl, h.entry], flow_of_no_phis h.phis hsub k⟩

lemma Setting.Plain.goto (h : S.Plain l e) (hsub : e.Within σ.env) :
    S.EndOk j σ (.goto l) where
  term := trivial
  jump l' hl' j' hj' := by
    cases mem_singleton.1 hl'
    exact h.jump hsub hj'
  fall h := nomatch h

lemma arrives_unlabelled (hS : Finishes c S F) {b : Block} (hb : S.func.blocks[j + 1]? = some b)
    (hlabel : b.label = 0) (hstart : S.plan.starts[j + 1]? = some e) (hsub : e.Within σ.env) :
    S.Arrives (.fall j) (j + 1) σ.env := by
  intro b' k hb' _
  cases hb.symm.trans hb'
  rw [hlabel]
  exact ⟨e, by rw [Plan.entryAt, if_pos rfl, hstart], flow_of_no_phis hS.sites hsub k⟩

lemma Setting.Stands.branch (hS : Finishes c S F) (hs : S.Stands K V s σ)
    {a b : Atom} (hterm : S.TermOk σ (.branch a op b ty yes))
    (hyes : S.Plain yes (s.env V)) (hno : S.Plain no (s.env V))
    (hstart : S.plan.starts[s.blocks.size + 1]? = some (s.env V))
    (hF : Grows (((s.close (.branch a op b ty yes)).opened 0).close (.goto no)) F) :
    Certified S V (((s.close (.branch a op b ty yes)).opened 0).close (.goto no)) ∧
      Made S s (((s.close (.branch a op b ty yes)).opened 0).close (.goto no)) := by
  have hlive : ((s.close (.branch a op b ty yes)).opened 0).Live := rfl
  have hopen : Grows ((s.close (.branch a op b ty yes)).opened 0) F :=
    (grows_close hlive _).trans hF
  obtain ⟨b', hb', hlabel⟩ := hopen.label_of_opened
  have hend : S.EndOk s.blocks.size σ (.branch a op b ty yes) := by
    refine ⟨hterm, fun l hl j' hj' => ?_, fun _ => ?_⟩
    · cases mem_singleton.1 hl
      exact hyes.jump hs.agrees.within hj'
    · exact arrives_unlabelled hS (by rw [hS.blocks]; exact hb') hlabel hstart hs.agrees.within
  have hstands : S.Stands [] V ((s.close (.branch a op b ty yes)).opened 0) ⟨s.env V, []⟩ := by
    refine ⟨hlive, hs.pos, ⟨s.env V, ?_, hs.agrees.owned hs.at_point.owned, trivial, rfl⟩,
      agrees_env V s, by simp⟩
    rw [LowerState.opened, Array.size_push, Plan.entryAt, if_pos rfl]
    exact hstart
  have hblock := (hs.close hend).blockOk hS hopen (by rintro ⟨⟩)
  exact ⟨hstands.close (hno.goto fun _ _ h => h), .of_block (Array.size_push _) rfl rfl hblock⟩

end Plain

/-! ## Conditions -/

structure CondSetting (c : LowerContext) (S : Setting) (K V : List VarId) (e : Typed.Expr)
    (yes no : LabelId) (s t : LowerState) : Prop where
  wellFormed : e.erase.WellFormed c.table fun v => v ∈ V ∨ v ∈ K
  wellTyped : e.WellTyped c.table c.module.varType S.fits
  bool : e.ty = .bool
  const : ∀ v ∈ K, s.lookup v = none
  yes : S.Plain yes (s.env V)
  no : S.Plain no (s.env V)
  /-- The labels inside the condition have no phis. -/
  quiet : ∀ l, s.labels.size < l → l ≤ t.labels.size → ∀ p ∈ S.func.phis, p.label ≠ l

def CondPlanned (c : LowerContext) (K V : List VarId) (e : Typed.Expr) (yes no : LabelId)
    (s t : LowerState) : Prop :=
  Planned c s t fun S _ => CondSetting c S K V e yes no s t → Certified S V s →
    Certified S V t ∧ Made S s t

section Conditions

variable {e x y : Typed.Expr} {yes no : LabelId}

lemma compared {tl tr : Ty} (hop : op.isRel = true)
    (h : op.result? tl tr = some ty) : tr = tl ∧ ty = .bool ∧ op.isScaling tl tr = false := by
  have hplain : op.isScaling tl tr = false := by
    cases op <;> first | rfl | cases hop
  obtain ⟨hsame, ⟨hlogic, -⟩ | ⟨-, hty⟩ | ⟨harith, -⟩⟩ := BinaryOp.result?_plain hplain h
  · exact absurd hop (by cases op <;> first | decide | cases hlogic)
  · exact ⟨hsame.symm, hty, hplain⟩
  · exact absurd hop (by cases op <;> first | decide | cases harith)

lemma logical {tl tr : Ty} (hop : op = .and ∨ op = .or)
    (h : op.result? tl tr = some ty) : tl = .bool ∧ tr = .bool := by
  have hplain : op.isScaling tl tr = false := by rcases hop with rfl | rfl <;> rfl
  obtain ⟨hsame, ⟨-, hty, -⟩ | ⟨hrel, -⟩ | ⟨harith, -⟩⟩ := BinaryOp.result?_plain hplain h
  · exact ⟨hty, hsame ▸ hty⟩
  · rcases hop with rfl | rfl <;> cases hrel
  · rcases hop with rfl | rfl <;> cases harith

lemma planned_branch (a : Atom) (op : BinaryOp) (b : Atom) (ty : Ty) (yes no : LabelId) :
    Planned c s (((s.close (.branch a op b ty yes)).opened 0).close (.goto no)) fun S _ =>
      ∀ {σ}, S.Stands K V s σ → S.TermOk σ (.branch a op b ty yes) →
        S.Plain yes (s.env V) → S.Plain no (s.env V) →
        Certified S V (((s.close (.branch a op b ty yes)).opened 0).close (.goto no)) ∧
          Made S s (((s.close (.branch a op b ty yes)).opened 0).close (.goto no)) := by
  refine Planned.mono (planned_starts [s.env V] rfl rfl (Array.size_push _)) ?_
  intro S F hS hF hstart σ hs hterm hyes hno
  exact hs.branch hS hterm hyes hno (hstart 0 _ rfl) hF

lemma Setting.Stands.goto (hs : S.Stands K V s σ) (hyes : S.Plain yes (s.env V))
    (hno : S.Plain no (s.env V)) (b : Bool) :
    Certified S V (s.close (.goto (if b then yes else no))) ∧
      Made S s (s.close (.goto (if b then yes else no))) := by
  refine ⟨hs.close ?_, .of_same rfl rfl rfl⟩
  split
  · exact hyes.goto hs.agrees.within
  · exact hno.goto hs.agrees.within

variable {operand : Ty}

lemma planned_lowerBranch {l r : Atom}
    (hrun : lowerBranch c l op r operand yes no s = .ok ((), t)) :
    Planned c s t fun S _ => ∀ {σ}, S.Stands K V s σ →
      S.TermOk σ (.branch l op r operand yes) → S.Plain yes (s.env V) → S.Plain no (s.env V) →
      Certified S V t ∧ Made S s t := by
  rw [lowerBranch_eq] at hrun
  cases hk : c.known? op l r with
  | none =>
    simp only [hk] at hrun
    cases hrun
    exact planned_branch l op r operand yes no
  | some v =>
    simp only [hk] at hrun
    cases hrun
    refine Planned.mono (planned_same rfl rfl rfl) ?_
    intro S F _ _ _ σ hs _ hyes hno
    exact hs.goto hyes hno v.isTrue

lemma condPlanned_test (hlive : s.Live) (hrun : lowerTest c e yes no s = .ok ((), t)) :
    CondPlanned c K V e yes no s t := by
  obtain ⟨a, s1, he, ht⟩ := lowerTest_eq_ok.1 hrun
  have hemits := emits_lowerExpr e hlive he
  have henv : s1.env V = s.env V := env_eq_of_scope hemits.scope
  cases hk : c.constant? a with
  | some v =>
    simp only [hk] at ht
    subst ht
    have hclose : Planned c s1 (s1.close (.goto (if v.isTrue then yes else no))) _ :=
      planned_same rfl rfl rfl
    refine ((planned_emits hemits).trans hclose (grows_close (hemits.live hlive) _)).mono ?_
    rintro S F hS hF ⟨hown, -⟩ hc hcert
    obtain ⟨σ, hs⟩ := hcert.stands hlive hc.const
    obtain ⟨σ1, hs1, -, -⟩ := exprOk hS e he ((grows_close (hemits.live hlive) _).trans hF)
      hc.wellFormed hc.wellTyped hs hown
    obtain ⟨hcert', hmade⟩ := hs1.goto (henv ▸ hc.yes) (henv ▸ hc.no) v.isTrue
    exact ⟨hcert', hemits.made.trans hmade⟩
  | none =>
    simp only [hk] at ht
    subst ht
    have hbr := branches_branch (hemits.live hlive) a .eq (.lit (.bool true)) .bool yes no
    refine ((planned_emits hemits).trans
      (planned_branch (K := K) (V := V) a .eq (.lit (.bool true)) .bool yes no)
      hbr.adds.grows).mono ?_
    rintro S F hS hF ⟨hown, hbranch⟩ hc hcert
    obtain ⟨σ, hs⟩ := hcert.stands hlive hc.const
    obtain ⟨σ1, hs1, -, ha⟩ := exprOk hS e he (hbr.adds.grows.trans hF) hc.wellFormed
      hc.wellTyped hs hown
    have ha : S.AtomOk σ1 a .bool := hc.bool ▸ ha.atomOk (by rw [hc.bool]; decide)
    obtain ⟨hcert', hmade⟩ := hbranch hs1 ⟨ha, ⟨rfl, Value.normal_bool true⟩, rfl, .inr rfl⟩
      (henv ▸ hc.yes) (henv ▸ hc.no)
    exact ⟨hcert', hemits.made.trans hmade⟩

lemma condPlanned_compare {span : Span} {scaling : Bool}
    {l r : Atom} {s1 s2 : LowerState} (hlive : s.Live) (hop : op.isRel = true)
    (hx : lowerExpr c x s = .ok (l, s1)) (hy : lowerExpr c y s1 = .ok (r, s2))
    (hrun : lowerBranch c l op r operand yes no s2 = .ok ((), t)) :
    CondPlanned c K V (.binary ty span op operand scaling x y) yes no s t := by
  have hex := emits_lowerExpr x hlive hx
  have hey := emits_lowerExpr y (hex.live hlive) hy
  have hexy := hex.trans hey
  have hbr := branches_lowerBranch (hexy.live hlive) hrun
  have henv : s2.env V = s.env V := env_eq_of_scope hexy.scope
  refine ((planned_emits hexy).trans (planned_lowerBranch (K := K) (V := V) hrun)
    hbr.adds.grows).mono ?_
  rintro S F hS hF ⟨hown, hbranch⟩ hc hcert
  obtain ⟨hwx, hwy, ⟨hxne, hyne⟩, hres, hscaling, hoperand⟩ := hc.wellTyped
  obtain ⟨hsame, hbool, hplain⟩ := compared hop hres
  obtain ⟨σ, hs⟩ := hcert.stands hlive hc.const
  have h2F := hbr.adds.grows.trans hF
  obtain ⟨σ1, hs1, -, hl⟩ := exprOk hS x hx (hey.adds.grows.trans h2F) hc.wellFormed.2.1 hwx hs
    (hown.first hey.adds.grows)
  obtain ⟨σ2, hs2, hup, hr⟩ := exprOk hS y hy h2F hc.wellFormed.2.2 hwy hs1
    (hown.rest hex.adds.grows)
  have htype : operand = x.ty := by rw [hoperand, hscaling, hplain]; rfl
  have hterm : S.TermOk σ2 (.branch l op r operand yes) := by
    refine ⟨?_, ?_, hop, .inl ?_⟩
    · rw [htype]
      exact (hl.atomOk hxne).up hup
    · rw [htype, ← hsame]
      exact hr.atomOk hyne
    · rw [htype, ← hbool, ← hres, hsame]
  obtain ⟨hcert', hmade⟩ := hbranch hs2 hterm (henv ▸ hc.yes) (henv ▸ hc.no)
  exact ⟨hcert', hexy.made.trans hmade⟩

lemma condPlanned_between {span : Span} {scaling : Bool}
    {hint : Bytes} {yes' no' : LabelId} (hop : op = .and ∨ op = .or)
    (hfirst : (yes' = s.labels.size + 1 ∧ no' = no) ∨ (yes' = yes ∧ no' = s.labels.size + 1))
    (hbx : Branches yes' no' (s.addLabel hint) u)
    (hby : Branches yes no (u.opened (s.labels.size + 1)) t)
    (hx : CondPlanned c K V x yes' no' (s.addLabel hint) u)
    (hy : CondPlanned c K V y yes no (u.opened (s.labels.size + 1)) t) :
    CondPlanned c K V (.binary ty span op operand scaling x y) yes no s t := by
  have hlabel : Planned c s (s.addLabel hint) _ :=
    planned_labels [s.env V] rfl (size_labels_addLabel s hint) rfl
  have hopen : Planned c u (u.opened (s.labels.size + 1)) _ :=
    planned_block rfl rfl (Array.size_push _)
  have hopened := grows_opened u (s.labels.size + 1)
  refine (((hlabel.trans hx hbx.adds.grows).trans hopen hopened).trans hy hby.adds.grows).mono ?_
  rintro S F hS hF ⟨⟨⟨hentry, hx⟩, -⟩, hy⟩ hc hcert
  obtain ⟨hwx, hwy, -, hres, -, -⟩ := hc.wellTyped
  obtain ⟨hxbool, hybool⟩ := logical hop hres
  have hle : s.labels.size + 1 ≤ u.labels.size :=
    Nat.le_trans (Nat.le_of_eq (size_labels_addLabel s hint).symm) hbx.adds.grows.labels
  have hle' : u.labels.size ≤ t.labels.size := hby.adds.grows.labels
  have hrhs : S.Plain (s.labels.size + 1) (s.env V) :=
    ⟨hentry 0 _ rfl, hc.quiet _ (Nat.lt_succ_self _) (Nat.le_trans hle hle')⟩
  obtain ⟨hcu, hmadeu⟩ : Certified S V u ∧ Made S (s.addLabel hint) u := by
    refine hx ⟨hc.wellFormed.2.1, hwx, hxbool, hc.const, ?_, ?_, fun l hlo hhi => ?_⟩
      ⟨hcert.pos, hcert.here⟩
    · rcases hfirst with ⟨rfl, -⟩ | ⟨rfl, -⟩
      · exact hrhs
      · exact hc.yes
    · rcases hfirst with ⟨-, rfl⟩ | ⟨-, rfl⟩
      · exact hc.no
      · exact hrhs
    · exact hc.quiet l (by rw [size_labels_addLabel] at hlo; omega) (Nat.le_trans hhi hle')
  -- the second operand starts with the same variables
  have hscope : (u.opened (s.labels.size + 1)).scope = s.scope := hbx.scope
  have henv := env_eq_of_scope (V := V) hscope
  have hstart : Certified S V (u.opened (s.labels.size + 1)) := by
    refine certified_begin rfl hcu.pos ?_ (henv ▸ hcert.owned) (agrees_env V _)
    rw [henv]
    exact hrhs.entry
  have hblock := hcu.blockOk hS (hby.adds.grows.trans hF) hbx.not_live
  obtain ⟨hct, hmadet⟩ := hy ⟨hc.wellFormed.2.2, hwy, hybool, fun v hv => by
      rw [LowerState.lookup, hscope]; exact hc.const v hv, henv ▸ hc.yes, henv ▸ hc.no,
    fun l hlo hhi => hc.quiet l (Nat.lt_of_succ_lt (Nat.lt_of_le_of_lt hle hlo)) hhi⟩ hstart
  have hmades : Made S s (s.addLabel hint) := .of_same rfl rfl rfl
  have hmadeo : Made S u (u.opened (s.labels.size + 1)) :=
    .of_block (Array.size_push _) rfl rfl hblock
  exact ⟨hct, ((hmades.trans hmadeu).trans hmadeo).trans hmadet⟩

lemma condPlanned_of_run (h : CondRun c e yes no s t) (hlive : s.Live) :
    CondPlanned c K V e yes no s t := by
  induction h with
  | @negation ty span x yes no s t _ ih =>
    refine (ih hlive).mono fun S F _ _ hx hc hcert => hx ?_ hcert
    obtain ⟨hwx, -, hres⟩ := hc.wellTyped
    have hbool : x.ty = .bool := (UnaryOp.result?_eq hres).symm.trans hc.bool
    exact ⟨hc.wellFormed.2, hwx, hbool, hc.const, hc.no, hc.yes, hc.quiet⟩
  | both hx hy ihx ihy =>
    exact condPlanned_between (.inl rfl) (.inl ⟨rfl, rfl⟩) (hx.branches hlive) (hy.branches rfl)
      (ihx hlive) (ihy rfl)
  | either hx hy ihx ihy =>
    exact condPlanned_between (.inr rfl) (.inr ⟨rfl, rfl⟩) (hx.branches hlive) (hy.branches rfl)
      (ihx hlive) (ihy rfl)
  | compare hop hx hy h => exact condPlanned_compare hlive hop hx hy h
  | test h => exact condPlanned_test hlive h

end Conditions

end VecLang.Ssa
