import Mathlib.Algebra.BigOperators.Intervals
import VecLang.Proofs.Ssa.Programs

/-!
# The code of programs is valid

What is known of the code of a program leaves nothing to report on it (`validate_of_lowerModule`).
-/

namespace VecLang.Ssa

open Stateful LowerState Option
open List hiding beq_eq_decide

variable {S : Setting} {σ : Point} {params : List VarId} {f : Func} {M : Module}

/-! ## Operands -/

def Func.Backs (f : Func) (pool : Assoc ValueId Value) : Atom → Prop
  | .none => False
  | .lit _ => True
  | .ref id _ => id ∈ f.definitions.map (·.2) ∨ (pool.get? id).isSome

lemma useDefects_eq_nil {pool : Assoc ValueId Value} {uses : List (Place × Atom)}
    (h : ∀ x ∈ uses, f.Backs pool x.2) : useDefects pool (f.definitions.map (·.2)) uses = [] := by
  refine filterMap_eq_nil_iff.2 fun ⟨p, a⟩ hmem => ?_
  have ha := h _ hmem
  cases a with
  | none => exact ha.elim
  | lit v => rfl
  | ref id ty => exact if_pos (by simpa [Func.Backs] using ha)

lemma Setting.InstrOk.typed {i : Instr} (h : S.InstrOk σ i) :
    (i.dst = 0 ∨ i.dst < S.module.types.size) ∧ ∀ a ∈ i.uses, ∃ t, S.AtomOk σ a t := by
  have hlt {d : Nat} {t : Ty} (ht : S.module.types[d]? = some t) : d = 0 ∨ d < S.module.types.size :=
    .inr (Array.getElem?_eq_some_iff.1 ht).1
  cases i with
  | assign dst src =>
    obtain ⟨t, ht, hsrc⟩ := h
    exact ⟨hlt ht, by simpa [Instr.uses] using ⟨t, hsrc⟩⟩
  | binary dst op operand scaling l r =>
    obtain ⟨tl, tr, t, ht, hl, hr, -⟩ := h
    exact ⟨hlt ht, by simpa [Instr.uses] using ⟨⟨tl, hl⟩, tr, hr⟩⟩
  | unary dst op x =>
    obtain ⟨tx, t, ht, hx, -⟩ := h
    exact ⟨hlt ht, by simpa [Instr.uses] using ⟨tx, hx⟩⟩
  | call dst callee name args =>
    obtain ⟨g, -, -, hargs, hdst⟩ := h
    refine ⟨?_, fun a ha => ?_⟩
    · split at hdst
      next hd => exact .inl hd
      · exact hlt hdst.2
    · obtain ⟨p, -, t, hok, -⟩ := exists_of_mem_left hargs ha
      exact ⟨t, hok⟩
  | pack dst elems =>
    obtain ⟨t, ht, -, -, helems⟩ := h
    exact ⟨hlt ht, fun a ha => ⟨.real, helems a ha⟩⟩
  | swizzle dst x lanes =>
    obtain ⟨tx, t, ht, hx, -⟩ := h
    exact ⟨hlt ht, by simpa [Instr.uses] using ⟨tx, hx⟩⟩
  | unknown kind => exact h.elim

lemma Setting.TermOk.uses {term : Term} (h : S.TermOk σ term) {a : Atom} (ha : a ∈ term.uses) :
    ∃ t, S.AtomOk σ a t := by
  cases term with
  | branch l op r operand target =>
    rcases mem_pair.1 ha with rfl | rfl
    · exact ⟨operand, h.1⟩
    · exact ⟨operand, h.2.1⟩
  | ret value =>
    cases value with
    | none => cases ha
    | some v =>
      cases mem_singleton.1 ha
      exact ⟨_, h⟩
  | none | goto _ | halt | unknown _ => cases ha

lemma map_placedUses (j : Nat) (t : Term) : (t.placedUses j).map (·.2) = t.uses := by
  cases t with
  | ret value => cases value <;> rfl
  | _ => rfl

lemma mem_numbered {x : Nat × Block} : x ∈ f.numbered ↔ f.blocks[x.1]? = some x.2 := by
  rw [← Array.getElem?_toList, ← mk_mem_zipIdx_iff_getElem?]
  constructor
  · intro hx
    obtain ⟨_, hmem, rfl⟩ := List.mem_map.1 hx
    exact hmem
  · exact fun hx => List.mem_map.2 ⟨(x.2, x.1), hx, rfl⟩

/-! ## Control -/

/-- Control has somewhere to go from every block. -/
structure Func.Leads (f : Func) : Prop where
  last : ∀ {i : Nat} {b : Block}, f.blocks[i]? = some b → b.term.fallsThrough = true →
    i + 1 < f.blocks.size
  targets : ∀ {i : Nat} {b : Block}, f.blocks[i]? = some b → ∀ l ∈ b.term.targets,
    (blockOf? f.blocks l).isSome

lemma controlDefects_eq_nil_iff : controlDefects f = [] ↔ f.Leads := by
  have hlast {i : Nat} {b : Block} (hb : f.blocks[i]? = some b) (hi : ¬ i + 1 < f.blocks.size) :
      i = f.blocks.size - 1 := by
    have := (Array.getElem?_eq_some_iff.1 hb).1
    omega
  rw [controlDefects, append_eq_nil_iff, flatMap_eq_nil_iff]
  constructor
  · rintro ⟨hoff, hall⟩
    refine ⟨fun {i b} hb hfall => ?_, fun {i b} hb l hl => ?_⟩
    · by_contra hi
      obtain ⟨hbranch, -⟩ := append_eq_nil_iff.1 (hall (i, b) (mem_numbered.2 hb))
      have hi := hlast hb hi
      cases hterm : b.term with
      | none => simp [← hi, hb, hterm] at hoff
      | branch => simp [hterm, hi] at hbranch
      | _ => simp [hterm, Term.fallsThrough] at hfall
    · obtain ⟨-, htargets⟩ := append_eq_nil_iff.1 (hall (i, b) (mem_numbered.2 hb))
      rw [map_eq_nil_iff, filter_eq_nil_iff] at htargets
      simpa [isSome_iff_ne_none] using htargets l hl
  · intro h
    refine ⟨if_neg fun hoff => ?_, ?_⟩
    · split at hoff
      case h_1 b hb =>
        have hlt := h.last hb (by rw [of_decide_eq_true hoff]; rfl)
        omega
      case h_2 => cases hoff
    rintro ⟨i, b⟩ hb
    refine append_eq_nil_iff.2 ⟨if_neg fun hoff => ?_, ?_⟩
    · split at hoff
      case h_1 hterm =>
        have hlt := h.last (mem_numbered.1 hb) (by rw [hterm]; rfl)
        have hlast := of_decide_eq_true hoff
        omega
      case h_2 => cases hoff
    · rw [map_eq_nil_iff, filter_eq_nil_iff]
      intro l hl
      simp [isSome_iff_ne_none.1 (h.targets (mem_numbered.1 hb) l hl)]

namespace Certificate

def Local (S : Setting) (σ : Point) : Prop :=
  S.plan.Owned σ.env ∧ ∀ id ∈ σ.temps, id ∈ S.func.definitions.map (·.2)

lemma local_afterAll {is : List Instr} (hσ : Local S σ)
    (his : ∀ i ∈ is, i.dst ≠ 0 → i.dst ∈ S.func.definitions.map (·.2)) :
    Local S (σ.afterAll S.plan is) := by
  induction is generalizing σ with
  | nil => exact hσ
  | cons i is ih =>
    refine ih (σ := σ.after S.plan i) ⟨hσ.1.after i, fun id hid => ?_⟩ fun i' hi' =>
      his i' (mem_cons_of_mem _ hi')
    by_cases hdst : i.dst = 0
    · rw [Setting.after_of_dst_eq_zero hdst] at hid
      exact hσ.2 id hid
    · rcases Setting.mem_temps_after hid with rfl | hid
      · exact his i mem_cons_self hdst
      · exact hσ.2 id hid

variable (h : Certificate S params)

include h

lemma backs_of_atomOk (hσ : Local S σ) {a : Atom} {t : Ty} (ha : S.AtomOk σ a t) :
    S.func.Backs S.module.pool a := by
  cases a with
  | none => exact ha
  | lit v => trivial
  | ref id ty =>
    obtain ⟨-, -, -, hpool | htemp | ⟨v, henv⟩⟩ := ha
    · exact .inr hpool
    · exact .inl (hσ.2 id htemp)
    · exact .inl (h.defined (hσ.1 v id henv))

lemma instrOk {j : Nat} {b : Block} (hb : S.func.blocks[j]? = some b) :
    (∀ i ∈ b.instrs.toList, ∃ σ, Local S σ ∧ S.InstrOk σ i) ∧ ∃ σ, Local S σ ∧ S.TermOk σ b.term := by
  obtain ⟨b', e, hb', -, hown, hcode, hend⟩ := h.blocks j (Array.getElem?_eq_some_iff.1 hb).1
  cases hb.symm.trans hb'
  have hdst : ∀ i ∈ b.instrs.toList, i.dst ≠ 0 → i.dst ∈ S.func.definitions.map (·.2) := by
    intro i hi hne
    rw [definitions_eq, mem_filter]
    exact ⟨mem_append_right _ (mem_flatMap.2 ⟨b, Array.mem_toList_iff.2
      (Array.mem_of_getElem? hb), List.mem_map_of_mem hi⟩), decide_eq_true hne⟩
  have hstart : Local S ⟨e, []⟩ := ⟨hown, nofun⟩
  refine ⟨fun i hi => ?_, _, local_afterAll hstart hdst, hend.term⟩
  obtain ⟨n, hn⟩ := mem_iff_getElem?.1 hi
  exact ⟨_, local_afterAll hstart fun i hi => hdst i (mem_of_mem_take hi), hcode.instrOk hn⟩

lemma owner_of_arg {a : ValueId} (ha : a ∈ S.func.args) : ∃ v, S.plan.owner a = some v := by
  obtain ⟨b, e, hb, hentry, henv⟩ := h.start
  obtain ⟨b', e', hb', hentry', hown, -⟩ := h.blocks 0 (Array.getElem?_eq_some_iff.1 hb).1
  cases hb.symm.trans hb'
  cases hentry.symm.trans hentry'
  obtain ⟨i, hi⟩ := mem_iff_getElem?.1 ha
  have hlt : i < params.length := h.length ▸ (List.getElem?_eq_some_iff.1 hi).1
  exact ⟨params[i], hown _ _ ((henv _ _).2 ⟨i, getElem?_eq_getElem hlt, hi⟩)⟩

lemma backs_uses {x : Place × Atom} (hx : x ∈ S.func.uses) : S.func.Backs S.module.pool x.2 := by
  rcases mem_append.1 hx with hx | hx
  · obtain ⟨⟨j, b⟩, hb, hx⟩ := mem_flatMap.1 hx
    obtain ⟨hinstrs, σ, hσ, hterm⟩ := h.instrOk (mem_numbered.1 hb)
    rcases mem_append.1 hx with hx | hx
    · obtain ⟨⟨p, i⟩, hi, hx⟩ := mem_flatMap.1 hx
      obtain ⟨a, ha, rfl⟩ := List.mem_map.1 hx
      obtain ⟨⟨i', n⟩, hi', heq⟩ := List.mem_map.1 hi
      cases heq
      obtain ⟨σ, hσ, hok⟩ := hinstrs i (fst_mem_of_mem_zipIdx hi')
      obtain ⟨t, hatom⟩ := hok.typed.2 a ha
      exact h.backs_of_atomOk hσ hatom
    · obtain ⟨t, hatom⟩ := hterm.uses (map_placedUses j b.term ▸ List.mem_map_of_mem hx)
      exact h.backs_of_atomOk hσ hatom
  · obtain ⟨p, hp, hx⟩ := mem_flatMap.1 hx
    obtain ⟨b, hb, rfl⟩ := List.mem_map.1 hx
    obtain ⟨v, e, -, -, -, hbranches, -⟩ := h.phis p hp
    exact .inl (h.defined (hbranches b hb))

end Certificate

/-! ## Edges -/

lemma getD_predecessors {j : Nat} (hj : j < f.blocks.size) :
    (predecessors f).getD j 0 = (arrivals f.blocks j).length := by
  let jumps (b : Block) : Nat := (b.term.targets.filterMap (blockOf? f.blocks)).count j
  let falls (i : Nat) : Bool := (f.blocks[i]?.map (·.term.fallsThrough)).getD false
  have hways (i : Nat) : (waysFrom f.blocks j i).length =
      (f.blocks[i]?.map jumps).getD 0 + if falls i ∧ i + 1 = j then 1 else 0 := by
    cases hi : f.blocks[i]? with
    | none => simp [waysFrom, falls, hi]
    | some b =>
      simp only [waysFrom, hi, length_append, length_map, jumps, falls, map_some, getD_some]
      congr 1
      · rw [List.count, countP_filterMap, countP_eq_length_filter]
        congr 1
        refine filter_congr fun l _ => ?_
        cases blockOf? f.blocks l <;> simp [beq_eq_decide]
      · split <;> rfl
  have hjumps : f.blocks.toList.map jumps = (List.range f.blocks.size).map fun i =>
      (f.blocks[i]?.map jumps).getD 0 :=
    ext_getElem (by simp) fun i hi _ => by
      have hlt : i < f.blocks.size := by simpa using hi
      simp [hlt]
  have hfalls : ((List.range f.blocks.size).map fun i => if falls i ∧ i + 1 = j then 1 else 0).sum =
      if j ≠ 0 && falls (j - 1) then 1 else 0 := by
    change ∑ i ∈ Finset.range f.blocks.size, _ = _
    cases j with
    | zero => simp
    | succ k =>
      simp only [Nat.succ.injEq, and_comm (b := _ = k), ite_and]
      rw [Finset.sum_ite_eq', if_pos (Finset.mem_range.2 (by omega))]
      simp
  rw [arrivals, length_flatMap, map_congr_left fun i _ => hways i, sum_map_add, ← hjumps, hfalls]
  simp [predecessors, hj, count_flatMap, jumps, falls, Function.comp_def]
lemma Certificate.phiDefects_eq_nil (h : Certificate S params) : phiDefects S.func = [] := by
  refine filterMap_eq_nil_iff.2 fun p hp => ?_
  obtain ⟨j, hj⟩ := isSome_iff_exists.1 (h.placed p hp)
  obtain ⟨-, -, -, -, -, -, hways⟩ := h.phis p hp
  obtain ⟨-, b, hb, -⟩ := blockOf?_eq_some hj
  have hedges := getD_predecessors (Array.getElem?_eq_some_iff.1 hb).1
  rw [← hways j hj] at hedges
  simp only [hj]
  exact if_pos hedges

/-! ## Definitions and labels -/

lemma definitionDefects_eq_nil {pool : Assoc ValueId Value} {seen : List ValueId}
    {ds : List (Place × ValueId)} (hnd : (seen.reverse ++ ds.map (·.2)).Nodup)
    (hpool : ∀ x ∈ ds, pool.get? x.2 = none) : definitionDefects pool seen ds = [] := by
  induction ds generalizing seen with
  | nil => rfl
  | cons x ds ih =>
    have hx : x.2 ∉ seen := fun hmem =>
      (nodup_append.1 hnd).2.2 _ (mem_reverse.2 hmem) _ mem_cons_self rfl
    simp only [definitionDefects, contains_iff_mem, hx, hpool x mem_cons_self]
    exact ih (by simpa using hnd) fun y hy => hpool y (mem_cons_of_mem _ hy)

variable {seen : Assoc LabelId Bytes}

lemma labelDefects_eq_nil_iff {owner : Bytes} {bs : List Block} :
    labelDefects owner seen bs = [] ↔ ∀ l ≠ 0, (bs.map (·.label)).count l ≤ 1 ∧
      (l ∈ seen.keys → l ∉ bs.map (·.label)) := by
  induction bs generalizing seen with
  | nil => simp [labelDefects]
  | cons b bs ih =>
    rw [labelDefects]
    split
    case isTrue hb =>
      rw [ih]
      refine forall₂_congr fun l hl => ?_
      simp [hb, hl, Ne.symm hl]
    case isFalse hb =>
      split
      next first hget =>
        have hmem := Assoc.isSome_get?_iff.1 (isSome_of_eq_some hget)
        exact ⟨nofun, fun h => absurd mem_cons_self ((h b.label hb).2 hmem)⟩
      next hget =>
        have hnew := Assoc.get?_eq_none_iff.1 hget
        rw [ih]
        refine forall₂_congr fun l _ => ?_
        rw [Assoc.mem_keys_set, map_cons, mem_cons]
        by_cases hl : l = b.label
        · subst hl
          have hcount := count_eq_zero (a := b.label) (l := bs.map (·.label))
          rw [count_cons_self]
          simp only [true_or, hnew, false_imp_iff, true_imp_iff, and_true, ← hcount]
          omega
        · simp [hl, Ne.symm hl]

lemma mem_labelsSeen {l : LabelId} :
    l ∈ (f.labelsSeen seen).keys ↔ l ∈ seen.keys ∨ l ≠ 0 ∧ l ∈ f.blocks.toList.map (·.label) := by
  unfold Func.labelsSeen
  generalize f.blocks.toList = bs
  induction bs generalizing seen with
  | nil => simp
  | cons b bs ih =>
    rw [foldl_cons, ih, map_cons, mem_cons]
    split
    · grind
    · rw [Assoc.mem_keys_set]
      grind

/-! ## Programs -/

section Programs

variable {c : LowerContext} {s t : LowerState} {table : SymbolTable} {types : VarId → Ty}
  {fits : Typed.Fits}

def Func.Apart (f g : Func) : Prop := ∀ id ∈ f.definitions.map (·.2), id ∉ g.definitions.map (·.2)

lemma FuncRun.mem_labels {h : Typed.Func} (r : FuncRun c h s) (hnd : h.params.Nodup) {l : LabelId}
    (hl : l ≠ 0) : l ∈ r.func.blocks.toList.map (·.label) ↔
      s.labels.size < l ∧ l ≤ r.result.labels.size := by
  have hstarted : (r.func.blocks.toList.map (·.label)).count l = _ := r.started_eq hnd hl
  rw [← count_pos_iff, hstarted, within]
  split <;> simp_all

lemma Certificate.defects_eq_nil {h : Typed.Func} {r : FuncRun c h s} {q : Plan}
    (hcert : Certificate ⟨M, table, fits, r.func, q⟩ params) (hnd : h.params.Nodup)
    (hpos : 0 < s.types.size) (hpool : ∀ id : Nat, (M.pool.get? id).isSome → id < s.types.size)
    (hseen : ∀ l : Nat, l ∈ seen.keys → l ≤ s.labels.size) :
    r.func.defects M seen = [] := by
  have hlabels : labelDefects r.func.name seen r.func.blocks.toList = [] := by
    refine labelDefects_eq_nil_iff.2 fun l hl => ⟨?_, fun hmem hin => ?_⟩
    · exact (r.started_eq hnd hl).trans_le (by unfold within; split <;> omega)
    · exact absurd ((r.mem_labels hnd hl).1 hin).1 (Nat.not_lt.2 (hseen l hmem))
  have hdefs : definitionDefects M.pool [] r.func.definitions = [] := by
    refine definitionDefects_eq_nil (r.nodup_definitions hnd hpos) fun x hx => ?_
    have hle := ((r.mem_definitions hnd hpos).1 (List.mem_map_of_mem hx)).1
    by_contra hsome
    exact absurd (hpool _ (isSome_iff_ne_none.2 hsome)) (Nat.not_lt.2 hle)
  have huses : useDefects M.pool (r.func.definitions.map (·.2)) r.func.uses = [] :=
    useDefects_eq_nil fun x hx => hcert.backs_uses hx
  have hcontrol : controlDefects r.func = [] :=
    controlDefects_eq_nil_iff.2 ⟨hcert.last, fun hb _ => hcert.targets hb⟩
  have hphis : phiDefects r.func = [] := hcert.phiDefects_eq_nil
  have hblocks : r.func.blocks.isEmpty = false := by simp [FuncRun.func, LowerState.all]
  simp [Func.defects, hblocks, hlabels, hdefs, huses, hcontrol, hphis]

lemma defectsFrom_of_mapM {fs : List Typed.Func} {gs : List Func}
    (hnd : ∀ f ∈ fs, f.params.Nodup) (h : fs.mapM (lowerFunc c) s = .ok (gs, t))
    (hcert : ∀ g ∈ gs, ∃ q params, Certificate ⟨M, table, fits, g, q⟩ params)
    (hpos : 0 < s.types.size) (hpool : ∀ id : Nat, (M.pool.get? id).isSome → id < s.types.size)
    (hseen : ∀ l : Nat, l ∈ seen.keys → l ≤ s.labels.size) :
    (∀ x ∈ defectsFrom M seen gs, x.2 = []) ∧ gs.Pairwise Func.Apart ∧
      ∀ g ∈ gs, ∀ id ∈ g.definitions.map (·.2), s.types.size ≤ id := by
  -- each function takes its values and labels behind those of the functions before it
  induction fs generalizing s gs seen with
  | nil =>
    cases h
    exact ⟨nofun, .nil, nofun⟩
  | cons f fs ih =>
    obtain ⟨g, u, gs, _, hg, hgs, heq⟩ := mapM_cons_eq_ok.1 h
    cases heq
    obtain ⟨r, rfl, rfl⟩ := lowerFunc_eq_ok.1 hg
    have hf := hnd f mem_cons_self
    have hgrows := (r.adds hf).grows
    have htypes : s.types.size ≤ r.result.types.size :=
      Nat.le_trans (by simp [funcStart, LowerState.addValues]) hgrows.types_size
    have hlabels : s.labels.size ≤ r.result.labels.size := hgrows.labels
    have hseen' : ∀ l : Nat, l ∈ (r.func.labelsSeen seen).keys → l ≤ r.result.labels.size := by
      intro l hl
      rcases mem_labelsSeen.1 hl with hl | ⟨hne, hl⟩
      · exact Nat.le_trans (hseen l hl) hlabels
      · exact ((r.mem_labels hf hne).1 hl).2
    obtain ⟨q, params, hr⟩ := hcert _ mem_cons_self
    obtain ⟨hnone, hapart, hrange⟩ := ih (fun f hf => hnd f (mem_cons_of_mem _ hf)) hgs
      (fun g hg => hcert g (mem_cons_of_mem _ hg)) (Nat.lt_of_lt_of_le hpos htypes)
      (fun id hid => Nat.lt_of_lt_of_le (hpool id hid) htypes) hseen'
    refine ⟨forall_mem_cons.2 ⟨hr.defects_eq_nil hf hpos hpool hseen, hnone⟩, .cons ?_ hapart,
      forall_mem_cons.2 ⟨fun id hid => ((r.mem_definitions hf hpos).1 hid).1, ?_⟩⟩
    · intro g hg id hid hid'
      exact absurd ((r.mem_definitions hf hpos).1 hid).2 (Nat.not_lt.2 (hrange g hg id hid'))
    · exact fun g hg id hid => Nat.le_trans htypes (hrange g hg id hid)

/-- Nothing is wrong with the code of a program that is accepted, and no two functions of it define
the same value. -/
lemma validate_of_lowerModule {lo : VarId} {m : Resolved.Module} {tm : Typed.Module}
    (hacc : Accepted table lo m tm) (hc : Compiled table types fits M)
    (h : lowerModule tm table = .ok M) :
    M.validate = .ok none ∧ M.funcs.Pairwise Func.Apart := by
  obtain ⟨gs, t, hrun, hM⟩ := lowerModule_eq_ok.1 h
  have hfuncs : M.funcs = gs := by rw [hM]
  have hpos : 0 < (constState tm).types.size := by simp [constState, LowerState.addValues]
  have hnd : ∀ f ∈ tm.funcs, f.params.Nodup := fun f hf => by
    obtain ⟨a, sym, -, -, -, -, -, hnd, -⟩ := func_of_accepted hacc hf
    exact hnd
  have hpool : ∀ id : Nat, (M.pool.get? id).isSome → id < (constState tm).types.size := by
    intro id hid
    obtain ⟨v, hv⟩ := isSome_iff_exists.1 hid
    have hpool : M.pool = (contextOf tm table).pool := by rw [hM]
    exact (Array.getElem?_eq_some_iff.1 (pool_eq_some (hpool ▸ hv)).2).1
  have hcert : ∀ g ∈ gs, ∃ q params, Certificate ⟨M, table, fits, g, q⟩ params := by
    intro g hg
    obtain ⟨sym, q, -, -, -, -, hcert, -⟩ := hc.funcs g (hfuncs ▸ hg)
    exact ⟨q, sym.params, hcert⟩
  have hseen : ∀ l : Nat, l ∈ Assoc.keys ([] : Assoc LabelId Bytes) →
      l ≤ (constState tm).labels.size := by rintro l ⟨⟩
  obtain ⟨hnone, hapart, -⟩ := defectsFrom_of_mapM hnd hrun hcert hpos hpool hseen
  refine ⟨?_, hfuncs ▸ hapart⟩
  have hdefects : M.defects = [] := by
    rw [Module.defects, hfuncs]
    refine filter_eq_nil_iff.2 fun x hx => ?_
    simp [hnone x hx]
  have hbranches : (M.phiBranches.find? fun id => id ≥ M.types.size) = none := by
    refine find?_eq_none.2 fun id hid => ?_
    obtain ⟨g, hg, hid⟩ := mem_flatMap.1 hid
    obtain ⟨p, hp, hid⟩ := mem_flatMap.1 hid
    obtain ⟨sym, q, -, -, -, -, hcert, htyped⟩ := hc.funcs g (mem_of_mem_filter hg)
    obtain ⟨v, -, -, -, -, hown, -⟩ := hcert.phis p hp
    have hlt := (Array.getElem?_eq_some_iff.1 (htyped id v (hown id hid))).1
    simpa using hlt
  rw [Module.validate, hbranches]
  simp only [hdefects]

end Programs

end VecLang.Ssa
