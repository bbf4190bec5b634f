import VecLang.Proofs.Resolved.Resolving
import VecLang.Proofs.Syntax.Soundness

/-!
# Resolving declarations

Functions are declared before everything else, then the constants, then the variables of the
bodies. A program that is resolved without a report is well formed and closed (`clear_resolveModule`).
-/

namespace VecLang.Resolved

open List Option SymbolTable Syntax

variable {s t : ResolveState}

/-! ## Functions -/

structure ParamsDeclared (table : SymbolTable) (seen : List Bytes) (ps : List Param)
    (ids : List VarId) : Prop where
  outline : ∀ {T : SymbolTable}, KeepsVars table T → ps.mapM Param.outline? = some (ids.map T.decl)
  names : ∀ {T : SymbolTable}, KeepsVars table T → ids.map T.varName = ps.map (·.name)
  nodup : (ps.map (·.name)).Nodup
  unseen : ∀ p ∈ ps, p.name ∉ seen

lemma clear_declareParams (owner : FunId) (ps : List Param) {seen : List Bytes}
    {s : ResolveState} : Clear (declareParams owner seen ps) s fun ids t =>
      Declares s t ps.length ∧ ids = range' s.table.numVars ps.length ∧
        ParamsDeclared t.table seen ps ids := by
  induction ps generalizing seen s with
  | nil => exact .of_pure ⟨.refl _, rfl, fun _ => rfl, fun _ => rfl, nodup_nil, by simp⟩
  | cons p ps ih =>
    rw [declareParams]
    split
    · exact .of_report
    case isFalse hseen =>
    refine .bind (clear_resolveType p.type) ?_
    rintro declared _ ⟨rfl, htype⟩
    refine .bind clear_newVar ?_
    rintro _ s1 ⟨rfl, hone, hvar⟩
    refine .bind ih ?_
    rintro _ t ⟨hdecl, rfl, hparams⟩
    refine .of_pure ⟨?_, ?_, ?_, ?_, ?_, ?_⟩
    · rw [length_cons, Nat.add_comm]
      exact hone.trans hdecl
    · rw [hone.numVars, length_cons, range'_succ]
    · intro T hT
      rw [mapM_cons, hparams.outline hT, Param.outline?, htype, map_cons,
        decl_of _ (hdecl.keepsVars hT hvar)]
      rfl
    · intro T hT
      rw [map_cons, map_cons, hparams.names hT, varName_of _ (hdecl.keepsVars hT hvar)]
    · refine nodup_cons.2 ⟨fun hmem => ?_, hparams.nodup⟩
      obtain ⟨q, hq, hname⟩ := mem_map.1 hmem
      exact hparams.unseen q hq (hname ▸ mem_cons_self)
    · refine forall_mem_cons.2 ⟨by simpa using hseen, fun q hq hmem => ?_⟩
      exact hparams.unseen q hq (mem_cons_of_mem _ hmem)

structure FnDeclared (table : SymbolTable) (f : Fun) (d : FnDecl) : Prop where
  name : f.name = d.name
  span : f.span = d.nameSpan
  builtin : f.builtin = none
  result : typeOf? d.result = some f.result
  params : ParamsDeclared table [] d.params f.params

lemma FnDeclared.mono {table T : SymbolTable} {f : Fun} {d : FnDecl}
    (h : FnDeclared table f d) (hT : KeepsVars table T) : FnDeclared T f d :=
  { h with params := { h.params with
      outline := fun hT' => h.params.outline fun hv => hT' (hT hv)
      names := fun hT' => h.params.names fun hv => hT' (hT hv) } }

/-- A function gets the next number, and its parameters the next numbers of variables. -/
lemma clear_declareFn (d : FnDecl) : Clear (declareFn d) s fun r t =>
    r = some s.table.numFuns ∧ s.table.lookupFun? d.name = none ∧
      (∃ new : Array Var, t.table.vars = s.table.vars ++ new ∧ new.size = d.params.length) ∧
      ∃ f : Fun, t.table.funs = s.table.funs.push f ∧ FnDeclared t.table f d ∧
        f.params = range' s.table.numVars d.params.length := by
  unfold declareFn
  split
  · exact .of_refuse
  refine .of_get ?_
  dsimp only
  cases hlook : s.table.lookupFun? d.name with
  | some prev => exact .of_report
  | none =>
    refine .bind (clear_resolveType d.result) ?_
    rintro result _ ⟨rfl, htype⟩
    refine .bind (P := fun id t => newFun _ s = (id, t)) (fun _ => rfl) ?_
    rintro _ _ ⟨⟩
    refine .bind (clear_declareParams _ _) ?_
    rintro _ t ⟨hdecl, rfl, hdeclared⟩
    obtain ⟨new, hvars, hsize⟩ := hdecl.vars
    refine fun _ => ⟨rfl, rfl, ⟨new, hvars, hsize⟩,
      ⟨d.name, range' s.table.numVars d.params.length, result, d.nameSpan, none⟩,
      ?_, ⟨rfl, rfl, rfl, htype, { hdeclared with
        outline := fun hT => hdeclared.outline hT
        names := fun hT => hdeclared.names hT }⟩, rfl⟩
    have hfuns : t.table.funs = s.table.funs.push ⟨d.name, [], result, d.nameSpan, none⟩ :=
      hdecl.funs
    change (setParams t.table s.table.numFuns _).funs = _
    simp only [setParams, hfuns]
    apply Array.ext_getElem?
    intro i
    rw [Array.getElem?_modify, Array.getElem?_push, Array.getElem?_push]
    by_cases hi : i = s.table.funs.size
    · simp [hi, numFuns, numVars]
    · simp [hi, Ne.symm hi, numFuns]

structure FunsDeclared (table : SymbolTable) : Prop where
  funs : FunsWellFormed table
  param_lt : ∀ {id f p}, table.fun? id = some f → p ∈ f.params → 0 < p ∧ p < table.numVars
  param_nodup : ∀ {id f}, table.fun? id = some f → f.params.Nodup
  param_owner : ∀ {id f id' f' p}, table.fun? id = some f → table.fun? id' = some f' →
    p ∈ f.params → p ∈ f'.params → id = id'
  covered : ∀ v, 0 < v → v < table.numVars → ∃ id f, table.fun? id = some f ∧ v ∈ f.params
  names : (table.funs.toList.map (·.name)).Nodup

section Tables

variable {table T : SymbolTable} {id : FunId} {f : Fun}

lemma fun?_lt (h : table.fun? id = some f) : id < table.numFuns :=
  (Array.getElem?_eq_some_iff.1 h).1

lemma fun?_push (hfuns : T.funs = table.funs.push f) : T.fun? table.numFuns = some f ∧
    ∀ {id g}, table.fun? id = some g → T.fun? id = some g := by
  unfold fun? numFuns
  rw [hfuns]
  refine ⟨Array.getElem?_push_size, fun hg => ?_⟩
  rw [Array.getElem?_push_lt (fun?_lt hg), ← hg, Array.getElem?_eq_getElem (fun?_lt hg)]

end Tables

lemma funsDeclared_builtin : FunsDeclared .builtin where
  funs := ⟨id, fun h hn => absurd (hn ▸ h) nofun, id⟩
  param_lt {id f p} hf hp := by
    have hlt := fun?_lt hf
    have table : ∀ id < 3, ∀ f ∈ builtin.fun? id, ∀ p ∈ f.params, 0 < p ∧ p < 4 := by
      decide
    exact table id hlt f hf p hp
  param_nodup {id f} hf := by
    have table : ∀ id < 3, ∀ f ∈ builtin.fun? id, f.params.Nodup := by decide
    exact table id (fun?_lt hf) f hf
  param_owner {id f id' f' p} hf hf' hp hp' := by
    have table : ∀ id < 3, ∀ f ∈ builtin.fun? id, ∀ p ∈ f.params, p = id + 1 := by
      decide
    have hid := table id (fun?_lt hf) f hf p hp
    have hid' := table id' (fun?_lt hf') f' hf' p hp'
    exact Nat.succ.inj (hid.symm.trans hid')
  covered v hpos hlt := by
    have table : ∀ v < 4, 0 < v → ∃ id < 3, ∃ f ∈ builtin.fun? id, v ∈ f.params := by
      decide
    obtain ⟨id, -, f, hf, hv⟩ := table v hlt hpos
    exact ⟨id, f, hf, hv⟩
  names := by decide

lemma name_ne_of_lookupFun? {table : SymbolTable} {name : Bytes}
    (h : table.lookupFun? name = none) {id : FunId} {f : Fun} (hf : table.fun? id = some f) :
    name ≠ f.name := by
  intro heq
  have hall := Array.findIdx?_eq_none_iff.1 h f (Array.mem_of_getElem? hf)
  rw [heq] at hall
  simp at hall

lemma FunsDeclared.push {table table' : SymbolTable} {f : Fun} {n : Nat} {new : Array Var}
    (h : FunsDeclared table) (hfuns : table'.funs = table.funs.push f)
    (hvars : table'.vars = table.vars ++ new) (hsize : new.size = n) (hb : f.builtin = none)
    (hname : table.lookupFun? f.name = none) (hparams : f.params = range' table.numVars n) :
    FunsDeclared table' := by
  have hnum : table'.numVars = table.numVars + n := by
    simp only [numVars, hvars, Array.size_append, hsize]
    omega
  obtain ⟨hself, hold⟩ := fun?_push hfuns
  -- a function of the new table is an old one or the one that was declared
  have hcases {id : FunId} {g : Fun} (hg : table'.fun? id = some g) :
      table.fun? id = some g ∨ (id = table.numFuns ∧ g = f) := by
    unfold fun? at hg ⊢
    rw [hfuns, Array.getElem?_push] at hg
    split at hg
    case isTrue hid => exact .inr ⟨hid, (Option.some.inj hg).symm⟩
    · exact .inl hg
  refine ⟨⟨fun hg => hold (h.funs.builtin hg), fun {id g} hg hn => ?_,
    fun hv => keepsVars_append hvars (h.funs.param hv)⟩, fun {id g p} hg hp => ?_, fun {id g} hg => ?_, fun {id g id' g' p} hg hg' hp hp' => ?_,
    fun v hpos hlt => ?_, ?_⟩
  · rcases hcases hg with hg | ⟨-, rfl⟩
    · exact h.funs.declared hg hn
    · refine ⟨hb, fun k hk => ?_⟩
      obtain ⟨i, hi, hget⟩ := Array.getElem_of_mem hk
      have hki : builtin.fun? i = some k := by
        rw [← hget]
        exact Array.getElem?_eq_getElem hi
      exact name_ne_of_lookupFun? hname (h.funs.builtin hki)
  · rw [hnum]
    rcases hcases hg with hg | ⟨-, rfl⟩
    · obtain ⟨hpos, hlt⟩ := h.param_lt hg hp
      exact ⟨hpos, Nat.lt_of_lt_of_le hlt (Nat.le_add_right _ _)⟩
    · rw [hparams, mem_range'_1] at hp
      exact ⟨Nat.lt_of_lt_of_le (Nat.succ_pos _) hp.1, hp.2⟩
  · rcases hcases hg with hg | ⟨-, rfl⟩
    · exact h.param_nodup hg
    · rw [hparams]
      exact nodup_range'
  · -- the parameters of the function that was declared are new
    have hnew {id : FunId} {k : Fun} (hk : table.fun? id = some k) (hp : p ∈ k.params) :
        p ∉ f.params := by
      rw [hparams, mem_range'_1]
      exact fun hge => absurd (h.param_lt hk hp).2 (Nat.not_lt.2 hge.1)
    rcases hcases hg with hg | ⟨rfl, rfl⟩
    · rcases hcases hg' with hg' | ⟨-, rfl⟩
      · exact h.param_owner hg hg' hp hp'
      · exact absurd hp' (hnew hg hp)
    · rcases hcases hg' with hg' | ⟨rfl, -⟩
      · exact absurd hp (hnew hg' hp')
      · rfl
  · rw [hnum] at hlt
    by_cases hv : v < table.numVars
    · obtain ⟨id, g, hg, hm⟩ := h.covered v hpos hv
      exact ⟨id, g, hold hg, hm⟩
    · refine ⟨table.numFuns, f, hself, ?_⟩
      rw [hparams, mem_range'_1]
      exact ⟨Nat.not_lt.1 hv, hlt⟩
  · rw [hfuns, Array.toList_push, map_append, map_singleton]
    refine nodup_append.2 ⟨h.names, pairwise_singleton _ _, ?_⟩
    intro name hmem name' hmem' heq
    obtain ⟨g, hg, rfl⟩ := mem_map.1 hmem
    rw [mem_singleton.1 hmem'] at heq
    obtain ⟨i, hi, hget⟩ := getElem_of_mem hg
    have hgi : table.fun? i = some g := by
      rw [fun?, ← Array.getElem?_toList, getElem?_eq_getElem hi, hget]
    exact name_ne_of_lookupFun? hname hgi heq.symm

def AllDeclared (table : SymbolTable) (fns : List (FunId × FnDecl)) : Prop :=
  ∀ x ∈ fns, ∃ f, table.fun? x.1 = some f ∧ FnDeclared table f x.2

lemma AllDeclared.mono {fns : List (FunId × FnDecl)} {n : Nat} (h : AllDeclared s.table fns)
    (hst : Declares s t n) : AllDeclared t.table fns := by
  intro x hx
  obtain ⟨f, hf, hd⟩ := h x hx
  refine ⟨f, ?_, hd.mono (hst.keepsVars id)⟩
  rwa [fun?, hst.funs]

structure FnsDeclared (table : SymbolTable) (first : FunId) (fns : List (FunId × FnDecl)) :
    Prop where
  ids : fns.map (·.1) = range' first fns.length
  last : table.numFuns = first + fns.length
  declared : AllDeclared table fns

lemma clear_declareFns (items : List Item) {s : ResolveState} :
    Clear (declareFns items) s fun fns t => fns.map (·.2) = items.filterMap Item.fn? ∧
      KeepsVars s.table t.table ∧ (FunsDeclared s.table → FunsDeclared t.table ∧
        (∀ id f, s.table.fun? id = some f → t.table.fun? id = some f) ∧
        FnsDeclared t.table s.table.numFuns fns) := by
  induction items generalizing s with
  | nil => exact .of_pure ⟨rfl, id, fun hd => ⟨hd, fun _ _ => id, rfl, rfl, nofun⟩⟩
  | cons item items ih =>
    cases item with
    | const d => exact ih
    | fn d =>
      rw [declareFns]
      refine .bind (clear_declareFn d) ?_
      rintro _ s1 ⟨rfl, hname, ⟨new, hvars, hsize⟩, f, hfuns, hf, hparams⟩
      refine .bind ih ?_
      rintro more t ⟨hfns, hvarsKept, htail⟩
      refine .of_pure ⟨congrArg (d :: ·) hfns, fun hv => hvarsKept (keepsVars_append hvars hv),
        fun hd => ?_⟩
      have hd1 : FunsDeclared s1.table :=
        hd.push hfuns hvars hsize hf.builtin (hf.name ▸ hname) hparams
      obtain ⟨hnew, hold⟩ := fun?_push hfuns
      have hnum : s1.table.numFuns = s.table.numFuns + 1 := by
        simp only [numFuns, hfuns, Array.size_push]
      obtain ⟨hd2, hkeep, hfns⟩ := htail hd1
      refine ⟨hd2, fun id g hg => hkeep id g (hold hg), ?_, ?_, ?_⟩
      · change s.table.numFuns :: more.map (·.1) = range' _ (more.length + 1)
        rw [hfns.ids, hnum, range'_succ]
      · rw [hfns.last, hnum]
        change _ = s.table.numFuns + (more.length + 1)
        omega
      · intro x hx
        rcases mem_cons.1 hx with rfl | hx
        · exact ⟨f, hkeep _ _ hnew, hf.mono hvarsKept⟩
        · exact hfns.declared x hx

/-! ## Constants -/

def KnowsConsts (table : SymbolTable) (globals : Frame) (seen : List VarId) : Prop :=
  ∀ v, Knows [globals] v → v ∈ seen ∧ (table.var? v).map (·.kind) = some .const

lemma KnowsConsts.sees {globals : Frame} {seen : List VarId}
    (h : KnowsConsts s.table globals seen) : Sees s.table [globals] [] seen :=
  fun v hv => .inr (h v hv)

lemma KnowsConsts.mono {globals : Frame} {C : List VarId} {n : Nat}
    (hk : KnowsConsts s.table globals C) (h : Declares s t n) : KnowsConsts t.table globals C := by
  intro v hv
  obtain ⟨hC, hkind⟩ := hk v hv
  obtain ⟨var, hvar, hkv⟩ := map_eq_some_iff.1 hkind
  exact ⟨hC, by rw [h.var? hvar, map_some, hkv]⟩

lemma knows_cons {globals : Frame} {name : Bytes} {id v : VarId}
    (h : Knows [(name, id) :: globals] v) : v = id ∨ Knows [globals] v := by
  obtain ⟨n, hn⟩ := h
  rw [Scope.lookup?_cons, Frame.lookup?_cons] at hn
  split at hn
  · exact .inl (Option.some.inj hn).symm
  · exact .inr ⟨n, by rwa [Scope.lookup?_cons]⟩

structure ConstsResolved (globals final : Frame) (items : List Item) (cs : List Const)
    (s t : ResolveState) : Prop where
  declares : Declares s t cs.length
  numbered : cs.map (·.var) = range' s.table.numVars cs.length
  wellFormed : ∀ (T : SymbolTable) (seen : List VarId), s.table.funs = T.funs →
    KnowsConsts s.table globals seen → ConstsWellFormed T seen cs ∧
        KnowsConsts t.table final ((cs.map (·.var)).reverse ++ seen)
  named : ∀ {T : SymbolTable} {seen : List VarId}, Extends t.table T →
    Mirrors T [globals] seen seen → (items.filterMap Item.const?).mapM ConstDecl.outline? =
        some (cs.map (·.outline T)) ∧
      BoundConsts T seen cs ∧
      Mirrors T [final] ((cs.map (·.var)).reverse ++ seen) ((cs.map (·.var)).reverse ++ seen)

lemma clear_resolveConsts (items : List Item) (hv : ∀ i ∈ items, i.Valid) {globals : Frame}
    {s : ResolveState} : Clear (resolveConsts globals items) s fun r t =>
      ConstsResolved globals r.2 items r.1 s t := by
  induction items generalizing globals s with
  | nil => exact .of_pure ⟨.refl _, rfl, fun _ _ _ hk => ⟨trivial, hk⟩, fun _ hm => ⟨rfl, trivial, hm⟩⟩
  | cons item items ih =>
    obtain ⟨hitem, hrest⟩ := forall_mem_cons.1 hv
    cases item with
    | fn d => exact (ih hrest).mono fun _ _ hc => ⟨hc.declares, hc.numbered, hc.wellFormed, hc.named⟩
    | const d =>
      rw [resolveConsts]
      refine .bind (clear_resolveExpr _ _ hitem) ?_
      rintro _ _ ⟨rfl, y, rfl, hy⟩
      refine .bind (clear_resolveType d.type) ?_
      rintro declared _ ⟨rfl, htype⟩
      refine .bind clear_newVar ?_
      rintro _ s3 ⟨rfl, hone, hvar⟩
      split
      · exact .of_report
      case isFalse hdup =>
      refine .bind (ih hrest) ?_
      rintro ⟨more, final⟩ t hc
      have hcount : Declares s t (more.length + 1) := by
        rw [Nat.add_comm]
        exact hone.trans hc.declares
      have hvars {seen : List VarId} : (more.map (·.var)).reverse ++ s.table.numVars :: seen =
            ((s.table.numVars :: more.map (·.var)).reverse ++ seen) := by
        rw [reverse_cons, append_assoc]
        rfl
      refine .of_pure ⟨hcount, ?_, fun T seen hT hk => ?_, fun {T seen} hT hm => ?_⟩
      · change s.table.numVars :: more.map (·.var) = range' _ (more.length + 1)
        rw [hc.numbered, hone.numVars, range'_succ]
      · have hk' : KnowsConsts s3.table ((d.name, s.table.numVars) :: globals)
            (s.table.numVars :: seen) := by
          intro v hknows
          rcases knows_cons hknows with rfl | hknows
          · exact ⟨mem_cons_self, by rw [hvar]; rfl⟩
          · obtain ⟨hmem, hkind⟩ := hk.mono hone v hknows
            exact ⟨mem_cons_of_mem _ hmem, hkind⟩
        obtain ⟨hwfs, hknown⟩ := hc.wellFormed T _ (hone.funs.trans hT) hk'
        refine ⟨⟨?_, hwfs⟩, hvars ▸ hknown⟩
        refine (visible_of_sees hy.wellFormed hT hk.sees).mono (fun _ _ h => h) (fun v hv => ?_) y
        exact hv.resolve_left not_mem_nil
      · have hfuns := (hcount.extends hT).funs
        have hvarT := hc.declares.keepsVars hT.vars hvar
        have hname : T.varName s.table.numVars = d.name := T.varName_of hvarT
        have hnew : Scope.here? [globals] (T.varName s.table.numVars) = none := by
          rw [hname]
          exact not_isSome_iff_eq_none.1 hdup
        have hm' := hm.declare hnew
        rw [Scope.declare, hname, if_neg hdup] at hm'
        obtain ⟨hout, hbound, hfinal⟩ := hc.named hT hm'
        refine ⟨?_, ⟨hy.innermost hfuns hm, hm.ne_of_here?_eq_none hnew, hbound⟩, hvars ▸ hfinal⟩
        change (d :: items.filterMap Item.const?).mapM ConstDecl.outline? = _
        rw [mapM_cons, hout, ConstDecl.outline?, htype, hy.outline hfuns hm.spells]
        change _ = some (Const.outline T ⟨s.table.numVars, y, d.span⟩ :: more.map (·.outline T))
        rw [Const.outline, T.decl_of hvarT]
        rfl

/-! ## Bodies -/

lemma knows_paramScope {table : SymbolTable} {globals : Frame} {params : List VarId}
    {v : VarId} (h : Knows (paramScope table globals params) v) :
    v ∈ params ∨ Knows [globals] v := by
  have main : ∀ (ps : List VarId) (scope : Scope),
      Knows (ps.foldl (fun s p => s.declare (table.varName p) p) scope) v →
        v ∈ ps ∨ Knows scope v := by
    intro ps
    induction ps with
    | nil => exact fun scope h => .inr h
    | cons p ps ih =>
      intro scope h
      rcases ih _ h with hv | hv
      · exact .inl (mem_cons_of_mem _ hv)
      · rcases knows_declare hv with rfl | hv
        · exact .inl mem_cons_self
        · exact .inr hv
  exact main params [[], globals] h

structure BodiesResolved (globals : Frame) (fns : List (FunId × FnDecl)) (fs : List Func)
    (s t : ResolveState) : Prop where
  declares : ∃ n, Declares s t n
  ids : fs.map (·.id) = fns.map (·.1)
  wellFormed : ∀ {C : List VarId}, KnowsConsts s.table globals C →
    AllDeclared s.table fns → FuncsWellFormed t.table C s.table.numVars fs
  named : ∀ {T : SymbolTable} {C : List VarId}, Extends t.table T →
    KnowsConsts s.table globals C → Mirrors T [globals] C C → AllDeclared s.table fns →
      (fns.map (·.2)).mapM FnDecl.outline? = some (fs.map (·.outline T)) ∧ ∀ f ∈ fs, f.Bound T C

lemma sees_paramScope {globals : Frame} {C params : List VarId}
    (hk : KnowsConsts s.table globals C) :
    Sees s.table (paramScope s.table globals params) params C := by
  intro v hv
  rcases knows_paramScope hv with hv | hv
  · exact .inl hv
  · exact .inr (hk v hv)

lemma clear_resolveBodies (fns : List (FunId × FnDecl)) {globals : Frame} {s : ResolveState}
    (hvalid : ∀ x ∈ fns, StmtsValid x.2.body) : Clear (resolveBodies globals fns) s fun fs t =>
      BodiesResolved globals fns fs s t := by
  induction fns generalizing s with
  | nil => exact .of_pure ⟨⟨0, .refl _⟩, rfl, fun _ _ => rfl, fun _ _ _ _ => ⟨rfl, by simp⟩⟩
  | cons x fns ih =>
    obtain ⟨id, d⟩ := x
    obtain ⟨hbody, hvalid⟩ := forall_mem_cons.1 hvalid
    simp only [resolveBodies, resolveBody, LawfulMonad.bind_assoc, LawfulMonad.pure_bind]
    refine .of_get (.bind (clear_resolveStmts d.body hbody) fun body s1 hres =>
      .bind (ih hvalid) fun fs' t hbs => .of_pure ?_)
    obtain ⟨n, hn⟩ := hbs.declares
    have hT : s.table.funs = t.table.funs := (hn.funs.trans hres.declares.funs).symm
    have hparams {sym : Fun} (hsym : s.table.fun? id = some sym) :
        ((s.table.fun? id).map (·.params)).getD [] = sym.params := by
      rw [hsym, map_some, getD_some]
    -- what is known of the functions of the other bodies is known when they are resolved
    have hothers (hdecl : AllDeclared s.table ((id, d) :: fns)) : AllDeclared s1.table fns :=
      .mono (fun x hx => hdecl x (mem_cons_of_mem _ hx)) hres.declares
    refine ⟨⟨_, hres.declares.trans hn⟩, by rw [map_cons, map_cons, hbs.ids],
      fun {C} hk hdecl => ?_, fun {T C} hext hk hm hdecl => ?_⟩
    · obtain ⟨sym, hsym, hd⟩ := hdecl _ mem_cons_self
      have hfun : t.table.fun? id = some sym := by rwa [fun?, ← hT]
      rw [hparams hsym] at hres
      refine ⟨⟨sym, hfun, hd.builtin, hd.name, hres.inScope hT (sees_paramScope hk)⟩, ?_⟩
      rw [← hres.declares.numVars]
      exact hbs.wellFormed (hk.mono hres.declares) (hothers hdecl)
    · obtain ⟨sym, hsym, hd⟩ := hdecl _ mem_cons_self
      have hfun : T.fun? id = some sym := by rwa [fun?, ← hext.funs, ← hT]
      have hkeeps : KeepsVars s.table T := (hres.declares.trans hn).keepsVars hext.vars
      rw [hparams hsym] at hres
      have hnames : sym.params.map s.table.varName = sym.params.map T.varName :=
        (hd.params.names fun h => h).trans (hd.params.names hkeeps).symm
      have hdesc : Describes T C ([] :: paramScope s.table globals sym.params) s [] sym.params :=
        ⟨sees_paramScope hk, hm.paramScope hnames⟩
      obtain ⟨hout, hbound⟩ := hres.named (hn.extends hext) hdesc
      obtain ⟨houts, hbounds⟩ := hbs.named hext (hk.mono hres.declares) hm (hothers hdecl)
      refine ⟨?_, forall_mem_cons.2 ⟨⟨sym, hfun, ?_, hbound⟩, hbounds⟩⟩
      · rw [map_cons, mapM_cons, houts, FnDecl.outline?, hd.result, hd.params.outline hkeeps, hout]
        change _ = some (Func.outline T ⟨id, d.name, body, d.span⟩ :: fs'.map (·.outline T))
        rw [Func.outline, hfun, getD_some, hd.name, hd.span]
        rfl
      · rw [hd.params.names hkeeps]
        exact hd.params.nodup

/-! ## Programs -/

lemma clear_resolveMain (m : Syntax.Module) : Clear (resolveMain m) s fun r t => s = t ∧
    (FunsWellFormed s.table → ∃ id f, r = some id ∧ s.table.fun? id = some f ∧
      f.builtin = none ∧ f.params = [] ∧ f.name = "main") := by
  refine .of_get ?_
  dsimp only
  cases hmain : (s.table.lookupFun? "main").bind fun id =>
      (s.table.fun? id).map fun f => (id, f) with
  | none => exact .of_refuse
  | some x =>
    obtain ⟨id, f⟩ := x
    dsimp only
    split
    · exact .of_report
    case isFalse hparams =>
      obtain ⟨id', hid, hf⟩ := bind_eq_some_iff.1 hmain
      obtain ⟨f', hf', heq⟩ := map_eq_some_iff.1 hf
      cases heq
      have hname : f.name = "main" := by
        obtain ⟨hlt, hn, -⟩ := Array.findIdx?_eq_some_iff_getElem.1 hid
        have hget : s.table.fun? id = some s.table.funs[id] := Array.getElem?_eq_getElem hlt
        rw [hf'] at hget
        rw [Option.some.inj hget]
        exact of_decide_eq_true hn
      refine .of_pure ⟨rfl, fun hfuns => ⟨id, f, rfl, hf', ?_, not_not.1 hparams, hname⟩⟩
      cases hb : builtin.fun? id with
      | none => exact (hfuns.declared hf' hb).1
      | some g =>
        -- the functions that print have other names
        have hfg : f = g := Option.some.inj (hf'.symm.trans (hfuns.builtin hb))
        have hno : ∀ id < 3, ∀ g ∈ builtin.fun? id, g.name ≠ "main" := by decide
        exact absurd (hfg ▸ hname) (hno id (fun?_lt hb) g hb)

lemma clear_resolveModule {m : Syntax.Module} (hv : ∀ i ∈ m.items, i.Valid) :
    Clear (resolveModule m) { table := .builtin } fun r t => (∃ lo, r.WellFormed t.table lo) ∧
      r.Closed t.table ∧ m.outline? = some (r.outline t.table) := by
  refine .bind (clear_declareFns m.items) ?_
  rintro fns s1 ⟨hitems, -, hdecl⟩
  have hvalid : ∀ x ∈ fns, StmtsValid x.2.body := by
    intro x hx
    have hmem : x.2 ∈ m.items.filterMap Item.fn? := hitems ▸ mem_map_of_mem hx
    obtain ⟨i, hi, hd⟩ := mem_filterMap.1 hmem
    cases i with
    | const d => cases hd
    | fn d =>
      cases hd
      exact hv _ hi
  refine .bind (clear_resolveConsts m.items hv) ?_
  rintro ⟨cs, globals⟩ s2 hc
  refine .bind (clear_resolveBodies fns hvalid) fun fs s3 hbs => .bind (clear_resolveMain m) ?_
  rintro main _ ⟨rfl, hstart⟩
  refine .of_pure ?_
  obtain ⟨hd, hkeep, hfnsd⟩ := hdecl funsDeclared_builtin
  obtain ⟨n, hbodies⟩ := hbs.declares
  -- the functions are those that were declared first
  have hsame : s3.table.funs = s1.table.funs := by rw [hbodies.funs, hc.declares.funs]
  have hfun {id : FunId} : s3.table.fun? id = s1.table.fun? id := by
    unfold fun?
    rw [hsame]
  have hlo : s2.table.numVars = s1.table.numVars + cs.length := hc.declares.numVars
  have hcvar {v : VarId} : v ∈ cs.map (·.var) ↔
      s1.table.numVars ≤ v ∧ v < s1.table.numVars + cs.length := by
    rw [hc.numbered, mem_range'_1]
  have hempty {T : SymbolTable} : Mirrors T [[]] [] [] := ⟨fun _ => rfl, fun _ => rfl⟩
  obtain ⟨hcwf, hknown⟩ := hc.wellFormed s3.table [] hsame.symm fun v hv => by
    obtain ⟨n, hn⟩ := hv
    cases hn
  rw [append_nil] at hknown
  have hdeclared : AllDeclared s2.table fns := hfnsd.declared.mono hc.declares
  have hwf : FunsWellFormed s3.table :=
    ⟨fun h => hfun ▸ hd.funs.builtin h, fun h hn => hd.funs.declared (hfun ▸ h) hn,
      fun h => hbodies.var? (hc.declares.var? (hd.funs.param h))⟩
  obtain ⟨start, sym, rfl, hsym, hprints, hparams, hname⟩ := hstart hwf
  have hmodule : Module.WellFormed s3.table s2.table.numVars ⟨cs, fs, some start⟩ := by
    refine ⟨hwf, fun {id f p} hf hp => ?_, fun hf => hd.param_nodup (hfun ▸ hf),
      fun hf hf' => hd.param_owner (hfun ▸ hf) (hfun ▸ hf'), fun c hc => ?_, ?_,
      fun {id f} hf c hc hp => ?_, fun v hpos hlt => ?_, hcwf, ?_, ?_, ?_,
      start, sym, rfl, hsym, hprints, hparams⟩
    · obtain ⟨hpos, hlt⟩ := hd.param_lt (hfun ▸ hf) hp
      exact ⟨hpos, hlo ▸ Nat.lt_of_lt_of_le hlt (Nat.le_add_right _ _)⟩
    · obtain ⟨hle, hlt⟩ := hcvar.1 (mem_map_of_mem hc)
      exact ⟨Nat.lt_of_lt_of_le (Nat.succ_pos _) hle, hlo ▸ hlt⟩
    · rw [hc.numbered]
      exact nodup_range'
    · -- constants are numbered after all parameters
      obtain ⟨-, hlt⟩ := hd.param_lt (hfun ▸ hf) hp
      exact absurd hlt (Nat.not_lt.2 (hcvar.1 (mem_map_of_mem hc)).1)
    · by_cases hv : v < s1.table.numVars
      · obtain ⟨id, f, hf, hm⟩ := hd.covered v hpos hv
        exact .inl ⟨id, f, hfun ▸ hf, hm⟩
      · exact .inr (mem_map.1 (hcvar.2 ⟨Nat.not_lt.1 hv, hlo ▸ hlt⟩))
    · refine hbs.wellFormed (fun v hv => ?_) hdeclared
      obtain ⟨hm, hkind⟩ := hknown v hv
      exact ⟨mem_reverse.1 hm, hkind⟩
    · rw [hbs.ids, hfnsd.ids]
      exact nodup_range'
    · -- the functions of the table are the built-in ones and those of the items
      intro id f hf hb
      have hlt : id < builtin.numFuns + fns.length := hfnsd.last ▸ fun?_lt (hfun ▸ hf)
      have hge : builtin.numFuns ≤ id := by
        by_contra hlt
        have hnone : ∀ id < 3, ∀ g ∈ builtin.fun? id, g.builtin ≠ none := by decide
        have hid : id < 3 := Nat.not_le.1 hlt
        obtain ⟨g, hg⟩ : ∃ g, builtin.fun? id = some g :=
          ⟨_, Array.getElem?_eq_getElem hid⟩
        have hgf : g = f := Option.some.inj ((hwf.builtin hg).symm.trans hf)
        exact hnone id hid g hg (hgf ▸ hb)
      have hmem : id ∈ fs.map (·.id) := by
        rw [hbs.ids, hfnsd.ids, mem_range'_1]
        exact ⟨hge, hlt⟩
      exact mem_map.1 hmem
  obtain ⟨hcout, hcbound, hmirrors⟩ := hc.named (hbodies.extends ⟨rfl, id⟩) hempty
  rw [append_nil] at hmirrors
  obtain ⟨hfout, hfbound⟩ := hbs.named ⟨rfl, id⟩ hknown hmirrors hdeclared
  obtain ⟨f, hf, rfl⟩ := hmodule.defined hsym hprints
  refine ⟨⟨_, hmodule⟩, ⟨hcbound, hfbound, hmodule.vars_nodup, hmodule.id_nodup, ?_, f, hf, sym,
    rfl, hsym, hname, hparams⟩, ?_⟩
  · rw [hsame]
    exact hd.names
  · rw [Syntax.Module.outline?, hcout, ← hitems, hfout]
    rfl

/-- The names of a parsed program are resolved to closed code with the outline of the program,
unless something is reported. -/
theorem closed_of_resolve {lexemes : List Lexeme} {maxErrors : Nat} {r : Resolution}
    (hr : resolve (Syntax.parse lexemes maxErrors).module = r)
    (hclean : r.diagnostics.any Diagnostic.isError = false) :
    r.module.Closed r.table ∧
      (Syntax.parse lexemes maxErrors).module.outline? = some (r.module.outline r.table) := by
  subst hr
  refine (clear_resolveModule (Syntax.valid_of_parse lexemes maxErrors) ?_).2
  unfold ResolveState.Clean
  rw [← any_reverse]
  exact hclean

def namesOf (text : Bytes) : Resolution := resolve (parse (Lexer.lexemes {} text) 0).module

/-- A program whose blocks, parameters and constants have names in common. -/
def shadowing : Bytes := "const x = 1;\nconst y = x + 1;\n" ++
  "fn f(x: int, v: vec2) -> real \x7b\n" ++
  "  let y = v.x;\n" ++
  "  if x > 0 \x7b let x = y; while true \x7b let y = vec2(x, 2.0).y; return (y); \x7d \x7d\n" ++
  "  return y;\n\x7d\n" ++
  "fn main() \x7b let z = x + y; printi(z); \x7d\n"

theorem closed_shadowing : (namesOf shadowing).diagnostics.any Diagnostic.isError = false ∧
    (namesOf shadowing).module.Closed (namesOf shadowing).table ∧
    (Syntax.parse (Lexer.lexemes {} shadowing) 0).module.outline? =
      some ((namesOf shadowing).module.outline (namesOf shadowing).table) := by
  have hclean : (namesOf shadowing).diagnostics.any Diagnostic.isError = false := by
    decide +kernel
  exact ⟨hclean, closed_of_resolve rfl hclean⟩

end VecLang.Resolved
