import VecLang.Proofs.Traversal
import VecLang.Proofs.Typing.Expectations

/-!
# Assignments of types that agree with a program

What inference demands of statements, constants and functions is what it demands of their
expressions and of the places where these stand. As for expressions it is told by assignments:
`agreement` says what they must meet at each place. No demand can fail for want of a set, since
every variable is entered before it is used.
-/

namespace VecLang.Typing

open Resolved
open List hiding mapM span

open ConstraintSets Stateful Stmt

variable {table : SymbolTable} {s t u : InferState} {o l r : Operand} {τ : Assignment}

/-- The declaration of a variable admits the type it gets. -/
def Admits (table : SymbolTable) (τ : Assignment) (v : VarId) : Prop :=
  ∀ var, table.var? v = some var → τ v ∈ var.seed.members

def agreement (table : SymbolTable) (result : TypeVar) (strict : Prop) (τ : Assignment) :
    Rules Sketch where
  bind v x := Admits table τ v ∧ x.Agrees table strict τ ∧ τ v = x.operand.at τ
  value x := x.Agrees table strict τ
  ret
    | none => result = .none
    | some x => x.Agrees table strict τ ∧ x.operand.at τ ∈ result.members
  cond x := x.Agrees table strict τ ∧ x.operand.at τ ∈ (TypeVar.exact .bool).members

/-- The products and quotients of sketched statements, in the order they are met. -/
def stmtProducts (ts : List (Stmt Sketch)) : List Pending := (exprsAll ts).flatMap Sketch.products

/-! ## Statements -/

lemma members_seed_ne_nil (var : Var) : var.seed.members ≠ [] := by
  unfold Var.seed
  split
  · decide
  · rw [members_exact_eq (by assumption)]
    nofun

variable {v k : VarId}

lemma yields_enter (hs : Solid table s) (hv : table.Has v) :
    Yields table (do addVar v (← seedOf table v)) k s ((), k) (Entered · v) []
      (fun _ τ => Admits table τ v) True := by
  rintro rfl
  obtain ⟨var, hvar⟩ := hv
  have hseed : seedOf table v s = .ok (var.seed, s) := by
    rw [seedOf, hvar]
    rfl
  refine .of_eq_ok (bind_of_eq_ok hseed) ⟨rfl, entered_add s v var.seed, ?_⟩
  have hnonVoid := nonVoid_add (v := v) hs.nonVoid (members_seed_ne_nil var)
  simp only [Admits, hvar, Option.some.injEq, forall_eq']
  cases hof : s.sets.of? v with
  | none =>
    exact ⟨⟨hs.sane.enter hvar, hnonVoid⟩, narrows_add hs.sane.indexed, rfl, forall_mem_nil _, rfl,
      fun τ hτ => ⟨⟨hτ.proper, ((solves_add hof).1 hτ.sets).1⟩, ((solves_add hof).1 hτ.sets).2⟩,
      fun τ hτ hmem => ⟨hτ.proper, (solves_add hof).2 ⟨hτ.sets, hmem⟩⟩,
      fun _ τ hτ => ((solves_add hof).1 hτ.sets).2⟩
  | some i =>
    -- the set it has was made of the same declaration
    have hmem : ∀ τ, s.Solves τ → τ v ∈ var.seed.members := fun τ hτ =>
      hs.sane.seeded hof hvar _ (hτ.sets i v (holds_of_of? hs.sane.indexed hof)).1
    simp only [add_of_some hof]
    exact ⟨hs, .refl _, rfl, forall_mem_nil _, rfl, fun τ hτ => ⟨hτ, hmem τ hτ⟩,
      fun τ hτ _ => hτ, fun _ τ hτ => hmem τ hτ⟩

def Grounds (table : SymbolTable) (K : VarId → Prop) (b : VarId × Expr) : Prop :=
  K b.1 → Stated table b.1 ∨ Evident K b.2

section Statements

variable {K W : VarId → Prop} {e : Expr} {result : TypeVar}

lemma admits_of_entered (hs : Solid table s) (hv : Entered s v) (hτ : s.Solves τ) :
    Admits table τ v := by
  obtain ⟨i, hi⟩ := hv
  exact fun var hvar => hs.sane.seeded hi hvar _ (hτ.sets i v (holds_of_of? hs.sane.indexed hi)).1

lemma yields_sketchBind (result : TypeVar) (hs : Ready table K W s)
    (hv : Entered s v) (he : e.WellFormed table W) :
    Yields table (sketchBind table v e) k s (sketched table e k) (fun _ => True)
      (sketched table e k).1.products
      (fun strict τ => (agreement table result strict τ).bind v (sketched table e k).1)
      (CallsEvident table K e) := by
  have h : Yields table (sketchBind table v e) k s _ (fun _ => True) _ _ _ :=
    (yields_sketch e he hs).narrow (fun t hx hg => ends_unify hg.solid (hv.mono hg.grows) hx)
      fun _ _ _ _ => trivial
  refine fun hk => (h hk).mono ?_ fun hno τ hτ hb => hno τ hτ hb.2
  rintro x t - ⟨hx, -, hg⟩
  have admits {τ : Assignment} (hτ : t.Solves τ) :=
    admits_of_entered hs.solid hv (hg.sound τ hτ).1
  exact ⟨hx, trivial, { hg with
    sound := fun τ hτ => ⟨(hg.sound τ hτ).1, admits hτ, (hg.sound τ hτ).2⟩
    complete := fun τ hτ h => hg.complete τ hτ h.2
    strict := fun hset τ hτ => ⟨admits hτ, hg.strict hset τ hτ⟩ }⟩

/-- A variable is entered and bound to its value. -/
lemma yields_declare (result : TypeVar) (hs : Ready table K W s) (hv : table.Has v)
    (he : e.WellFormed table W) (hb : Grounds table K (v, e)) :
    Yields table (do (do addVar v (← seedOf table v)); sketchBind table v e) k s
      (sketched table e k) (Known K · v) (sketched table e k).1.products
      (fun strict τ => (agreement table result strict τ).bind v (sketched table e k).1)
      (CallsEvident table K e) := by
  refine ((yields_enter hs.solid hv).bind fun t hv hg =>
    (yields_sketchBind result (hs.mono hg) hv he).congr (R := (Known K · v))
      (fun u _ hg' => ⟨hv.mono hg'.grows, fun hK => ?_⟩) rfl (fun _ _ => .rfl) id).congr
    (fun _ h _ => h) rfl (fun p τ => and_iff_right_of_imp And.left) fun h => ⟨trivial, h⟩
  rcases hb hK with hstated | hev
  · exact hstated.told hg'.solid (hv.mono hg'.grows)
  · obtain ⟨m, hm⟩ := told_of_evident e he hev
      (fun v hv => (((hs.mono hg).mono hg').known v hv).2) fun τ hτ => (hg'.sound τ hτ).2.2.1
    exact ⟨m, fun τ hτ => (hg'.sound τ hτ).2.2.2.trans (hm τ hτ)⟩

lemma yields_sketchCond (result : TypeVar) (hs : Ready table K W s) (he : e.WellFormed table W) :
    Yields table (sketchCond table e) k s (sketched table e k) (fun _ => True)
      (sketched table e k).1.products
      (fun strict τ => (agreement table result strict τ).cond (sketched table e k).1)
      (CallsEvident table K e) :=
  (yields_sketch e he hs).narrow (fun _ hx hg => ends_constrain hg.solid hx (by decide))
    fun _ _ _ _ => trivial

variable {consts : List VarId}

/-- The sketch of a statement when `k` is the next variable for a result, and the one after it. -/
def sketchedStmt (table : SymbolTable) (c : Resolved.Stmt) : StateM VarId (Stmt Sketch) :=
  c.mapM (sketched table)

def sketchedStmts (table : SymbolTable) (cs : List Resolved.Stmt) :
    StateM VarId (List (Stmt Sketch)) :=
  mapListM (sketched table) cs

mutual

lemma yields_sketchStmt (c : Resolved.Stmt) {k : VarId} {s : InferState} {inLoop : Bool}
    {V : List VarId} {lo : VarId} (hres : result.members ≠ [])
    (hs : Ready table K (fun v => v ∈ V ∨ v ∈ consts) s) (hlo : 0 < lo)
    (hhi : lo + c.numLets ≤ table.numVars) (hc : Scoped (Visible table consts) inLoop V lo c)
    (hb : ∀ b ∈ c.lets, Grounds table K b) :
    Yields table (sketchStmt table result c) k s (sketchedStmt table c k)
      (fun t => ∀ b ∈ c.lets, Known K t b.1)
      ((sketchedStmt table c k).1.exprs.flatMap Sketch.products)
      (fun strict τ => (sketchedStmt table c k).1.Obeys (agreement table result strict τ))
      (∀ e ∈ c.exprs, CallsEvident table K e) := by
  have single {α : Type} {m : Infer α} {e : Expr} {x : Sketch} {r : α × VarId}
      {Q R : InferState → Prop} {a : Prop → Assignment → Prop}
      (h : Yields table m k s r Q x.products a (CallsEvident table K e)) (hQ : ∀ t, Q t → R t) :
      Yields table m k s r R ([x].flatMap Sketch.products) a (∀ y ∈ [e], CallsEvident table K y) :=
    h.congr (fun t ht _ => hQ t ht) (flatMap_singleton _ _).symm (fun _ _ => .rfl)
      fun h => h e mem_cons_self
  match c with
  | .letVar span v e =>
    obtain ⟨he, rfl⟩ := hc
    rw [sketchStmt, ← bind_assoc, ← bind_assoc]
    exact single (yields_declare result hs (SymbolTable.has_iff.2 ⟨hlo, hhi⟩) he
      (hb (v, e) mem_cons_self)).map fun _ h => forall_mem_singleton.2 h
  | .assign span v e =>
    exact single (yields_sketchBind result hs (hs.known v (.inl hc.2)).1 hc.1).map
      fun _ _ => forall_mem_nil _
  | .expr span e => exact single (yields_sketch e hc hs).map fun _ _ => forall_mem_nil _
  | .ret span none =>
    rw [sketchStmt]
    by_cases hr : result = .none
    · rw [if_pos hr]
      refine (Yields.of_pure (c := True) hs.solid (forall_mem_nil _)).congr (fun _ h _ => h) rfl
        (fun _ _ => ?_) fun _ => trivial
      exact ⟨fun _ => hr, fun _ => trivial⟩
    · rw [if_neg hr]
      exact fun _ => .of_mismatch fun τ _ h => hr h
  | .ret span (some e) =>
    exact single ((yields_sketch e hc hs).narrow (fun _ hx hg => ends_constrain hg.solid hx hres)
      fun _ _ _ _ => trivial) fun _ _ => forall_mem_nil _
  | .breakLoop span | .continueLoop span =>
    exact .of_pure hs.solid (forall_mem_nil _)
  | .ifElse span e body none | .whileDo span e body =>
    exact ((yields_sketchCond result hs hc.1).bind fun t _ hg =>
      (yields_sketchStmts body hres (hs.mono hg) hlo hhi hc.2 hb).map).congr (fun _ h _ => h) rfl
        (fun _ _ => .rfl) forall_mem_cons.1
  | .ifElse span e body (some other) =>
    rw [numLets, ← Nat.add_assoc] at hhi
    obtain ⟨hbody, hother⟩ := forall_mem_append.1 hb
    refine ((yields_sketchCond result hs hc.1).bind fun t _ hg =>
      (yields_sketchStmts body hres (hs.mono hg) hlo (Nat.le_trans (Nat.le_add_right _ _) hhi)
        hc.2.1 hbody).bind fun u hnew hg' =>
          (yields_sketchStmts other hres ((hs.mono hg).mono hg')
            (Nat.lt_of_lt_of_le hlo (Nat.le_add_right _ _)) hhi hc.2.2 hother).map.congr
            (fun w hnew' hg'' => forall_mem_append.2 ⟨fun b hb => (hnew b hb).mono hg'', hnew'⟩) rfl
            (fun _ _ => .rfl) id).congr (fun _ h _ => h) ?_ (fun _ _ => .rfl) fun h => ?_
    · exact (congrArg (_ ++ ·) flatMap_append.symm)
    · obtain ⟨hx, hrest⟩ := forall_mem_cons.1 h
      exact ⟨hx, forall_mem_append.1 hrest⟩

lemma yields_sketchStmts (cs : List Resolved.Stmt) {k : VarId} {s : InferState} {inLoop : Bool}
    {V : List VarId} {lo : VarId} (hres : result.members ≠ [])
    (hs : Ready table K (fun v => v ∈ V ∨ v ∈ consts) s) (hlo : 0 < lo)
    (hhi : lo + numLetsAll cs ≤ table.numVars)
    (hcs : AllScoped (Visible table consts) inLoop V lo cs)
    (hb : ∀ b ∈ letsAll cs, Grounds table K b) :
    Yields table (sketchStmts table result cs) k s (sketchedStmts table cs k)
      (fun t => ∀ b ∈ letsAll cs, Known K t b.1) (stmtProducts (sketchedStmts table cs k).1)
      (fun strict τ => AllObey (agreement table result strict τ) (sketchedStmts table cs k).1)
      (∀ e ∈ exprsAll cs, CallsEvident table K e) := by
  match cs with
  | [] => exact .of_pure hs.solid (forall_mem_nil _)
  | c :: cs =>
    rw [numLetsAll, ← Nat.add_assoc] at hhi
    obtain ⟨hbc, hbcs⟩ := forall_mem_append.1 hb
    refine ((yields_sketchStmt c hres hs hlo (Nat.le_trans (Nat.le_add_right _ _) hhi) hcs.1
      hbc).bind fun t hnew hg => ((yields_sketchStmts cs hres ⟨hg.solid, fun v hv => ?_,
        (hs.mono hg).params⟩ (Nat.lt_of_lt_of_le hlo (Nat.le_add_right _ _)) hhi hcs.2
          hbcs).map).congr (fun u hnew' hg' =>
            forall_mem_append.2 ⟨fun b hb => (hnew b hb).mono hg', hnew'⟩) rfl
              (fun _ _ => .rfl) id).congr
      (fun _ h _ => h) flatMap_append.symm (fun _ _ => .rfl) forall_mem_append.1
    rw [mem_append, or_assoc] at hv
    refine hv.elim (fun hv => ?_) ((hs.mono hg).known v)
    obtain ⟨e, he⟩ := exists_of_mem_declares hv
    exact hnew (v, e) he

end

end Statements

/-! ## Constants and functions -/

def sketchedConst (table : SymbolTable) (c : Const) : StateM VarId ConstSketch := do
  let x ← (sketched table c.value : StateM VarId Sketch)
  return ⟨c.var, x, c.span⟩

def sketchedFunc (table : SymbolTable) (f : Func) : StateM VarId FuncSketch :=
  return ⟨f, ← sketchedStmts table f.body⟩

def ConstSketch.Agrees (table : SymbolTable) (strict : Prop) (τ : Assignment) (k : ConstSketch) :
    Prop :=
  (agreement table .none strict τ).bind k.var k.value

def FuncSketch.Agrees (table : SymbolTable) (strict : Prop) (τ : Assignment) (k : FuncSketch) :
    Prop :=
  ∀ sym, table.fun? k.func.id = some sym → AllObey (agreement table sym.resultVar strict τ) k.body

lemma members_resultVar_ne_nil (f : Fun) : f.resultVar.members ≠ [] := by
  unfold Fun.resultVar
  split
  · decide
  · rw [members_exact_eq (by assumption)]
    nofun

variable {K : VarId → Prop}

lemma yields_sketchConst {c : Const} {seen : List VarId}
    (hs : Ready table K (· ∈ seen) s) (hc : table.Has c.var)
    (hwf : c.value.WellFormed table (· ∈ seen)) (hb : Grounds table K (c.var, c.value)) :
    Yields table (sketchConst table c) k s (sketchedConst table c k)
      (Ready table K (· ∈ c.var :: seen)) (sketchedConst table c k).1.value.products
      (fun strict τ => (sketchedConst table c k).1.Agrees table strict τ)
      (CallsEvident table K c.value) := by
  rw [sketchConst, ← bind_assoc, ← bind_assoc]
  refine (yields_declare .none hs hc hwf hb).map.congr (fun t hknown hg => ?_) rfl
    (fun _ _ => .rfl) id
  exact ⟨hg.solid, forall_mem_cons.2 ⟨hknown, (hs.mono hg).known⟩, (hs.mono hg).params⟩

variable {s : InferState}

lemma yields_sketchConsts (cs : List Const) (seen : List VarId)
    (hs : Ready table K (· ∈ seen) s) (hcs : ∀ c ∈ cs, table.Has c.var)
    (hwf : ConstsWellFormed table seen cs)
    (hb : ∀ c ∈ cs, Grounds table K (c.var, c.value)) :
    Yields table (cs.mapM (sketchConst table)) k s (cs.mapM (sketchedConst table) k)
      (Ready table K fun v => v ∈ cs.map (·.var) ∨ v ∈ seen)
      ((cs.mapM (sketchedConst table) k).1.flatMap (·.value.products))
      (fun strict τ => ∀ x ∈ (cs.mapM (sketchedConst table) k).1, x.Agrees table strict τ)
      (∀ c ∈ cs, CallsEvident table K c.value) := by
  induction cs generalizing k s seen with
  | nil =>
    refine (Yields.of_pure (c := True) hs.solid hs).congr (fun t ht _ => ?_) rfl (fun _ _ => ?_)
      fun _ => trivial
    · exact ⟨ht.solid, fun v hv => ht.known v (hv.resolve_left not_mem_nil), ht.params⟩
    · exact iff_of_true trivial (forall_mem_nil _)
  | cons c cs ih =>
    simp only [mapM_cons, run_bind, run_pure, flatMap_cons, forall_mem_cons] at hcs hb ⊢
    refine (yields_sketchConst hs hcs.1 hwf.1 hb.1).bind fun t ht _ =>
      (ih _ ht hcs.2 hwf.2 hb.2).map.congr (fun u hu _ => ?_) rfl (fun _ _ => .rfl) id
    refine ⟨hu.solid, fun v hv => hu.known v ?_, hu.params⟩
    rw [map_cons, mem_cons] at hv
    rw [mem_cons]
    tauto

/-- The parameters whose types are to be evident have declared types. -/
def ParamsGrounded (table : SymbolTable) (K : VarId → Prop) : Prop :=
  ∀ f ∈ table.funs, ∀ p ∈ f.params, K p → Stated table p

lemma yields_sketchFunc {f : Func} {consts : List VarId}
    (hs : Ready table K (· ∈ consts) s) (hf : f.Fits table consts)
    (hP : ParamsGrounded table K) (hb : ∀ b ∈ letsAll f.body, Grounds table K b) :
    Yields table (sketchFunc table f) k s (sketchedFunc table f k)
      (fun t => ∀ b ∈ letsAll f.body, Known K t b.1) (stmtProducts (sketchedFunc table f k).1.body)
      (fun strict τ => (sketchedFunc table f k).1.Agrees table strict τ)
      (∀ e ∈ exprsAll f.body, CallsEvident table K e) := by
  obtain ⟨lo, hlo, hhi, sym, hsym, -, -, hscoped⟩ := hf
  have hready : Ready table K (fun v => v ∈ sym.params ∨ v ∈ consts) s := by
    refine ⟨hs.solid, fun v hv => hv.elim (fun hv => ?_) (hs.known v), hs.params⟩
    have hentered := hs.params f.id sym hsym v hv
    exact ⟨hentered, fun hK => (hP sym (Array.mem_of_getElem? hsym) v hv hK).told hs.solid hentered⟩
  unfold sketchFunc FuncSketch.Agrees
  simp only [hsym, sketchedFunc, run_bind, run_pure, Option.some.injEq, forall_eq']
  exact (yields_sketchStmts f.body (members_resultVar_ne_nil sym) hready hlo hhi hscoped hb).map

lemma yields_sketchFuncs (fs : List Func) {consts : List VarId}
    (hs : Ready table K (· ∈ consts) s) (hfs : ∀ f ∈ fs, f.Fits table consts)
    (hP : ParamsGrounded table K) (hb : ∀ f ∈ fs, ∀ b ∈ letsAll f.body, Grounds table K b) :
    Yields table (fs.mapM (sketchFunc table)) k s (fs.mapM (sketchedFunc table) k)
      (fun t => ∀ f ∈ fs, ∀ b ∈ letsAll f.body, Known K t b.1)
      ((fs.mapM (sketchedFunc table) k).1.flatMap fun x => stmtProducts x.body)
      (fun strict τ => ∀ x ∈ (fs.mapM (sketchedFunc table) k).1, x.Agrees table strict τ)
      (∀ f ∈ fs, ∀ e ∈ exprsAll f.body, CallsEvident table K e) := by
  induction fs generalizing k s with
  | nil =>
    refine (Yields.of_pure (c := True) hs.solid (forall_mem_nil _)).congr (fun _ h _ => h) rfl
      (fun _ _ => ?_) fun _ => trivial
    exact iff_of_true trivial (forall_mem_nil _)
  | cons f fs ih =>
    simp only [mapM_cons, run_bind, run_pure, flatMap_cons, forall_mem_cons] at hfs hb ⊢
    exact (yields_sketchFunc hs hfs.1 hP hb.1).bind fun t hnew hg =>
      (ih (hs.mono hg) hfs.2 hb.2).map.congr
        (fun u hu hg' => ⟨fun b hb => (hnew b hb).mono hg', hu⟩) rfl (fun _ _ => .rfl) id

/-! ## Parameters -/

lemma yields_forM {ι : Type} {f : ι → Infer Unit} {E : ι → InferState → Prop}
    {A : ι → Assignment → Prop} (is : List ι)
    (hE : ∀ i s t, E i s → s.sets.Narrows t.sets → E i t) (hs : Solid table s)
    (h : ∀ i ∈ is, ∀ s, Solid table s →
      Yields table (f i) k s ((), k) (E i) [] (fun _ τ => A i τ) True) :
    Yields table (is.forM f) k s ((), k) (fun t => ∀ i ∈ is, E i t) []
      (fun _ τ => ∀ i ∈ is, A i τ) True := by
  induction is generalizing s with
  | nil =>
    refine (Yields.of_pure hs (forall_mem_nil _)).congr (fun _ h _ => h) rfl (fun _ _ => ?_) id
    exact iff_of_true trivial (forall_mem_nil _)
  | cons i is ih =>
    simp only [forall_mem_cons] at h ⊢
    exact ((h.1 s hs).bind fun t hi hg => (ih hg.solid h.2).congr
      (fun u hu hg' => ⟨hE i t u hi hg'.grows, hu⟩) rfl (fun _ _ => .rfl) id).congr
      (fun _ h _ => h) rfl (fun _ _ => .rfl) fun _ => ⟨trivial, trivial⟩

lemma yields_addParams (hs : Solid table s)
    (hps : ∀ f ∈ table.funs.toList, ∀ p ∈ f.params, table.Has p) :
    Yields table (addParams table) k s ((), k) (ParamsEntered table) []
      (fun _ τ => ∀ f ∈ table.funs.toList, ∀ p ∈ f.params, Admits table τ p) True := by
  refine (yields_forM (E := fun f t => ∀ p ∈ f.params, Entered t p) table.funs.toList
    (fun f s t h hn p hp => (h p hp).mono hn) hs fun f hf s hs => yields_forM f.params
      (fun p s t h hn => h.mono hn) hs fun p hp s hs => yields_enter hs (hps f hf p hp)).congr
    (fun t hall _ id f hf => ?_) rfl (fun _ _ => .rfl) id
  exact hall f (Array.mem_toList_iff.2 (Array.mem_of_getElem? hf))

end VecLang.Typing
