import VecLang.Proofs.Resolved.Binding
import VecLang.Proofs.Resolved.Reports
import VecLang.Proofs.Syntax.Operators

/-!
# Resolving bodies

A part of a program that is resolved without a report is well formed: nothing is left out, and
every name is replaced by the number of a variable that is visible (`Clear`). Reports are never
taken back, so a program without errors was without any at every point on the way.
-/

namespace VecLang.Resolved

open List Option Syntax Value

variable {span : Span} {s t : ResolveState} {α β : Type}

/-- If nothing is reported in the end, `Q` holds of what is returned and of the state that is
left. -/
def Clear (x : Resolve α) (s : ResolveState) (Q : α → ResolveState → Prop) : Prop :=
  (x s).2.Clean → Q (x s).1 (x s).2

namespace Clear

variable {x : Resolve α} {f : α → Resolve β} {P : α → ResolveState → Prop}
  {Q : β → ResolveState → Prop} {cause : ResolveCause}

lemma of_pure {a : α} (h : P a s) : Clear (pure a) s P := fun _ => h

lemma of_get {f : ResolveState → Resolve α} (h : Clear (f s) s P) : Clear (get >>= f) s P := h

lemma bind [∀ a, Alarming (f a)] (hx : Clear x s P) (hf : ∀ a t, P a t → Clear (f a) t Q) :
    Clear (x >>= f) s Q :=
  fun h => hf _ _ (hx (Alarming.clean h)) h

lemma mono {Q : α → ResolveState → Prop} (h : Clear x s P) (hPQ : ∀ a t, P a t → Q a t) :
    Clear x s Q :=
  fun hclean => hPQ _ _ (h hclean)

lemma of_report {notes : List Note} {f : Unit → Resolve β} [∀ a, Alarming (f a)] :
    Clear (report cause span notes >>= f) s Q := by
  intro h
  have hclean := Alarming.clean (x := f ()) h
  change List.any (_ :: _) _ = false at hclean
  simp [Diagnostic.error, Diagnostic.isError, Severity.rank] at hclean

lemma of_refuse {Q : Option α → ResolveState → Prop} : Clear (refuse cause span) s Q := of_report

end Clear

lemma clear_resolveType (ty : Option Syntax.TypeName) :
    Clear (resolveType ty) s fun r t => s = t ∧ typeOf? ty = some r := by
  cases ty with
  | none => exact .of_pure ⟨rfl, rfl⟩
  | some n =>
    unfold resolveType
    dsimp only
    cases hn : Ty.ofName? n.name with
    | some u => exact .of_pure ⟨rfl, hn⟩
    | none => exact .of_report

/-! ## Expressions -/

lemma laneOf_lt (c : UInt8) : laneOf c < 4 := by
  unfold laneOf
  split <;> decide

lemma isSome_result?_of_isSwizzle {comps : Bytes} (h : Parser.isSwizzle comps = true) :
    (Swizzle.result? comps.length).isSome := by
  simp only [Parser.isSwizzle, ne_eq, decide_not, Bool.and_eq_true, Bool.not_eq_true',
    decide_eq_false_iff_not, decide_eq_true_eq] at h
  have hpos : 0 < comps.length := length_pos_iff.2 h.1.1
  have hcases : comps.length = 1 ∨ comps.length = 2 ∨ comps.length = 3 ∨ comps.length = 4 := by
    omega
  rcases hcases with hn | hn | hn | hn <;> rw [hn] <;> rfl

lemma laneLetters_laneOf {comps : Bytes} (h : Parser.isSwizzle comps = true) :
    laneLetters (comps.map laneOf) = comps := by
  simp only [Parser.isSwizzle, Bool.and_eq_true, List.all_eq_true, decide_eq_true_eq] at h
  have hletters : ((Bytes.ofString "xyzw").all fun c =>
      (Bytes.ofString "xyzw").getD (laneOf c) 0x3f == c) = true := by decide
  have hletter : ∀ c ∈ comps, (Bytes.ofString "xyzw").getD (laneOf c) 0x3f = c := by
    intro c hc
    exact eq_of_beq (List.all_eq_true.1 hletters c (mem_laneLetters.2 (h.2 c hc)))
  unfold laneLetters
  rw [List.map_map]
  exact (map_congr_left hletter).trans comps.map_id

lemma literal_normal {t : Token} {v : Value} (h : literal t = .ok v) : v.Normal := by
  unfold literal at h
  simp only at h
  split at h
  · cases h
    exact normal_bool true
  · cases h
    exact normal_bool false
  · split at h
    · split at h
      · cases h
        exact normal_int _
      · cases h
    · cases h
  · split at h
    · cases h
      exact normal_real _
    · cases h
  · split at h
    · cases h
      exact normal_complex _ _
    · cases h
  · cases h

variable {p : Place} {nameSpan : Span} {name : Bytes}

lemma clear_resolveCallee {got : Nat} :
    Clear (resolveCallee p span name nameSpan got) s fun r t => s = t ∧ ∃ id f, r = some id ∧
      s.table.fun? id = some f ∧ f.name = name ∧ got = f.params.length := by
  unfold resolveCallee
  split
  · exact .of_refuse
  refine .of_get ?_
  dsimp only
  cases hid : s.table.lookupFun? name with
  | none => exact .of_refuse
  | some id =>
    dsimp only
    split
    · exact .of_refuse
    split
    · exact .of_refuse
    case isFalse hwant =>
      obtain ⟨hlt, hname, -⟩ := Array.findIdx?_eq_some_iff_getElem.1 hid
      have hf : s.table.fun? id = some s.table.funs[id] := Array.getElem?_eq_getElem hlt
      refine .of_pure ⟨rfl, id, s.table.funs[id], rfl, hf, of_decide_eq_true hname, ?_⟩
      rw [hf, map_some, getD_some] at hwant
      exact (not_not.1 hwant).symm

lemma mapM_id_map_some {α : Type} (xs : List α) : (xs.map some).mapM id = some xs := by
  induction xs with
  | nil => rfl
  | cons x xs ih => simp [mapM_cons, ih]

def Knows (scope : Scope) (v : VarId) : Prop := ∃ name, scope.lookup? name = some v

structure ExprResolved (table : SymbolTable) (scope : Scope) (e : Syntax.Expr) (x : Expr) :
    Prop where
  wellFormed : x.WellFormed table (Knows scope)
  outline : ∀ {T : SymbolTable}, table.funs = T.funs → Spells T scope →
    e.outline? = some (x.outline T)

structure ExprsResolved (table : SymbolTable) (scope : Scope) (es : List Syntax.Expr)
    (xs : List Expr) : Prop where
  wellFormed : AllWellFormed table (Knows scope) xs
  outline : ∀ {T : SymbolTable}, table.funs = T.funs → Spells T scope →
    outlines? es = some (outlines T xs)

mutual

lemma clear_resolveExpr (p : Place) (e : Syntax.Expr) (hv : e.Valid) {s : ResolveState} :
    Clear (resolveExpr p e) s fun r t =>
      s = t ∧ ∃ x, r = some x ∧ ExprResolved s.table p.scope e x := by
  match e with
  | .group _ e =>
    exact (clear_resolveExpr p e hv).mono fun _ _ ⟨heq, x, hr, hx⟩ =>
      ⟨heq, x, hr, hx.wellFormed, fun hT hnames => by
        rw [Syntax.Expr.outline?, hx.outline hT hnames]⟩
  | .lit tok =>
    rw [resolveExpr]
    cases hl : literal tok with
    | ok v =>
      exact .of_pure ⟨rfl, _, rfl, literal_normal hl, fun _ _ => by rw [Syntax.Expr.outline?, hl]; rfl⟩
    | error cause => exact .of_refuse
  | .ident span name =>
    rw [resolveExpr]
    cases hn : p.scope.lookup? name with
    | some id =>
      refine .of_pure ⟨rfl, _, rfl, ⟨name, hn⟩, fun _ hnames => ?_⟩
      rw [Syntax.Expr.outline?, Expr.outline, hnames name id hn]
    | none =>
      refine .of_get ?_
      split <;> exact .of_refuse
  | .unary span op e =>
    rw [resolveExpr]
    refine (clear_resolveExpr p e hv.2).bind ?_
    rintro _ _ ⟨rfl, y, rfl, hy⟩
    refine .of_pure ⟨rfl, _, rfl, ⟨hv.1, hy.wellFormed⟩, fun hT hnames => ?_⟩
    rw [Syntax.Expr.outline?, hy.outline hT hnames]
    rfl
  | .binary span op e f =>
    rw [resolveExpr]
    refine (clear_resolveExpr p e hv.2.1).bind ?_
    rintro _ _ ⟨rfl, a, rfl, ha⟩
    refine (clear_resolveExpr p f hv.2.2).bind ?_
    rintro _ _ ⟨rfl, b, rfl, hb⟩
    refine .of_pure ⟨rfl, _, rfl, ⟨hv.1, ha.wellFormed, hb.wellFormed⟩, fun hT hnames => ?_⟩
    rw [Syntax.Expr.outline?, ha.outline hT hnames, hb.outline hT hnames]
    rfl
  | .swizzle span comps _ e =>
    rw [resolveExpr]
    refine (clear_resolveExpr p e hv.2).bind ?_
    rintro _ _ ⟨rfl, y, rfl, hy⟩
    refine .of_pure ⟨rfl, _, rfl, ⟨?_, fun l hl => ?_, hy.wellFormed⟩, fun hT hnames => ?_⟩
    · rw [length_map]
      exact isSome_result?_of_isSwizzle hv.1
    · obtain ⟨c, -, rfl⟩ := List.mem_map.1 hl
      exact laneOf_lt c
    · rw [Syntax.Expr.outline?, hy.outline hT hnames, Expr.outline, laneLetters_laneOf hv.1]
      rfl
  | .call span name nameSpan args =>
    rw [resolveExpr]
    cases hc : constructor? name with
    | some ty =>
      refine (clear_resolveExprs p args hv).bind ?_
      rintro _ _ ⟨rfl, xs, rfl, hxs⟩
      dsimp only
      split
      · exact .of_refuse
      case isFalse hlen =>
        refine .of_pure ⟨rfl, .pack span ty xs, by rw [mapM_id_map_some, map_some],
          ⟨mem_of_find?_eq_some hc, ?_, hxs.wellFormed⟩, fun hT hnames => ?_⟩
        · rw [← not_not.1 hlen, length_map]
        · rw [Syntax.Expr.outline?, hxs.outline hT hnames, map_some, hc]
          rfl
    | none =>
      have hrest : ∀ (as : List (Option Expr)) callee, Alarming (match callee with
          | none => return none
          | some f => return (as.mapM id).map (.call span f) : Resolve (Option Expr)) := by
        intro _ callee
        cases callee <;> infer_instance
      refine (clear_resolveExprs p args hv).bind ?_
      rintro _ _ ⟨rfl, xs, rfl, hxs⟩
      refine clear_resolveCallee.bind ?_
      rintro _ _ ⟨rfl, id, g, rfl, hg, hname, hlen⟩
      refine .of_pure ⟨rfl, .call span id xs, by rw [mapM_id_map_some, map_some],
        ⟨⟨g, hg, ?_⟩, hxs.wellFormed⟩, fun {T} hT hnames => ?_⟩
      · rw [← hlen, length_map]
      · have hgT : T.fun? id = some g := by rwa [SymbolTable.fun?, ← hT]
        rw [Syntax.Expr.outline?, hxs.outline hT hnames, map_some, hc, Expr.outline,
          SymbolTable.funName, hgT, map_some, getD_some, hname]

lemma clear_resolveExprs (p : Place) (es : List Syntax.Expr) (hv : AllValid es)
    {s : ResolveState} : Clear (resolveExprs p es) s fun r t => s = t ∧
      ∃ xs : List Expr, r = xs.map some ∧ ExprsResolved s.table p.scope es xs := by
  match es with
  | [] => exact .of_pure ⟨rfl, [], rfl, trivial, fun _ _ => rfl⟩
  | e :: es =>
    have := alarming_resolveExprs p es
    rw [resolveExprs]
    refine (clear_resolveExpr p e hv.1).bind ?_
    rintro _ _ ⟨rfl, y, rfl, hy⟩
    refine (clear_resolveExprs p es hv.2).bind ?_
    rintro _ _ ⟨rfl, ys, rfl, hys⟩
    refine .of_pure ⟨rfl, y :: ys, rfl, ⟨hy.wellFormed, hys.wellFormed⟩, fun hT hnames => ?_⟩
    rw [outlines?, hy.outline hT hnames, hys.outline hT hnames]
    rfl

end

/-! ## Statements -/

def Sees (table : SymbolTable) (scope : Scope) (V C : List VarId) : Prop :=
  ∀ v, Knows scope v → v ∈ V ∨ (v ∈ C ∧ (table.var? v).map (·.kind) = some .const)

structure Declares (s t : ResolveState) (n : Nat) : Prop where
  funs : t.table.funs = s.table.funs
  vars : ∃ new : Array Var, t.table.vars = s.table.vars ++ new ∧ new.size = n

variable {T : SymbolTable} {scope : Scope} {C : List VarId}

section Declares

variable {s t u : ResolveState} {m n : Nat}

lemma Declares.refl (s : ResolveState) : Declares s s 0 := ⟨rfl, #[], by simp, rfl⟩

lemma Declares.trans (h1 : Declares s t m) (h2 : Declares t u n) : Declares s u (m + n) := by
  obtain ⟨a, ha, hm⟩ := h1.vars
  obtain ⟨b, hb, hn⟩ := h2.vars
  refine ⟨h2.funs.trans h1.funs, a ++ b, ?_, ?_⟩
  · rw [hb, ha, Array.append_assoc]
  · rw [Array.size_append, hm, hn]

lemma Declares.numVars (h : Declares s t n) : t.table.numVars = s.table.numVars + n := by
  obtain ⟨new, hvars, rfl⟩ := h.vars
  simp only [SymbolTable.numVars, hvars, Array.size_append]
  omega

def KeepsVars (table T : SymbolTable) : Prop :=
  ∀ {v var}, table.var? v = some var → T.var? v = some var

lemma keepsVars_append {table : SymbolTable} {new : Array Var}
    (hvars : T.vars = table.vars ++ new) : KeepsVars table T := by
  intro v var hv
  unfold SymbolTable.var? at hv ⊢
  split at hv
  · cases hv
  case isFalse hne =>
    rw [if_neg hne, hvars, Array.getElem?_append_left (Array.getElem?_eq_some_iff.1 hv).1]
    exact hv

lemma Declares.var? (h : Declares s t n) : KeepsVars s.table t.table := by
  obtain ⟨new, hvars, -⟩ := h.vars
  exact keepsVars_append hvars

structure Extends (table T : SymbolTable) : Prop where
  funs : table.funs = T.funs
  vars : KeepsVars table T

lemma Declares.keepsVars (h : Declares s t n) (hT : KeepsVars t.table T) :
    KeepsVars s.table T := fun hv => hT (h.var? hv)

lemma Declares.extends (h : Declares s t n) (hT : Extends t.table T) : Extends s.table T :=
  ⟨h.funs.symm.trans hT.funs, h.keepsVars hT.vars⟩

lemma Sees.mono {V : List VarId} (hs : Sees s.table scope V C)
    (h : Declares s t n) : Sees t.table scope V C := by
  intro v hv
  rcases hs v hv with hV | ⟨hC, hkind⟩
  · exact .inl hV
  · obtain ⟨var, hvar, hk⟩ := map_eq_some_iff.1 hkind
    exact .inr ⟨hC, by rw [h.var? hvar, map_some, hk]⟩

end Declares

lemma knows_declare {id v : VarId}
    (h : Knows (scope.declare name id) v) : v = id ∨ Knows scope v := by
  obtain ⟨n, hn⟩ := h
  cases hnew : scope.here? name with
  | none =>
    rw [Scope.lookup?_declare hnew] at hn
    split at hn
    · exact .inl (Option.some.inj hn).symm
    · exact .inr ⟨n, hn⟩
  | some w =>
    rw [Scope.declare_of_here? hnew] at hn
    exact .inr ⟨n, hn⟩

lemma clear_newVar {var : Var} : Clear (newVar var) s fun id t =>
    id = s.table.numVars ∧ Declares s t 1 ∧ t.table.var? id = some var := by
  refine fun _ => ⟨rfl, ⟨rfl, #[var], ?_, rfl⟩, ?_⟩
  · exact Array.push_eq_append
  · change SymbolTable.var? ⟨s.table.vars.push var, _⟩ (s.table.vars.size + 1) = some var
    simp [SymbolTable.var?]

/-- A new variable gets the next number, and its value does not see it. -/
lemma clear_resolveLet {type : Option Syntax.TypeName} {value : Syntax.Expr} (hv : value.Valid) :
    Clear (resolveLet p span name nameSpan type value) s fun r t => Declares s t 1 ∧
      r.2 = p.scope.declare name s.table.numVars ∧ p.scope.here? name = none ∧
      (∃ declared, typeOf? type = some declared ∧ t.table.var? s.table.numVars =
        some ⟨name, .local, declared, nameSpan, p.owner⟩) ∧
      ∃ x, r.1 = some (.letVar span s.table.numVars x) ∧ ExprResolved s.table p.scope value x := by
  unfold resolveLet
  cases hhere : p.scope.here? name with
  | some prev =>
    refine .bind (clear_resolveExpr p value hv) fun _ _ _ => .bind (clear_resolveType type)
      fun _ _ _ => .bind clear_newVar fun _ _ _ => .of_get .of_report
  | none =>
    refine .bind (clear_resolveExpr p value hv) ?_
    rintro _ _ ⟨rfl, y, rfl, hy⟩
    refine .bind (clear_resolveType type) ?_
    rintro declared _ ⟨rfl, htype⟩
    refine .bind clear_newVar ?_
    rintro _ t ⟨rfl, hdecl, hvar⟩
    exact .of_pure ⟨hdecl, rfl, rfl, ⟨declared, htype, hvar⟩, y, rfl, hy⟩

lemma clear_resolveAssign {value : Syntax.Expr} (hv : value.Valid) :
    Clear (resolveAssign p span name nameSpan value) s fun r t => s = t ∧ ∃ v x,
      r = some (.assign span v x) ∧ ExprResolved s.table p.scope value x ∧
      p.scope.lookup? name = some v ∧ (s.table.var? v).map (·.kind) ≠ some .const := by
  unfold resolveAssign
  cases hn : p.scope.lookup? name with
  | none => exact .bind (clear_resolveExpr p value hv) fun _ _ _ => .of_refuse
  | some id =>
    refine .bind (clear_resolveExpr p value hv) ?_
    rintro _ _ ⟨rfl, y, rfl, hy⟩
    refine .of_get ?_
    split
    · exact .of_refuse
    case isFalse hkind => exact .of_pure ⟨rfl, id, y, rfl, hy, rfl, hkind⟩

lemma clear_resolveJump {jump : Stmt} : Clear (resolveJump p span jump) s fun r t =>
    s = t ∧ r = some jump ∧ p.inLoop = true := by
  unfold resolveJump
  split
  · exact .of_pure ⟨rfl, rfl, by assumption⟩
  · exact .of_refuse

/-- The scope of a place is described rightly, in a state and in the table that comes out in the
end: the block declared `here`, and `around` and the constants `C` are visible from outside. -/
structure Describes (T : SymbolTable) (C : List VarId) (scope : Scope) (s : ResolveState)
    (here around : List VarId) : Prop where
  sees : Sees s.table scope (here ++ around) C
  mirrors : Mirrors T scope here (here ++ around ++ C)

variable {here : List VarId}

lemma Describes.push {around : List VarId} (h : Describes T C scope s here around) :
    Describes T C ([] :: scope) s [] (here ++ around) :=
  ⟨h.sees, h.mirrors.push⟩

lemma Describes.mono {around : List VarId} {n : Nat} (h : Describes T C scope s here around)
    (hd : Declares s t n) : Describes T C scope t here around :=
  ⟨h.sees.mono hd, h.mirrors⟩

/-- What a statement becomes that is resolved without a report: it declares the next variables
in order, and is well scoped wherever the scope is described rightly. -/
structure StmtResolved (p : Place) (scope : Scope) (c : Syntax.Stmt) (x : Stmt)
    (s t : ResolveState) : Prop where
  declares : Declares s t x.numLets
  inScope : ∀ {T : SymbolTable} {V C : List VarId}, s.table.funs = T.funs →
    Sees s.table p.scope V C →
      x.Scoped (Visible T C) p.inLoop V s.table.numVars ∧ Sees t.table scope (x.declares ++ V) C
  named : ∀ {T : SymbolTable} {C here around : List VarId}, Extends t.table T →
    Describes T C p.scope s here around →
      c.outline? = some (stmtOutline T x) ∧ BoundStmt T C p.inLoop here around x ∧
        Describes T C scope t (x.declares ++ here) around

structure StmtsResolved (p : Place) (cs : List Syntax.Stmt) (xs : List Stmt)
    (s t : ResolveState) : Prop where
  declares : Declares s t (Stmt.numLetsAll xs)
  inScope : ∀ {T : SymbolTable} {V C : List VarId}, s.table.funs = T.funs →
    Sees s.table p.scope V C → Stmt.AllScoped (Visible T C) p.inLoop V s.table.numVars xs
  named : ∀ {T : SymbolTable} {C here around : List VarId}, Extends t.table T →
    Describes T C p.scope s here around → stmtOutlines? cs = some (stmtOutlines T xs) ∧
        BoundStmts T C p.inLoop here around xs

lemma visible_of_sees {V : List VarId}
    {x : Expr} (hx : x.WellFormed s.table (Knows scope)) (hT : s.table.funs = T.funs)
    (hs : Sees s.table scope V C) : Visible T C V x := by
  refine hx.mono (fun id f hf => ?_) (fun v hv => ?_) x
  · unfold SymbolTable.fun? at hf ⊢
    rwa [← hT]
  · rcases hs v hv with hV | ⟨hC, -⟩
    · exact .inl hV
    · exact .inr hC

lemma ExprResolved.innermost {visible : List VarId} {e : Syntax.Expr} {x : Expr}
    (hx : ExprResolved s.table scope e x) (hT : s.table.funs = T.funs)
    (hm : Mirrors T scope here visible) : x.WellFormed T (Innermost T visible) := by
  refine hx.wellFormed.mono (fun id f hf => ?_) (fun v hv => ?_) x
  · unfold SymbolTable.fun? at hf ⊢
    rwa [← hT]
  · obtain ⟨name, hname⟩ := hv
    exact hm.innermost hname

lemma StmtResolved.of_plain {c : Syntax.Stmt} {x : Stmt}
    (hlets : x.numLets = 0) (hdecl : x.declares = [])
    (h : ∀ {T : SymbolTable} {V C : List VarId}, s.table.funs = T.funs →
      Sees s.table p.scope V C → x.Scoped (Visible T C) p.inLoop V s.table.numVars)
    (hnamed : ∀ {T : SymbolTable} {C here around : List VarId}, Extends s.table T →
      Describes T C p.scope s here around →
        c.outline? = some (stmtOutline T x) ∧ BoundStmt T C p.inLoop here around x) :
    StmtResolved p p.scope c x s s where
  declares := by
    rw [hlets]
    exact .refl s
  inScope hT hs := by
    rw [hdecl]
    exact ⟨h hT hs, hs⟩
  named hT hd := by
    rw [hdecl]
    exact ⟨(hnamed hT hd).1, (hnamed hT hd).2, hd⟩

mutual

lemma clear_resolveStmt (c : Syntax.Stmt) (hv : c.Valid) {p : Place} {s : ResolveState} :
    Clear (resolveStmt p c) s fun r t => ∃ x, r.1 = some x ∧ StmtResolved p r.2 c x s t := by
  match c with
  | .letVar span name nameSpan type value =>
    refine (clear_resolveLet hv).mono ?_
    rintro ⟨_, _⟩ t ⟨hdecl, rfl, hnew, ⟨declared, htype, hvar⟩, x, rfl, hx⟩
    have hsees {V C : List VarId} (hsees : Sees s.table p.scope V C) :
        Sees t.table (p.scope.declare name s.table.numVars) (s.table.numVars :: V) C := by
      intro v hknows
      rcases knows_declare hknows with rfl | hknows
      · exact .inl mem_cons_self
      · rcases hsees.mono hdecl v hknows with hV | hC
        · exact .inl (mem_cons_of_mem _ hV)
        · exact .inr hC
    refine ⟨_, rfl, hdecl, fun hT hd =>
      ⟨⟨visible_of_sees hx.wellFormed hT hd, rfl⟩, hsees hd⟩, fun {T} C here around hT hd => ?_⟩
    have hvarT := hT.vars hvar
    have hname : T.varName s.table.numVars = name := T.varName_of hvarT
    have hfuns := (hdecl.extends hT).funs
    rw [← hname] at hnew
    refine ⟨?_, ⟨hx.innermost hfuns hd.mirrors, hd.mirrors.ne_of_here?_eq_none hnew⟩,
      hsees hd.sees, ?_⟩
    · rw [Syntax.Stmt.outline?, htype, hx.outline hfuns hd.mirrors.spells, stmtOutline,
        T.decl_of hvarT]
      rfl
    · have hmirrors := hd.mirrors.declare hnew
      rwa [hname] at hmirrors
  | .assign span name nameSpan value =>
    rw [resolveStmt]
    refine .bind (clear_resolveAssign hv) ?_
    rintro _ _ ⟨rfl, v, x, rfl, hx, hlook, hkind⟩
    have hmem {V C : List VarId} (hsees : Sees s.table p.scope V C) : v ∈ V :=
      (hsees v ⟨name, hlook⟩).resolve_right fun hC => hkind hC.2
    refine .of_pure ⟨_, rfl, .of_plain rfl rfl
      (fun hT hd => ⟨visible_of_sees hx.wellFormed hT hd, hmem hd⟩) fun hT hd => ?_⟩
    refine ⟨?_, hx.innermost hT.funs hd.mirrors, hd.mirrors.innermost hlook, hmem hd.sees⟩
    rw [Syntax.Stmt.outline?, hx.outline hT.funs hd.mirrors.spells, stmtOutline,
      hd.mirrors.spells name v hlook]
    rfl
  | .expr span value =>
    rw [resolveStmt]
    refine .bind (clear_resolveExpr p value hv) ?_
    rintro _ _ ⟨rfl, x, rfl, hx⟩
    refine .of_pure ⟨_, rfl, .of_plain rfl rfl (fun hT hd => visible_of_sees hx.wellFormed hT hd)
      fun hT hd => ⟨?_, hx.innermost hT.funs hd.mirrors⟩⟩
    rw [Syntax.Stmt.outline?, hx.outline hT.funs hd.mirrors.spells]
    rfl
  | .ret span none =>
    exact .of_pure ⟨_, rfl, .of_plain rfl rfl (fun _ _ => trivial) fun _ _ => ⟨rfl, trivial⟩⟩
  | .ret span (some value) =>
    rw [resolveStmt]
    refine .bind (clear_resolveExpr p value (hv value rfl)) ?_
    rintro _ _ ⟨rfl, x, rfl, hx⟩
    refine .of_pure ⟨_, rfl, .of_plain rfl rfl (fun hT hd => visible_of_sees hx.wellFormed hT hd)
      fun hT hd => ⟨?_, hx.innermost hT.funs hd.mirrors⟩⟩
    rw [Syntax.Stmt.outline?, hx.outline hT.funs hd.mirrors.spells]
    rfl
  | .breakLoop span | .continueLoop span =>
    rw [resolveStmt]
    refine .bind clear_resolveJump ?_
    rintro _ _ ⟨rfl, rfl, hloop⟩
    exact .of_pure ⟨_, rfl, .of_plain rfl rfl (fun _ _ => hloop) fun _ _ => ⟨rfl, hloop⟩⟩
  | .whileDo span cond body =>
    rw [resolveStmt]
    refine .bind (clear_resolveExpr p cond hv.1) ?_
    rintro _ _ ⟨rfl, x, rfl, hx⟩
    refine .bind (clear_resolveStmts body hv.2) fun xs t hbody => .of_pure
      ⟨_, rfl, hbody.declares, fun hT hd =>
        ⟨⟨visible_of_sees hx.wellFormed hT hd, hbody.inScope hT hd⟩, hd.mono hbody.declares⟩,
        fun hT hd => ?_⟩
    have hfuns := (hbody.declares.extends hT).funs
    obtain ⟨hout, hbound⟩ := hbody.named hT hd.push
    refine ⟨?_, ⟨hx.innermost hfuns hd.mirrors, hbound⟩, hd.mono hbody.declares⟩
    rw [Syntax.Stmt.outline?, hx.outline hfuns hd.mirrors.spells, hout]
    rfl
  | .ifElse span cond thenBody elseBody =>
    rw [resolveStmt]
    refine .bind (clear_resolveExpr p cond hv.1) ?_
    rintro _ _ ⟨rfl, x, rfl, hx⟩
    refine .bind (clear_resolveStmts thenBody hv.2.1) fun xs t hthen => ?_
    cases elseBody with
    | nil =>
      refine .of_pure ⟨_, rfl, hthen.declares, fun hT hd =>
        ⟨⟨visible_of_sees hx.wellFormed hT hd, hthen.inScope hT hd⟩, hd.mono hthen.declares⟩,
        fun hT hd => ?_⟩
      have hfuns := (hthen.declares.extends hT).funs
      obtain ⟨hout, hbound⟩ := hthen.named hT hd.push
      refine ⟨?_, ⟨hx.innermost hfuns hd.mirrors, hbound⟩, hd.mono hthen.declares⟩
      rw [Syntax.Stmt.outline?, hx.outline hfuns hd.mirrors.spells, hout]
      rfl
    | cons c cs =>
      refine .bind (clear_resolveStmts (c :: cs) hv.2.2) fun ys u helse => ?_
      have hboth := hthen.declares.trans helse.declares
      refine .of_pure ⟨_, rfl, hboth, fun hT hd =>
        ⟨⟨visible_of_sees hx.wellFormed hT hd, hthen.inScope hT hd, ?_⟩, hd.mono hboth⟩,
        fun hT hd => ?_⟩
      · rw [← hthen.declares.numVars]
        exact helse.inScope (hthen.declares.funs.trans hT) (Sees.mono hd hthen.declares)
      · have hfuns := (hboth.extends hT).funs
        obtain ⟨houtThen, hboundThen⟩ := hthen.named (helse.declares.extends hT) hd.push
        obtain ⟨houtElse, hboundElse⟩ := helse.named hT (hd.mono hthen.declares).push
        refine ⟨?_, ⟨hx.innermost hfuns hd.mirrors, hboundThen, hboundElse⟩, hd.mono hboth⟩
        rw [Syntax.Stmt.outline?, hx.outline hfuns hd.mirrors.spells, houtThen, houtElse]
        rfl

lemma clear_resolveStmts (cs : List Syntax.Stmt) (hv : StmtsValid cs) {p : Place}
    {s : ResolveState} : Clear (resolveStmts p cs) s fun r t => StmtsResolved p cs r s t := by
  match cs with
  | [] => exact .of_pure ⟨.refl s, fun _ _ => trivial, fun _ _ => ⟨rfl, trivial⟩⟩
  | c :: cs =>
    rw [resolveStmts]
    refine .bind (clear_resolveStmt c hv.1) ?_
    rintro ⟨_, scope⟩ t ⟨x, rfl, hx⟩
    refine .bind (clear_resolveStmts cs hv.2) fun xs u hrest => .of_pure
      ⟨hx.declares.trans hrest.declares, fun hT hd => ?_, fun hT hd => ?_⟩
    · obtain ⟨hhead, hsees⟩ := hx.inScope hT hd
      refine ⟨hhead, ?_⟩
      rw [← hx.declares.numVars]
      exact hrest.inScope (hx.declares.funs.trans hT) hsees
    · obtain ⟨hout, hbound, hd1⟩ := hx.named (hrest.declares.extends hT) hd
      obtain ⟨houts, hbounds⟩ := hrest.named hT hd1
      refine ⟨?_, hbound, hbounds⟩
      rw [stmtOutlines?, hout, houts]
      rfl

end

end VecLang.Resolved
