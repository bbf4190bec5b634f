import VecLang.Typed.Tree
import VecLang.Proofs.Resolved.WellFormed

/-!
# Well-typed programs

The typing rules of the language, on programs in which every expression carries its type. A
call is the only place where the rules leave a choice: how the type of an argument has to fit
its parameter is a parameter of the rules themselves.
-/

namespace VecLang.Typed

open List Resolved

abbrev Fits := VarId → Ty → Prop

mutual

def Expr.WellTyped (table : SymbolTable) (types : VarId → Ty) (fits : Fits) : Expr → Prop
  | .lit t _ v => v.ty = t ∧ v.Canonical
  | .var t _ id => types id = t ∧ t ≠ .invalid
  | .unary t _ op x =>
    x.WellTyped table types fits ∧ x.ty ≠ .invalid ∧ op.result? x.ty = some t
  | .binary t _ op operand scaling x y =>
    x.WellTyped table types fits ∧ y.WellTyped table types fits ∧
      (x.ty ≠ .invalid ∧ y.ty ≠ .invalid) ∧ op.result? x.ty y.ty = some t ∧
      scaling = op.isScaling x.ty y.ty ∧ operand = if scaling then t else x.ty
  | .call t _ callee args =>
    ∃ f, table.fun? callee = some f ∧ t = f.result ∧ ArgsWellTyped table types fits args f.params
  | .pack t _ elems =>
    t ∈ constructors ∧ elems.length = t.lanes ∧ ElemsWellTyped table types fits elems
  | .swizzle t _ lanes x =>
    x.WellTyped table types fits ∧ x.ty.isVector ∧ maxLane lanes < x.ty.lanes ∧
      Swizzle.result? lanes.length = some t

/-- Arguments follow the typing rules and fit the parameters, of which there are as many. -/
def ArgsWellTyped (table : SymbolTable) (types : VarId → Ty) (fits : Fits) :
    List Expr → List VarId → Prop
  | [], ps => ps = []
  | _ :: _, [] => False
  | x :: xs, p :: ps =>
    x.WellTyped table types fits ∧ fits p x.ty ∧ ArgsWellTyped table types fits xs ps

/-- Components follow the typing rules and are real numbers. -/
def ElemsWellTyped (table : SymbolTable) (types : VarId → Ty) (fits : Fits) : List Expr → Prop
  | [] => True
  | x :: xs => x.WellTyped table types fits ∧ x.ty = .real ∧ ElemsWellTyped table types fits xs

end

lemma swizzle_result?_ne_invalid {n : Nat} : Swizzle.result? n ≠ some .invalid := by
  unfold Swizzle.result? Ty.vector?
  split
  · nofun
  · split <;> nofun

variable {table : SymbolTable} {types : VarId → Ty} {fits : Fits}

lemma Expr.WellTyped.exists_call
    {e : Expr} (h : e.WellTyped table types fits) (hty : e.ty = .invalid) :
    ∃ span callee args, e = .call .invalid span callee args := by
  match e with
  | .lit t _ v => exact absurd (h.1.trans hty) h.2.ty_ne
  | .var t _ id => exact absurd hty h.2
  | .unary t _ op x =>
    obtain ⟨-, hne, hres⟩ := h
    exact absurd ((UnaryOp.result?_eq hres).symm.trans hty) hne
  | .binary t _ op operand scaling x y =>
    obtain ⟨-, -, ⟨hne, -⟩, hres, -⟩ := h
    exact absurd hty (BinaryOp.result?_ne_invalid hne hres)
  | .call t span callee args =>
    cases hty
    exact ⟨span, callee, args, rfl⟩
  | .pack t _ elems =>
    cases hty
    exact absurd h.1 (by decide)
  | .swizzle t _ lanes x =>
    cases hty
    exact absurd h.2.2.2 swizzle_result?_ne_invalid

lemma argsWellTyped_iff {xs : List Expr} {ps : List VarId} : ArgsWellTyped table types fits xs ps ↔
      List.Forall₂ (fun x p => x.WellTyped table types fits ∧ fits p x.ty) xs ps := by
  induction xs generalizing ps with
  | nil => cases ps <;> simp [ArgsWellTyped]
  | cons x xs ih =>
    cases ps with
    | nil => simp [ArgsWellTyped]
    | cons p ps => rw [ArgsWellTyped, forall₂_cons, ih, and_assoc]

lemma elemsWellTyped_iff {xs : List Expr} : ElemsWellTyped table types fits xs ↔
      ∀ x ∈ xs, x.WellTyped table types fits ∧ x.ty = .real := by
  induction xs with
  | nil => simp [ElemsWellTyped]
  | cons x xs ih => rw [ElemsWellTyped, forall_mem_cons, ih, and_assoc]

def rules (table : SymbolTable) (types : VarId → Ty) (fits : Fits) (result : Ty) :
    Stmt.Rules Expr where
  bind v e := e.WellTyped table types fits ∧ e.ty = types v
  value e := e.WellTyped table types fits
  ret
    | none => result = .invalid
    | some e => e.WellTyped table types fits ∧ e.ty = result
  cond e := e.WellTyped table types fits ∧ e.ty = .bool

structure Module.WellTyped (table : SymbolTable) (fits : Fits) (m : Module) : Prop where
  /-- Every variable has a type, which is the one it is declared with if there is one. -/
  vars : ∀ {v var}, table.var? v = some var → m.varType v ≠ .invalid ∧
    (var.declared ≠ .invalid → m.varType v = var.declared)
  consts : ∀ c ∈ m.consts, c.value.ty = m.varType c.var ∧ c.value.Canonical
  funcs : ∀ f ∈ m.funcs,
    (∃ sym, table.fun? f.id = some sym ∧ f.params = sym.params ∧ f.result = sym.result) ∧
      Stmt.AllObey (rules table m.varType fits f.result) f.body

def Module.Same (m : Module) : Fits := fun p t => t = m.varType p

def Declared (table : SymbolTable) : Fits := fun p t =>
  ∀ var, table.var? p = some var → t ≠ .invalid ∧ (var.declared ≠ .invalid → t = var.declared)

/-! ## Erasure -/

mutual

def Expr.erase : Expr → Resolved.Expr
  | .lit _ span v => .lit span v
  | .var _ span id => .var span id
  | .unary _ span op x => .unary span op x.erase
  | .binary _ span op _ _ x y => .binary span op x.erase y.erase
  | .call _ span callee args => .call span callee (eraseAll args)
  | .pack t span elems => .pack span t (eraseAll elems)
  | .swizzle _ span lanes x => .swizzle span lanes x.erase

def eraseAll : List Expr → List Resolved.Expr
  | [] => []
  | e :: es => e.erase :: eraseAll es

end

lemma length_eraseAll (es : List Expr) : (eraseAll es).length = es.length := by
  induction es with
  | nil => rfl
  | cons e es ih => simp [eraseAll, ih]

lemma allWellFormed_eraseAll {V : VarId → Prop} {es : List Expr} :
    AllWellFormed table V (eraseAll es) ↔ ∀ e ∈ es, e.erase.WellFormed table V := by
  induction es with
  | nil => simp [eraseAll, AllWellFormed]
  | cons e es ih => rw [eraseAll, AllWellFormed, forall_mem_cons, ih]

/-! ## Calls -/

mutual

def Expr.calls : Expr → List (FunId × List Expr)
  | .lit _ _ _ => []
  | .var _ _ _ => []
  | .unary _ _ _ x => x.calls
  | .binary _ _ _ _ _ x y => x.calls ++ y.calls
  | .call _ _ callee args => (callee, args) :: callsAll args
  | .pack _ _ elems => callsAll elems
  | .swizzle _ _ _ x => x.calls

def callsAll : List Expr → List (FunId × List Expr)
  | [] => []
  | e :: es => e.calls ++ callsAll es

end

def Expr.CallsFit (table : SymbolTable) (fits : Fits) (e : Expr) : Prop :=
  ∀ call ∈ e.calls, ∀ f, table.fun? call.1 = some f →
    List.Forall₂ (fun x p => fits p x.ty) call.2 f.params

def Module.CallsFit (table : SymbolTable) (fits : Fits) (m : Module) : Prop :=
  ∀ f ∈ m.funcs, Stmt.AllObey (.all (Expr.CallsFit table fits)) f.body

instance (m : Module) (p : VarId) (t : Ty) : Decidable (m.Same p t) :=
  inferInstanceAs (Decidable (t = m.varType p))

instance (table : SymbolTable) (fits : Fits) [∀ p t, Decidable (fits p t)] (e : Expr) :
    Decidable (e.CallsFit table fits) :=
  inferInstanceAs (Decidable (∀ call ∈ e.calls, ∀ f ∈ table.fun? call.1,
    List.Forall₂ (fun x p => fits p x.ty) call.2 f.params))

instance (table : SymbolTable) (fits : Fits) [∀ p t, Decidable (fits p t)] (m : Module) :
    Decidable (m.CallsFit table fits) :=
  have (e : Expr) : Decidable ((Stmt.Rules.all (Expr.CallsFit table fits)).value e) :=
    inferInstanceAs (Decidable (e.CallsFit table fits))
  have (v : VarId) (e : Expr) : Decidable ((Stmt.Rules.all (Expr.CallsFit table fits)).bind v e) :=
    inferInstanceAs (Decidable (e.CallsFit table fits))
  have (e : Option Expr) : Decidable ((Stmt.Rules.all (Expr.CallsFit table fits)).ret e) :=
    inferInstanceAs (Decidable (∀ x ∈ e, x.CallsFit table fits))
  have (e : Expr) : Decidable ((Stmt.Rules.all (Expr.CallsFit table fits)).cond e) :=
    inferInstanceAs (Decidable (e.CallsFit table fits))
  inferInstanceAs (Decidable (∀ f ∈ m.funcs, _))

section Calls

variable {table : SymbolTable} {types : VarId → Ty} {fits fits' : Fits}

mutual

lemma Expr.WellTyped.callsFit (e : Expr) (h : e.WellTyped table types fits) :
    e.CallsFit table fits := by
  intro call hcall f hf
  match e with
  | .lit _ _ _ => cases hcall
  | .var _ _ _ => cases hcall
  | .unary _ _ _ x => exact h.1.callsFit x call hcall f hf
  | .binary _ _ _ _ _ x y =>
    rw [Expr.calls, mem_append] at hcall
    rcases hcall with hcall | hcall
    · exact h.1.callsFit x call hcall f hf
    · exact h.2.1.callsFit y call hcall f hf
  | .call _ _ callee args =>
    obtain ⟨g, hg, -, hargs⟩ := h
    obtain ⟨hfit, hin⟩ := ArgsWellTyped.callsFit args g.params hargs
    rw [Expr.calls, mem_cons] at hcall
    rcases hcall with rfl | hcall
    · obtain rfl : g = f := Option.some.inj (hg.symm.trans hf)
      exact hfit
    · exact hin call hcall f hf
  | .pack _ _ elems => exact ElemsWellTyped.callsFit elems h.2.2 call hcall f hf
  | .swizzle _ _ _ x => exact h.1.callsFit x call hcall f hf

lemma ArgsWellTyped.callsFit (xs : List Expr) (ps : List VarId)
    (h : ArgsWellTyped table types fits xs ps) :
    List.Forall₂ (fun x p => fits p x.ty) xs ps ∧
      ∀ call ∈ callsAll xs, ∀ f, table.fun? call.1 = some f →
        List.Forall₂ (fun x p => fits p x.ty) call.2 f.params := by
  match xs, ps with
  | [], ps =>
    rw [ArgsWellTyped] at h
    subst h
    exact ⟨.nil, fun call hcall => nomatch hcall⟩
  | x :: xs, p :: ps =>
    obtain ⟨hfit, hin⟩ := ArgsWellTyped.callsFit xs ps h.2.2
    refine ⟨.cons h.2.1 hfit, fun call hcall f hf => ?_⟩
    rw [callsAll, mem_append] at hcall
    rcases hcall with hcall | hcall
    · exact h.1.callsFit x call hcall f hf
    · exact hin call hcall f hf

lemma ElemsWellTyped.callsFit (xs : List Expr) (h : ElemsWellTyped table types fits xs) :
    ∀ call ∈ callsAll xs, ∀ f, table.fun? call.1 = some f →
      List.Forall₂ (fun x p => fits p x.ty) call.2 f.params := by
  match xs with
  | [] => exact fun call hcall => nomatch hcall
  | x :: xs =>
    intro call hcall f hf
    rw [callsAll, mem_append] at hcall
    rcases hcall with hcall | hcall
    · exact h.1.callsFit x call hcall f hf
    · exact ElemsWellTyped.callsFit xs h.2.2 call hcall f hf

end

mutual

lemma Expr.WellTyped.refit (e : Expr) (h : e.WellTyped table types fits)
    (hc : ∀ call ∈ e.calls, ∀ f, table.fun? call.1 = some f →
      List.Forall₂ (fun x p => fits' p x.ty) call.2 f.params) :
    e.WellTyped table types fits' := by
  match e with
  | .lit _ _ _ => exact h
  | .var _ _ _ => exact h
  | .unary _ _ _ x => exact ⟨h.1.refit x hc, h.2⟩
  | .binary _ _ _ _ _ x y =>
    rw [Expr.calls] at hc
    exact ⟨h.1.refit x fun c hm => hc c (mem_append_left _ hm),
      h.2.1.refit y fun c hm => hc c (mem_append_right _ hm), h.2.2⟩
  | .call _ _ callee args =>
    obtain ⟨g, hg, hty, hargs⟩ := h
    rw [Expr.calls] at hc
    exact ⟨g, hg, hty, hargs.refit args g.params (hc _ mem_cons_self g hg)
      fun c hm => hc c (mem_cons_of_mem _ hm)⟩
  | .pack _ _ elems => exact ⟨h.1, h.2.1, h.2.2.refit elems hc⟩
  | .swizzle _ _ _ x => exact ⟨h.1.refit x hc, h.2⟩

lemma ArgsWellTyped.refit (xs : List Expr) (ps : List VarId)
    (h : ArgsWellTyped table types fits xs ps) (hfit : List.Forall₂ (fun x p => fits' p x.ty) xs ps)
    (hc : ∀ call ∈ callsAll xs, ∀ f, table.fun? call.1 = some f →
      List.Forall₂ (fun x p => fits' p x.ty) call.2 f.params) :
    ArgsWellTyped table types fits' xs ps := by
  match xs, ps with
  | [], ps => exact h
  | x :: xs, p :: ps =>
    obtain ⟨hp, hps⟩ := forall₂_cons.1 hfit
    rw [callsAll] at hc
    exact ⟨h.1.refit x fun c hm => hc c (mem_append_left _ hm), hp,
      h.2.2.refit xs ps hps fun c hm => hc c (mem_append_right _ hm)⟩

lemma ElemsWellTyped.refit (xs : List Expr) (h : ElemsWellTyped table types fits xs)
    (hc : ∀ call ∈ callsAll xs, ∀ f, table.fun? call.1 = some f →
      List.Forall₂ (fun x p => fits' p x.ty) call.2 f.params) :
    ElemsWellTyped table types fits' xs := by
  match xs with
  | [] => trivial
  | x :: xs =>
    rw [callsAll] at hc
    exact ⟨h.1.refit x fun c hm => hc c (mem_append_left _ hm), h.2.1,
      h.2.2.refit xs fun c hm => hc c (mem_append_right _ hm)⟩

end

lemma Expr.CallsFit.mono {e : Expr} (h : e.CallsFit table fits)
    (hp : ∀ {id f p t}, table.fun? id = some f → p ∈ f.params → fits p t → fits' p t) :
    e.CallsFit table fits' := by
  intro call hcall f hf
  have hargs := h call hcall f hf
  refine forall₂_iff_get.2 ⟨hargs.length_eq, fun i h1 h2 => ?_⟩
  exact hp hf (get_mem _ _) (hargs.get h1 h2)

variable {m : Module}

lemma Module.CallsFit.mono (h : m.CallsFit table fits)
    (hp : ∀ {id f p t}, table.fun? id = some f → p ∈ f.params → fits p t → fits' p t) :
    m.CallsFit table fits' := by
  intro f hf
  refine Stmt.AllObey.mono ⟨?_, ?_, ?_, ?_⟩ f.body (h f hf)
  · exact fun he => he.mono hp
  · exact fun he => he.mono hp
  · exact fun hret x hx => (hret x hx).mono hp
  · exact fun he => he.mono hp

lemma Module.WellTyped.callsFit (h : m.WellTyped table fits) : m.CallsFit table fits := by
  intro f hf
  refine Stmt.AllObey.mono ⟨?_, ?_, ?_, ?_⟩ f.body (h.funcs f hf).2
  · exact fun hb => hb.1.callsFit
  · exact fun hv => hv.callsFit
  · rintro _ hret x rfl
    exact hret.1.callsFit
  · exact fun hc => hc.1.callsFit

lemma Module.WellTyped.refit (h : m.WellTyped table fits)
    (hc : m.CallsFit table fits') : m.WellTyped table fits' where
  vars := h.vars
  consts := h.consts
  funcs f hf := by
    obtain ⟨hsym, hbody⟩ := h.funcs f hf
    refine ⟨hsym, Stmt.AllObey.mono ⟨?_, ?_, ?_, ?_⟩ f.body (hbody.and f.body (hc f hf))⟩
    · exact fun hb => ⟨hb.1.1.refit _ hb.2, hb.1.2⟩
    · exact fun hv => hv.1.refit _ hv.2
    · rintro (_ | e) hret
      · exact hret.1
      · exact ⟨hret.1.1.refit e (hret.2 e rfl), hret.1.2⟩
    · exact fun hb => ⟨hb.1.1.refit _ hb.2, hb.1.2⟩

end Calls

end VecLang.Typed
