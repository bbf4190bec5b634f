import VecLang.Proofs.Typed.WellTyped
import VecLang.Proofs.Typing.Agreement

/-!
# Assignments of types that agree with expressions

The sketch of an expression depends on the expression and on the next variable for a result only
(`sketched`), and so do the products and quotients that wait (`Sketch.products`). What inference
demands of types is told by the assignments that agree with the sketch (`Sketch.Agrees`). An
argument agrees strictly if it has the type of its parameter. Inference demands no more than that,
and stops only if no assignment agrees strictly; it demands just that when the types of arguments
are evident or those of parameters are declared (`CallsEvident`).
-/

namespace VecLang.Typing

open ConstraintSets Stateful List Option Operand Resolved Swizzle

variable {table : SymbolTable} {s t u : InferState} {o l r : Operand} {τ : Assignment}

/-! ## Expressions -/

mutual

/-- The expression that was sketched. -/
def Sketch.erase : Sketch → Expr
  | .lit span v => .lit span v
  | .var span id => .var span id
  | .unary span op x _ => .unary span op x.erase
  | .binary span op x y _ => .binary span op x.erase y.erase
  | .call span callee args _ => .call span callee (eraseSketches args)
  | .pack span t elems => .pack span t (eraseSketches elems)
  | .swizzle span lanes x _ => .swizzle span lanes x.erase

def eraseSketches : List Sketch → List Expr
  | [] => []
  | x :: xs => x.erase :: eraseSketches xs

end

def resultOperand (op : BinaryOp) (l r : Operand) (k : VarId) : Operand × VarId :=
  if op.isLogic || op.isRel then (.known (.exact .bool), k)
  else if op = .mul ∨ op = .div then (.anchored k, k + 1)
  else (l.joined r, k)

mutual

def sketched (table : SymbolTable) : Expr → VarId → Sketch × VarId
  | .lit span v, k => (.lit span v, k)
  | .var span id, k => (.var span id, k)
  | .unary span op x, k =>
    let (x, k) := sketched table x k
    (.unary span op x x.operand, k)
  | .binary span op x y, k =>
    let (x, k) := sketched table x k
    let (y, k) := sketched table y k
    let (o, k) := resultOperand op x.operand y.operand k
    (.binary span op x y o, k)
  | .call span callee args, k =>
    let (args, k) := sketchedAll table args k
    (.call span callee args (.known (((table.fun? callee).map (·.resultVar)).getD .none)), k)
  | .pack span t elems, k =>
    let (elems, k) := sketchedAll table elems k
    (.pack span t elems, k)
  | .swizzle span lanes x, k =>
    let (x, k) := sketched table x k
    (.swizzle span lanes x (.known (.exact ((result? lanes.length).getD .invalid))), k)

def sketchedAll (table : SymbolTable) : List Expr → VarId → List Sketch × VarId
  | [], k => ([], k)
  | e :: es, k =>
    let (x, k) := sketched table e k
    let (xs, k) := sketchedAll table es k
    (x :: xs, k)

end

mutual

lemma erase_sketched (e : Expr) (k : VarId) : (sketched table e k).1.erase = e := by
  match e with
  | .lit _ _ | .var _ _ => rfl
  | .unary _ _ x | .swizzle _ _ x => simp only [sketched, Sketch.erase, erase_sketched x]
  | .binary _ _ x y => simp only [sketched, Sketch.erase, erase_sketched x, erase_sketched y]
  | .call _ _ es | .pack _ _ es => simp only [sketched, Sketch.erase, erase_sketchedAll es]

lemma erase_sketchedAll (es : List Expr) (k : VarId) :
    eraseSketches (sketchedAll table es k).1 = es := by
  match es with
  | [] => rfl
  | e :: es => simp only [sketchedAll, eraseSketches, erase_sketched e, erase_sketchedAll es]

end

def product (span : Span) (op : BinaryOp) (x y : Sketch) : Operand → List Pending
  | .anchored k =>
    if op = .mul ∨ op = .div then
      [⟨span, op, x.erase.span, y.erase.span, x.operand, y.operand, k⟩]
    else []
  | .known _ => []

mutual

/-- The products and quotients of a sketched expression, in the order they are met. -/
def Sketch.products : Sketch → List Pending
  | .lit _ _ => []
  | .var _ _ => []
  | .unary _ _ x _ => x.products
  | .binary span op x y o => x.products ++ y.products ++ product span op x y o
  | .call _ _ args _ => productsAll args
  | .pack _ _ elems => productsAll elems
  | .swizzle _ _ x _ => x.products

def productsAll : List Sketch → List Pending
  | [] => []
  | x :: xs => x.products ++ productsAll xs

end

/-- What an operator demands of the types of its operands; products and quotients demand nothing
as long as they are not settled. -/
def Demanded (op : BinaryOp) (l r : TypeVar.Member) : Prop :=
  if op.isLogic then l = some .bool ∧ r = some .bool
  else if op.isRel then l = r ∧ l ∈ (if op.isOrdering then TypeVar.scalar else .linear).members
  else if op = .mul ∨ op = .div then True
  else l = r ∧ l ∈ TypeVar.linear.members

def Stated (table : SymbolTable) (p : VarId) : Prop :=
  ∃ var, table.var? p = some var ∧ var.declared ≠ .invalid

mutual

/-- The assignment agrees with an expression. Arguments have the types of their parameters if it
does so strictly, and in any case if these are declared or the argument has no value. -/
def Sketch.Agrees (table : SymbolTable) (strict : Prop) (τ : Assignment) : Sketch → Prop
  | .lit _ _ => True
  | .var _ _ => True
  | .unary _ op x _ =>
    x.Agrees table strict τ ∧
      x.operand.at τ ∈ (if op = .not then TypeVar.exact .bool else .linear).members
  | .binary _ op x y _ =>
    x.Agrees table strict τ ∧ y.Agrees table strict τ ∧
      Demanded op (x.operand.at τ) (y.operand.at τ)
  | .call _ callee args _ =>
    ∀ f, table.fun? callee = some f → ArgsAgree table strict τ args f.params
  | .pack _ _ elems => ElemsAgree table strict τ elems
  | .swizzle _ lanes x _ =>
    x.Agrees table strict τ ∧ x.operand.at τ ∈ (operandClass (maxLane lanes)).members

def ArgsAgree (table : SymbolTable) (strict : Prop) (τ : Assignment) :
    List Sketch → List VarId → Prop
  | x :: xs, p :: ps =>
    x.Agrees table strict τ ∧
      (strict ∨ Stated table p ∨ x.operand = .known .none → x.operand.at τ = τ p) ∧
      ArgsAgree table strict τ xs ps
  | _, _ => True

def ElemsAgree (table : SymbolTable) (strict : Prop) (τ : Assignment) : List Sketch → Prop
  | [] => True
  | x :: xs =>
    x.Agrees table strict τ ∧ x.operand.at τ = some .real ∧ ElemsAgree table strict τ xs

end

/-- The type of an expression can be told where it stands, if the types of the variables `K`
can. -/
def Evident (K : VarId → Prop) : Expr → Prop
  | .lit _ _ => True
  | .var _ v => K v
  | .unary _ _ x => Evident K x
  | .binary _ op x y =>
    op.isLogic ∨ op.isRel ∨ ¬ (op = .mul ∨ op = .div) ∧ (Evident K x ∨ Evident K y)
  | .call _ _ _ => True
  | .pack _ _ _ => True
  | .swizzle _ _ _ => True

mutual

/-- The types of all arguments are evident, or their parameters have declared types. -/
def CallsEvident (table : SymbolTable) (K : VarId → Prop) : Expr → Prop
  | .lit _ _ => True
  | .var _ _ => True
  | .unary _ _ x => CallsEvident table K x
  | .binary _ _ x y => CallsEvident table K x ∧ CallsEvident table K y
  | .call _ callee args =>
    ∀ f, table.fun? callee = some f → ArgsEvident table K args f.params
  | .pack _ _ elems => AllCallsEvident table K elems
  | .swizzle _ _ x => CallsEvident table K x

/-- The same for arguments and the parameters they are passed for. -/
def ArgsEvident (table : SymbolTable) (K : VarId → Prop) : List Expr → List VarId → Prop
  | x :: xs, p :: ps =>
    CallsEvident table K x ∧ (Evident K x ∨ Stated table p) ∧ ArgsEvident table K xs ps
  | _, _ => True

def AllCallsEvident (table : SymbolTable) (K : VarId → Prop) : List Expr → Prop
  | [] => True
  | x :: xs => CallsEvident table K x ∧ AllCallsEvident table K xs

end

def Told (S : Assignment → Prop) (o : Operand) : Prop := ∃ m, ∀ τ, S τ → o.at τ = m

lemma Told.mono {S T : Assignment → Prop} (h : Told S o) (hT : ∀ τ, T τ → S τ) : Told T o :=
  h.imp fun _ hm τ hτ => hm τ (hT τ hτ)

/-- The operands and the result of an operation that waits have sets. -/
def Placed (s : InferState) (p : Pending) : Prop :=
  p.left.Sound s ∧ p.right.Sound s ∧ Entered s p.result

lemma Placed.mono {p : Pending} (h : Placed s p) (hx : s.sets.Narrows t.sets) : Placed t p :=
  ⟨h.1.mono hx, h.2.1.mono hx, h.2.2.mono hx⟩

/-- From `s` to `t` the products `ps` were met; of the assignments that were left, those that
agree are left. -/
structure Gathers (table : SymbolTable) (s t : InferState) (ps : List Pending)
    (agrees : Prop → Assignment → Prop) (settled : Prop) : Prop where
  solid : Solid table t
  grows : s.sets.Narrows t.sets
  pending : t.pending = ps.reverse ++ s.pending
  placed : ∀ p ∈ ps, Placed t p
  scaled : t.scaled = s.scaled
  sound : ∀ τ, t.Solves τ → s.Solves τ ∧ agrees False τ
  complete : ∀ τ, s.Solves τ → agrees True τ → t.Solves τ
  strict : settled → ∀ τ, t.Solves τ → agrees True τ

namespace Gathers

variable {ps qs : List Pending} {a b : Prop → Assignment → Prop} {c d : Prop}

lemma of_narrowed {demand : Assignment → Prop} (h : Narrowed table s t demand) :
    Gathers table s t [] (fun _ => demand) c where
  solid := h.solid
  grows := h.grows
  pending := by
    rw [h.same]
    rfl
  placed := forall_mem_nil _
  scaled := by rw [h.same]
  sound τ hτ := (h.solves τ).1 hτ
  complete τ hτ hd := (h.solves τ).2 ⟨hτ, hd⟩
  strict _ τ hτ := ((h.solves τ).1 hτ).2

lemma refl (hs : Solid table s) : Gathers table s s [] (fun _ _ => True) c :=
  .of_narrowed (.refl hs fun _ => trivial)

lemma trans (h1 : Gathers table s t ps a c) (h2 : Gathers table t u qs b d) :
    Gathers table s u (ps ++ qs) (fun p τ => a p τ ∧ b p τ) (c ∧ d) where
  solid := h2.solid
  grows := h1.grows.trans h2.grows
  pending := by rw [h2.pending, h1.pending, reverse_append, append_assoc]
  placed p hp := by
    rcases mem_append.1 hp with hp | hp
    · exact (h1.placed p hp).mono h2.grows
    · exact h2.placed p hp
  scaled := h2.scaled.trans h1.scaled
  sound τ hτ := by
    obtain ⟨ht, hb⟩ := h2.sound τ hτ
    obtain ⟨hs, ha⟩ := h1.sound τ ht
    exact ⟨hs, ha, hb⟩
  complete τ hτ hab := h2.complete τ (h1.complete τ hτ hab.1) hab.2
  strict hcd τ hτ := ⟨h1.strict hcd.1 τ (h2.sound τ hτ).1, h2.strict hcd.2 τ hτ⟩

lemma congr (h : Gathers table s t ps a c) (hab : ∀ p τ, a p τ ↔ b p τ) (hdc : d → c) :
    Gathers table s t ps b d :=
  ⟨h.solid, h.grows, h.pending, h.placed, h.scaled,
    fun τ hτ => ⟨(h.sound τ hτ).1, (hab _ τ).1 (h.sound τ hτ).2⟩,
    fun τ hτ hb => h.complete τ hτ ((hab _ τ).2 hb),
    fun hd τ hτ => (hab _ τ).1 (h.strict (hdc hd) τ hτ)⟩

end Gathers

/-- Where `k` is the next variable for a result, the computation returns `r.1` and leaves `r.2` as
the next one, in a state of `Q`, having gathered what is told; it stops only if no assignment
agrees strictly. -/
def Yields {α : Type} (table : SymbolTable) (x : Infer α) (k : VarId) (s : InferState)
    (r : α × VarId) (Q : InferState → Prop) (ps : List Pending)
    (agrees : Prop → Assignment → Prop) (settled : Prop) : Prop :=
  s.nextTemp = k → Ends x s
    (fun y t => (y, t.nextTemp) = r ∧ Q t ∧ Gathers table s t ps agrees settled)
    (∀ τ, s.Solves τ → ¬ agrees True τ)

namespace Yields

variable {α β γ : Type} {x : Infer α} {k : VarId} {y : α × VarId} {z : β × VarId}
  {Q R : InferState → Prop} {ps qs : List Pending} {a b : Prop → Assignment → Prop} {c d : Prop}
  {demand : Assignment → Prop}

lemma of_pure {v : α} (hs : Solid table s) (hQ : Q s) :
    Yields table (pure v) k s (v, k) Q [] (fun _ _ => True) c :=
  fun hk => .of_pure ⟨by rw [hk], hQ, .refl hs⟩

lemma of_narrowed {v : α} (h : Ends x s (fun y t => y = v ∧ Narrowed table s t demand)
      (∀ τ, s.Solves τ → ¬ demand τ)) :
    Yields table x k s (v, k) (fun _ => True) [] (fun _ => demand) c := by
  refine fun hk => h.mono ?_ id
  rintro _ t - ⟨rfl, hn⟩
  exact ⟨by rw [hn.same, ← hk], trivial, .of_narrowed hn⟩

lemma bind {f : α → Infer β} (h : Yields table x k s y Q ps a c)
    (h' : ∀ t, Q t → Gathers table s t ps a c → Yields table (f y.1) y.2 t z R qs b d) :
    Yields table (x >>= f) k s z R (ps ++ qs) (fun p τ => a p τ ∧ b p τ) (c ∧ d) := by
  refine fun hk => (h hk).bind (fun hno τ hτ hab => hno τ hτ hab.1) ?_
  rintro v t - ⟨rfl, hQ, hg⟩
  refine (h' t hQ hg rfl).mono ?_ fun hno τ hτ hab => hno τ (hg.complete τ hτ hab.1) hab.2
  rintro w u - ⟨hw, hR, hg'⟩
  exact ⟨hw, hR, hg.trans hg'⟩

lemma congr (h : Yields table x k s y Q ps a c)
    (hQ : ∀ t, Q t → Gathers table s t ps a c → R t) (hps : ps = qs) (hab : ∀ p τ, a p τ ↔ b p τ)
    (hdc : d → c) : Yields table x k s y R qs b d := by
  subst hps
  refine fun hk => (h hk).mono ?_ fun hno τ hτ hb => hno τ hτ ((hab _ τ).2 hb)
  rintro v t - ⟨hv, hQt, hg⟩
  exact ⟨hv, hQ t hQt hg, hg.congr hab hdc⟩

lemma map {f : α → β} (h : Yields table x k s y Q ps a c) :
    Yields table (x >>= fun v => pure (f v)) k s (f y.1, y.2) Q ps a c := by
  refine fun hk => (h hk).bind id ?_
  rintro v t - ⟨rfl, hQ, hg⟩
  exact .of_pure ⟨rfl, hQ, hg⟩

/-- A last step that only narrows. -/
lemma narrow {f : α → Infer γ} {g : α → γ → β} {v : γ} (h : Yields table x k s y Q ps a c)
    (h' : ∀ t, Q t → Gathers table s t ps a c → Ends (f y.1) t
      (fun w u => w = v ∧ Narrowed table t u demand) (∀ τ, t.Solves τ → ¬ demand τ))
    (hR : ∀ t u, Q t → t.sets.Narrows u.sets → R u) :
    Yields table (x >>= fun w => f w >>= fun o => pure (g w o)) k s (g y.1 v, y.2) R ps
      (fun p τ => a p τ ∧ demand τ) c := by
  refine (h.bind (R := R) (d := True) fun t hQ hg => ?_).congr (fun _ h _ => h) (append_nil ps)
    (fun _ _ => .rfl) fun hc => ⟨hc, trivial⟩
  exact (of_narrowed (h' t hQ hg)).map.congr (fun u _ hg' => hR t u hQ hg'.grows) rfl
    (fun _ _ => .rfl) id

end Yields

variable {span : Span} {k : VarId}

lemma yields_postpone {op : BinaryOp} {x y : Sketch} (hs : Solid table s)
    (hop : op = .mul ∨ op = .div) (hx : x.operand.Sound s) (hy : y.operand.Sound s) :
    Yields table (postpone span op x y x.erase.span y.erase.span) k s (.anchored k, k + 1)
      (Entered · k) (product span op x y (.anchored k)) (fun _ _ => True) True := by
  rintro rfl
  have hnone : s.sets.of? s.nextTemp = none := by
    cases h : s.sets.of? s.nextTemp with
    | none => rfl
    | some i => exact absurd (hs.sane.below h) (Nat.lt_irrefl _)
  have hrun : postpone span op x y x.erase.span y.erase.span s = .ok (.anchored s.nextTemp,
      { s with
        sets := (s.sets.add s.nextTemp .unknown).1
        nextTemp := s.nextTemp + 1
        pending := ⟨span, op, x.erase.span, y.erase.span, x.operand, y.operand, s.nextTemp⟩ ::
          s.pending }) := rfl
  have hgrows : s.sets.Narrows (s.sets.add s.nextTemp .unknown).1 := narrows_add hs.sane.indexed
  obtain ⟨i, hi⟩ := entered_add s s.nextTemp .unknown
  refine .of_eq_ok hrun ⟨rfl, ⟨i, hi⟩, ⟨hs.sane.postpone hop rfl, nonVoid_add hs.nonVoid (by decide)⟩,
    hgrows, ?_, ?_, rfl, ?_, ?_, fun _ _ _ => trivial⟩
  · rw [product, if_pos hop]
    rfl
  · rw [product, if_pos hop]
    rintro p hp
    obtain rfl := mem_singleton.1 hp
    exact ⟨hx.mono hgrows, hy.mono hgrows, i, hi⟩
  · intro τ hτ
    exact ⟨⟨hτ.proper, ((solves_add hnone).1 hτ.sets).1⟩, trivial⟩
  · intro τ hτ _
    -- every proper type is admitted
    have hall : ∀ m : TypeVar.Member, m ≠ some .invalid → m ∈ TypeVar.unknown.members := by
      decide
    exact ⟨hτ.proper, (solves_add hnone).2 ⟨hτ.sets, hall _ (hτ.proper s.nextTemp)⟩⟩

lemma members_exact_eq {ty : Ty} (h : ty ≠ .invalid) : (TypeVar.exact ty).members = [some ty] := by
  cases ty with
  | invalid => exact absurd rfl h
  | _ => rfl

lemma sound_exact {ty : Ty} (h : ty ≠ .invalid) : (Operand.known (.exact ty)).Sound s :=
  ⟨_, members_exact_eq h⟩

lemma yields_sketchBinary (span : Span) (op : BinaryOp) {x y : Sketch} {xSpan ySpan : Span}
    (hxs : x.erase.span = xSpan) (hys : y.erase.span = ySpan) (hs : Solid table s)
    (hx : x.operand.Sound s) (hy : y.operand.Sound s) :
    Yields table (sketchBinary span op x y xSpan ySpan) k s
      (resultOperand op x.operand y.operand k) (resultOperand op x.operand y.operand k).1.Sound
      (product span op x y (resultOperand op x.operand y.operand k).1)
      (fun _ τ => Demanded op (x.operand.at τ) (y.operand.at τ)) True := by
  subst hxs hys
  have mem_bool {m : TypeVar.Member} : m ∈ (TypeVar.exact .bool).members ↔ m = some .bool :=
    mem_singleton
  have hjoined {α : Type} {f : Operand → α} {v : TypeVar} (hne : v.members ≠ []) :
      Yields table (do return f (← constrain span (← unify span x.operand y.operand) v)) k s
        (f (x.operand.joined y.operand), k) (x.operand.joined y.operand).Sound []
        (fun _ τ => x.operand.at τ = y.operand.at τ ∧ x.operand.at τ ∈ v.members) True := by
    have hsound := hx.joined hy
    refine ((Yields.of_narrowed (ends_unify hs hx hy)).narrow (fun t _ hg =>
      ends_constrain hg.solid (hsound.mono hg.grows) hne) fun _ _ _ _ => trivial).congr
        (fun _ _ hg => hsound.mono hg.grows) rfl (fun _ τ => and_congr_right fun h => ?_) id
    rw [at_joined h]
  unfold sketchBinary resultOperand Demanded
  by_cases hlogic : op.isLogic = true
  · simp only [hlogic, if_true, Bool.true_or]
    refine ((Yields.of_narrowed (ends_constrain hs hx (by decide))).narrow (fun t _ hg =>
      ends_constrain hg.solid (hy.mono hg.grows) (by decide)) fun _ _ _ _ =>
        sound_exact (by decide)).congr (fun _ h _ => h) rfl (fun _ τ => ?_) id
    rw [mem_bool, mem_bool]
  by_cases hrel : op.isRel = true
  · simp only [hlogic, hrel, if_true, Bool.or_true, Bool.false_eq_true, if_false]
    refine (hjoined ?_).congr (fun _ _ _ => sound_exact (by decide)) rfl (fun _ _ => .rfl) id
    split <;> decide
  by_cases hmul : op = .mul ∨ op = .div
  · have hmul' : (decide (op = .mul) || decide (op = .div)) = true := by simpa using hmul
    simp only [hlogic, hrel, hmul, hmul', if_true, Bool.or_false, Bool.false_eq_true, if_false]
    exact yields_postpone hs hmul hx hy
  · have hmul' : (decide (op = .mul) || decide (op = .div)) = false := by simpa using hmul
    simp only [hlogic, hrel, hmul, hmul', Bool.or_false, Bool.false_eq_true, if_false]
    have h := hjoined (f := id) (v := .linear) (by decide)
    simp only [id, bind_pure] at h
    refine h.congr (fun _ h _ => h) ?_ (fun _ _ => .rfl) id
    unfold product
    split
    · rw [if_neg hmul]
    · rfl

def ParamsEntered (table : SymbolTable) (s : InferState) : Prop :=
  ∀ id f, table.fun? id = some f → ∀ p ∈ f.params, Entered s p

lemma ParamsEntered.mono (h : ParamsEntered table s) (hx : s.sets.Narrows t.sets) : ParamsEntered table t :=
  fun id f hf p hp => (h id f hf p hp).mono hx

lemma eq_declared {p : VarId} {var : Var} (hs : Solid table s) (hp : Entered s p)
    (hvar : table.var? p = some var) (hd : var.declared ≠ .invalid) (hτ : s.Solves τ) :
    τ p = some var.declared := by
  obtain ⟨i, hi⟩ := hp
  have hmem := hs.sane.seeded hi hvar _ (hτ.sets i p (holds_of_of? hs.sane.indexed hi)).1
  rw [Var.seed, if_neg hd, members_exact_eq hd] at hmem
  exact mem_singleton.1 hmem

lemma Stated.told {p : VarId} (h : Stated table p) (hs : Solid table s) (hp : Entered s p) :
    Told s.Solves (.anchored p) := by
  obtain ⟨var, hvar, hd⟩ := h
  exact ⟨_, fun τ hτ => eq_declared hs hp hvar hd hτ⟩

/-- Passing an argument demands at most that it has the type of its parameter, and no less if one
of the two types is known. -/
lemma yields_passed {p : VarId} (hs : Solid table s) (ho : o.Sound s) (hp : Entered s p) :
    Yields table (passArgument span o p) k s ((), k) (fun _ => True) []
      (fun strict τ => strict ∨ Stated table p ∨ o = .known .none → o.at τ = τ p)
      (Told s.Solves o ∨ Stated table p) := by
  refine fun hk => (ends_passArgument hs ho hp).mono ?_ fun hno τ hτ h => hno τ hτ (h (.inl trivial))
  rintro _ t - ⟨j, hj, hn⟩
  have hsame (h : Told s.Solves o ∨ Stated table p) (τ : Assignment) (hτ : t.Solves τ) :
      o.at τ = τ p := by
    obtain ⟨hs', hpj, hoj⟩ := (hn.solves τ).1 hτ
    rcases h with ⟨m, hm⟩ | hstated
    · obtain ⟨⟨σ, hσ, heq⟩, -⟩ := (hj _).1 hpj
      rw [← heq, hm σ hσ, hm τ hs']
    · obtain ⟨m, hm⟩ := hstated.told hs hp
      obtain ⟨-, σ, hσ, heq⟩ := (hj _).1 hoj
      exact (heq.symm.trans (hm σ hσ)).trans (hm τ hs').symm
  refine ⟨by rw [hn.same, ← hk], trivial, hn.solid, hn.grows, by rw [hn.same]; rfl,
    forall_mem_nil _, by rw [hn.same], fun τ hτ => ⟨((hn.solves τ).1 hτ).1, ?_⟩,
    fun τ hτ heq => ?_, fun hsettled τ hτ _ => hsame hsettled τ hτ⟩
  · rintro (h | h | rfl)
    · exact h.elim
    · exact hsame (.inr h) τ hτ
    · exact hsame (.inl ⟨none, fun _ _ => rfl⟩) τ hτ
  · have heq := heq (.inl trivial)
    have hboth := (hj _).2 ⟨⟨τ, hτ, rfl⟩, τ, hτ, heq.symm⟩
    exact (hn.solves τ).2 ⟨hτ, heq ▸ hboth, hboth⟩

section Expressions

variable {K V : VarId → Prop}

lemma told_of_evident {S : Assignment → Prop} {strict : Prop} (e : Expr) {k : VarId}
    (hwf : e.WellFormed table V) (he : Evident K e) (hV : ∀ v, V v → K v → Told S (.anchored v))
    (hS : ∀ τ, S τ → (sketched table e k).1.Agrees table strict τ) :
    Told S (sketched table e k).1.operand := by
  have known (tv : TypeVar) : Told S (.known tv) := ⟨_, fun _ _ => rfl⟩
  match e with
  | .lit _ v => exact known _
  | .var _ v => exact hV v hwf he
  | .unary _ op x => exact told_of_evident x hwf.2 he hV fun τ hτ => (hS τ hτ).1
  | .binary _ op x y =>
    simp only [sketched, Sketch.operand, Sketch.Agrees] at hS ⊢
    unfold resultOperand
    by_cases hbool : op.isLogic || op.isRel
    · rw [if_pos hbool]
      exact known _
    rw [Bool.or_eq_true, not_or] at hbool
    obtain ⟨hmul, he⟩ := (he.resolve_left hbool.1).resolve_left hbool.2
    rw [if_neg (by rw [Bool.or_eq_true, not_or]; exact hbool), if_neg hmul]
    -- the operands of a sum have one type
    have heq (τ : Assignment) (hτ : S τ) := by
      have hd := (hS τ hτ).2.2
      rw [Demanded, if_neg hbool.1, if_neg hbool.2, if_neg hmul] at hd
      exact hd.1
    rcases he with he | he
    · obtain ⟨m, hm⟩ := told_of_evident x hwf.2.1 he hV fun τ hτ => (hS τ hτ).1
      exact ⟨m, fun τ hτ => (at_joined (heq τ hτ)).trans (hm τ hτ)⟩
    · obtain ⟨m, hm⟩ := told_of_evident y hwf.2.2 he hV fun τ hτ => (hS τ hτ).2.1
      refine ⟨m, fun τ hτ => (at_joined (heq τ hτ)).trans ?_⟩
      exact (heq τ hτ).trans (hm τ hτ)
  | .call _ _ _ => exact known _
  | .pack _ _ _ => exact known _
  | .swizzle _ _ _ => exact known _

/-- A variable has a set, and its type is told if it is one of `K`. -/
def Known (K : VarId → Prop) (s : InferState) (v : VarId) : Prop :=
  Entered s v ∧ (K v → Told s.Solves (.anchored v))

lemma Known.mono {v : VarId} (h : Known K s v) {ps : List Pending} {a : Prop → Assignment → Prop}
    {c : Prop} (hg : Gathers table s t ps a c) : Known K t v :=
  ⟨h.1.mono hg.grows, fun hK => (h.2 hK).mono fun τ hτ => (hg.sound τ hτ).1⟩

/-- Everything that expressions over `V` may refer to is known. -/
structure Ready (table : SymbolTable) (K V : VarId → Prop) (s : InferState) : Prop where
  solid : Solid table s
  known : ∀ v, V v → Known K s v
  params : ParamsEntered table s

lemma Ready.mono (h : Ready table K V s) {ps : List Pending}
    {a : Prop → Assignment → Prop} {c : Prop} (hg : Gathers table s t ps a c) :
    Ready table K V t :=
  ⟨hg.solid, fun v hv => (h.known v hv).mono hg, h.params.mono hg.grows⟩

mutual

lemma yields_sketch (e : Expr) {k : VarId} {s : InferState} (hwf : e.WellFormed table V)
    (hs : Ready table K V s) :
    Yields table (sketch table e) k s (sketched table e k) (sketched table e k).1.operand.Sound
      (sketched table e k).1.products (fun strict τ => (sketched table e k).1.Agrees table strict τ)
      (CallsEvident table K e) := by
  match e with
  | .lit span v => exact .of_pure hs.solid (sound_exact hwf.ty_ne)
  | .var span id => exact .of_pure hs.solid (hs.known id hwf).1
  | .unary span op e =>
    rw [sketch, sketched]
    refine (yields_sketch e hwf.2 hs).narrow (fun t hx hg => ends_constrain hg.solid hx ?_)
      fun _ _ hx hn => hx.mono hn
    split <;> decide
  | .binary span op e f =>
    rw [sketch, sketched]
    refine ((yields_sketch e hwf.2.1 hs).bind fun t hx hg =>
      (yields_sketch f hwf.2.2 (hs.mono hg)).bind fun u hy hg' =>
        (yields_sketchBinary span op ?_ ?_ hg'.solid (hx.mono hg'.grows) hy).map).congr
      (fun _ h _ => h) (append_assoc _ _ _).symm (fun _ _ => .rfl) fun h => ⟨h.1, h.2, trivial⟩
    all_goals rw [erase_sketched]
  | .call span callee args =>
    obtain ⟨⟨f, hf, hlen⟩, hwfs⟩ := hwf
    rw [sketch, sketched]
    simp only [hf, map_some, getD_some]
    refine (yields_sketchArgs args f.params hlen hwfs hs (hs.params callee f hf)).map.congr ?_ rfl
      (fun p τ => ?_) fun h => h f hf
    · intro _ _ _
      unfold Fun.resultVar
      split
      · exact ⟨none, rfl⟩
      · exact sound_exact (by assumption)
    · rw [Sketch.Agrees, hf]
      simp only [Option.some.injEq, forall_eq']
  | .pack span ty elems =>
    obtain ⟨hcons, -, hwfs⟩ := hwf
    rw [sketch, sketched]
    refine (yields_sketchElems elems hwfs hs).map.congr (fun _ _ _ => sound_exact ?_) rfl
      (fun _ _ => .rfl) id
    rintro rfl
    exact absurd hcons (by decide)
  | .swizzle span lanes e =>
    obtain ⟨hsome, hlanes, hwfe⟩ := hwf
    obtain ⟨ty, hty⟩ := isSome_iff_exists.1 hsome
    rw [sketch, sketched]
    simp only [hty, getD_some]
    refine (yields_sketch e hwfe hs).narrow (fun t hx hg => ends_constrain hg.solid hx ?_)
      fun _ _ _ _ => sound_exact ?_
    · unfold operandClass
      split <;> decide
    · rintro rfl
      exact Typed.swizzle_result?_ne_invalid hty

lemma yields_sketchArgs (es : List Expr) (ps : List VarId) {k : VarId} {s : InferState}
    (hlen : es.length = ps.length) (hwf : AllWellFormed table V es)
    (hs : Ready table K V s) (hps : ∀ p ∈ ps, Entered s p) :
    Yields table (sketchArgs table es ps) k s (sketchedAll table es k) (fun _ => True)
      (productsAll (sketchedAll table es k).1)
      (fun strict τ => ArgsAgree table strict τ (sketchedAll table es k).1 ps)
      (ArgsEvident table K es ps) := by
  match es, ps with
  | [], [] => exact .of_pure hs.solid trivial
  | e :: es, p :: ps =>
    rw [sketchArgs, sketchedAll]
    obtain ⟨hp, hps⟩ := forall_mem_cons.1 hps
    refine (yields_sketch e hwf.1 hs).bind fun t hx hg => ?_
    refine ((yields_passed hg.solid hx (hp.mono hg.grows)).bind fun u _ hg' =>
      (yields_sketchArgs es ps (Nat.succ.inj hlen) hwf.2 ((hs.mono hg).mono hg')
        fun q hq => (hps q hq).mono (hg.grows.trans hg'.grows)).map).congr
      (fun _ h _ => h) rfl (fun _ _ => .rfl) (And.imp_left (Or.imp_left fun he => ?_))
    exact told_of_evident e hwf.1 he (fun v hv => ((hs.mono hg).known v hv).2)
      fun τ hτ => (hg.sound τ hτ).2

lemma yields_sketchElems (es : List Expr) {k : VarId} {s : InferState}
    (hwf : AllWellFormed table V es) (hs : Ready table K V s) :
    Yields table (sketchElems table es) k s (sketchedAll table es k) (fun _ => True)
      (productsAll (sketchedAll table es k).1)
      (fun strict τ => ElemsAgree table strict τ (sketchedAll table es k).1)
      (AllCallsEvident table K es) := by
  match es with
  | [] => exact .of_pure hs.solid trivial
  | e :: es =>
    rw [sketchElems, sketchedAll]
    refine (yields_sketch e hwf.1 hs).bind fun t hx hg => ?_
    refine ((Yields.of_narrowed (ends_constrain hg.solid hx (by decide))).bind fun u _ hg' =>
      (yields_sketchElems es hwf.2 ((hs.mono hg).mono hg')).map).congr
      (fun _ h _ => h) rfl (fun _ _ => and_congr_left' mem_singleton) fun h => ⟨trivial, h⟩

end

end Expressions

end VecLang.Typing
