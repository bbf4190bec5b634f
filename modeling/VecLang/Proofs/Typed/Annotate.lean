import VecLang.Proofs.Traversal
import VecLang.Proofs.Typed.WellTyped

/-!
# Typed programs are determined by the types of variables

The type of an expression that follows the typing rules, and everything else that typing adds to
it, can be computed from the types of variables (`annotate`).
-/

namespace VecLang.Typed

open Stmt

variable {table : SymbolTable} {types : VarId → Ty} {fits : Fits}

mutual

def annotate (table : SymbolTable) (types : VarId → Ty) : Resolved.Expr → Expr
  | .lit span v => .lit v.ty span v
  | .var span id => .var (types id) span id
  | .unary span op x =>
    let x := annotate table types x
    .unary ((op.result? x.ty).getD .invalid) span op x
  | .binary span op x y =>
    let x := annotate table types x
    let y := annotate table types y
    let t := (op.result? x.ty y.ty).getD .invalid
    let scaling := op.isScaling x.ty y.ty
    .binary t span op (if scaling then t else x.ty) scaling x y
  | .call span callee args =>
    .call (((table.fun? callee).map (·.result)).getD .invalid) span callee
      (annotateAll table types args)
  | .pack span t elems => .pack t span (annotateAll table types elems)
  | .swizzle span lanes x =>
    .swizzle ((Swizzle.result? lanes.length).getD .invalid) span lanes (annotate table types x)

def annotateAll (table : SymbolTable) (types : VarId → Ty) : List Resolved.Expr → List Expr
  | [] => []
  | e :: es => annotate table types e :: annotateAll table types es

end

mutual

lemma annotate_erase (e : Expr) (h : e.WellTyped table types fits) :
    annotate table types e.erase = e := by
  match e with
  | .lit t _ v => rw [Expr.erase, annotate, h.1]
  | .var t _ v => rw [Expr.erase, annotate, h.1]
  | .unary t _ op x =>
    rw [Expr.erase, annotate, annotate_erase x h.1, h.2.2]
    rfl
  | .binary t _ op operand scaling x y =>
    obtain ⟨hx, hy, -, hres, rfl, rfl⟩ := h
    rw [Expr.erase, annotate, annotate_erase x hx, annotate_erase y hy, hres]
    rfl
  | .call t _ callee args =>
    obtain ⟨f, hf, rfl, hargs⟩ := h
    rw [Expr.erase, annotate, hf, annotateAll_of_args args hargs]
    rfl
  | .pack t _ elems =>
    rw [Expr.erase, annotate, annotateAll_of_elems elems h.2.2]
  | .swizzle t _ lanes x =>
    rw [Expr.erase, annotate, annotate_erase x h.1, h.2.2.2]
    rfl

lemma annotateAll_of_args (es : List Expr) {ps : List VarId}
    (h : ArgsWellTyped table types fits es ps) : annotateAll table types (eraseAll es) = es := by
  match es, ps with
  | [], _ => rfl
  | e :: es, p :: ps =>
    rw [eraseAll, annotateAll, annotate_erase e h.1, annotateAll_of_args es h.2.2]

lemma annotateAll_of_elems (es : List Expr) (h : ElemsWellTyped table types fits es) :
    annotateAll table types (eraseAll es) = es := by
  match es with
  | [] => rfl
  | e :: es => rw [eraseAll, annotateAll, annotate_erase e h.1, annotateAll_of_elems es h.2.2]

end

def annotateFunc (table : SymbolTable) (types : VarId → Ty) (f : Resolved.Func) : Func where
  id := f.id
  name := f.name
  params := ((table.fun? f.id).map (·.params)).getD []
  result := ((table.fun? f.id).map (·.result)).getD .invalid
  body := mapList (annotate table types) f.body
  span := f.span

lemma mapList_annotate {result : Ty} {ts : List Stmt}
    (h : AllObey (rules table types fits result) ts) :
    mapList (annotate table types) (mapList Expr.erase ts) = ts := by
  have hall : AllObey (.all fun e => e.WellTyped table types fits) ts := by
    refine h.mono ?_ ts
    exact ⟨fun h => h.1, id, fun {e} h x hx => by cases hx; exact h.1, fun h => h.1⟩
  exact mapList_mapList_of_forall ts fun e he => annotate_erase e ((allObey_all ts).1 hall e he)

end VecLang.Typed
