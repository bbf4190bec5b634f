import VecLang.Analysis
import VecLang.Proofs.Resolved.Declarations
import VecLang.Proofs.Typing.Soundness

/-!
# Programs that are accepted

What is known of a text that gets through the whole analysis: it was read without errors, its
names were resolved without errors, and the types of the program follow the typing rules.

## Main results

* `accepted_of_analyze`: the typed program is the resolved program with types added;
* `wellTyped_of_analyze`: the types follow the typing rules, but for calls: arguments have the
  types that parameters are declared with, and nothing is sure of parameters without one;
* `exists_misfit_of_analyze`: a program that is accepted in which an argument is not of the type
  of its parameter.
-/

namespace VecLang

open Diagnostic Resolved Typing

/-- A typed program is a resolved program with types added, and the values of its constants are in
normal form. -/
structure Decorates (table : SymbolTable) (m : Resolved.Module) (tm : Typed.Module) : Prop where
  consts : tm.consts.map (·.var) = m.consts.map (·.var)
  normal : ∀ c ∈ tm.consts, c.value.Normal
  funcs : List.Forall₂ (Annotates table) m.funcs tm.funcs
  main : tm.main = m.main

structure Accepted (table : SymbolTable) (lo : VarId) (m : Resolved.Module) (tm : Typed.Module) :
    Prop extends Decorates table m tm where
  wellFormed : m.WellFormed table lo
  wellTyped : tm.WellTyped table (Typed.Declared table)

variable {content : Bytes} {file : Nat} {a : Analysis} {tm : Typed.Module}

lemma wellFormed_of_resolve {m : Syntax.Module} (hv : ∀ i ∈ m.items, i.Valid)
    (h : (resolve m).diagnostics.any isError = false) :
    ∃ lo, (resolve m).module.WellFormed (resolve m).table lo := by
  refine (clear_resolveModule hv ?_).1
  unfold ResolveState.Clean
  rw [← List.any_reverse]
  exact h

lemma inferModule_of_infer {m : Resolved.Module} {table : SymbolTable}
    (h : infer m table = .ok (.ok tm)) :
    ∃ t, inferModule m table { nextTemp := table.numVars } = .ok (.ok tm, t) := by
  unfold infer at h
  split at h
  case h_1 r t hr =>
    cases h
    exact ⟨t, hr⟩
  all_goals cases h

lemma exists_inferModule_of_analyze (h : analyze .typing content file = .ok a)
    (htyped : a.typed = some tm) : ∃ m : Syntax.Module, (∀ i ∈ m.items, i.Valid) ∧
      (resolve m).diagnostics.any isError = false ∧
      a.table = (resolve m).table ∧
      ∃ t, inferModule (resolve m).module (resolve m).table
        { nextTemp := (resolve m).table.numVars } = .ok (.ok tm, t) := by
  unfold analyze at h
  simp only [reduceCtorEq, decide_false, Bool.false_or] at h
  split at h
  · -- a text that is not read has no typed program
    cases h
    cases htyped
  split at h
  · cases h
    cases htyped
  case isFalse _ hresolved =>
    set parsed := Analysis.parsing file content with hparsed
    have hreports : (resolve parsed.parsed.module).diagnostics.any isError
        = false := by
      rw [Bool.not_eq_true] at hresolved
      rw [Analysis.resolving, List.any_append, Bool.or_eq_false_iff] at hresolved
      exact hresolved.2
    have hvalid : ∀ i ∈ parsed.parsed.module.items, i.Valid := Syntax.valid_of_parse _ _
    change Analysis.typing _ (resolve parsed.parsed.module) = .ok a at h
    unfold Analysis.typing at h
    cases hr : infer (resolve parsed.parsed.module).module
        (resolve parsed.parsed.module).table with
    | error b =>
      rw [hr] at h
      cases h
    | ok r =>
      rw [hr] at h
      cases r with
      | error fs =>
        cases h
        cases htyped
      | ok m =>
        cases h
        cases htyped
        exact ⟨parsed.parsed.module, hvalid, hreports, rfl, inferModule_of_infer hr⟩

lemma accepted_of_analyze (h : analyze .typing content file = .ok a)
    (htyped : a.typed = some tm) : ∃ lo m, Accepted a.table lo m tm := by
  obtain ⟨m, hvalid, hreports, htable, t, ht⟩ := exists_inferModule_of_analyze h htyped
  obtain ⟨lo, hwf⟩ := wellFormed_of_resolve hvalid hreports
  obtain ⟨hwt, hconsts, hfuncs, hmain, hnormal⟩ := inferModule_spec hwf.fits ht
  rw [htable]
  exact ⟨lo, _, ⟨hconsts, hnormal, hfuncs, hmain⟩, hwf, hwt⟩

lemma accepted_of_decorates {m : Syntax.Module} (hvalid : ∀ i ∈ m.items, i.Valid)
    (hreports : (resolve m).diagnostics.any isError = false)
    (hdec : Decorates (resolve m).table (resolve m).module tm)
    (hwt : tm.WellTyped (resolve m).table tm.Same) :
    ∃ lo, Accepted (resolve m).table lo (resolve m).module tm := by
  obtain ⟨lo, hwf⟩ := wellFormed_of_resolve hvalid hreports
  refine ⟨lo, hdec, hwf, hwt.refit (hwt.callsFit.mono ?_)⟩
  rintro id f p t - - rfl
  exact fun var hvar => hwt.vars hvar

lemma decorates_of_analyze (h : analyze .typing content file = .ok a) (htyped : a.typed = some tm)
    (hfit : tm.CallsFit a.table tm.Same) : ∃ m : Syntax.Module, (∀ i ∈ m.items, i.Valid) ∧
      (resolve m).diagnostics.any isError = false ∧
      a.table = (resolve m).table ∧
      Decorates (resolve m).table (resolve m).module tm ∧
      tm.WellTyped (resolve m).table tm.Same := by
  obtain ⟨m, hvalid, hreports, htable, t, ht⟩ := exists_inferModule_of_analyze h htyped
  obtain ⟨lo, hwf⟩ := wellFormed_of_resolve hvalid hreports
  obtain ⟨hwt, hconsts, hfuncs, hmain, hnormal⟩ := inferModule_spec hwf.fits ht
  exact ⟨m, hvalid, hreports, htable, ⟨hconsts, hnormal, hfuncs, hmain⟩, hwt.refit (htable ▸ hfit)⟩

/-! ## Typing -/

/-- The types of a program that is accepted follow the typing rules, except that of an argument
it is only sure that it has the type its parameter is declared with. So the rules hold without
exception just when all arguments have the types of their parameters, which they do when all
parameters are declared with types. -/
theorem wellTyped_of_analyze (h : analyze .typing content file = .ok a)
    (htyped : a.typed = some tm) :
    tm.WellTyped a.table (Typed.Declared a.table) ∧
      (tm.WellTyped a.table tm.Same ↔ tm.CallsFit a.table tm.Same) ∧
      ((∀ id f, a.table.fun? id = some f → ∀ p ∈ f.params, ∃ var, a.table.var? p = some var ∧
        var.declared ≠ .invalid) → tm.WellTyped a.table tm.Same) := by
  obtain ⟨lo, m, hacc⟩ := accepted_of_analyze h htyped
  have hwt := hacc.wellTyped
  refine ⟨hwt, ⟨fun hsame => hsame.callsFit, fun hfit => hwt.refit hfit⟩, fun hdecl => ?_⟩
  apply hwt.refit
  apply hwt.callsFit.mono
  -- the type that a parameter is declared with is the type it has
  intro id f p t hf hp hfits
  obtain ⟨var, hvar, hne⟩ := hdecl id f hf p hp
  exact ((hfits var hvar).2 hne).trans ((hwt.vars hvar).2 hne).symm

def acceptedWith (test : Analysis → Typed.Module → Bool) (content : Bytes) : Bool :=
  match analyze .typing content with
  | .ok a => a.typed.any (test a)
  | .error _ => false

lemma exists_of_acceptedWith {test : Analysis → Typed.Module → Bool}
    (h : acceptedWith test content = true) :
    ∃ a tm, analyze .typing content = .ok a ∧ a.typed = some tm ∧ test a tm = true := by
  unfold acceptedWith at h
  split at h
  case h_1 a ha =>
    obtain ⟨tm, htm, htest⟩ := (Option.any_eq_true _ _).1 h
    exact ⟨a, tm, ha, htm, htest⟩
  case h_2 => cases h

/-- A program with declared and undeclared parameters, a product with a number, components
and a recursion. -/
def scaledSum : Bytes :=
  "const K = 2.0;\n" ++
  "fn shrink(v: vec3, n) -> real \x7b\n" ++
  "  if n > 0 and not (n == 7) \x7b return shrink(v * K, n - 1); \x7d\n" ++
  "  let s = v.x; while s < 1.0 \x7b s = s + K; \x7d return s;\n" ++
  "\x7d\n" ++
  "fn main() -> int \x7b printr(shrink(vec3(1.0, 2.0, 3.0), 2)); return 0; \x7d\n"

theorem wellTyped_scaledSum : ∃ a tm, analyze .typing scaledSum = .ok a ∧
    a.typed = some tm ∧ tm.WellTyped a.table tm.Same := by
  have hrun : acceptedWith (fun a tm => tm.CallsFit a.table tm.Same) scaledSum = true := by
    decide +kernel
  obtain ⟨a, tm, ha, htm, hfit⟩ := exists_of_acceptedWith hrun
  exact ⟨a, tm, ha, htm, (wellTyped_of_analyze ha htm).2.1.2 (of_decide_eq_true hfit)⟩

/-- In this program the call is looked at before anything is known of either variable, and
then `a` turns out to be an integer and `b` a real number. -/
def mixedCall : Bytes :=
  "fn f(a) \x7b g(a); let y = a + 1; \x7d\n" ++
  "fn g(b) \x7b let z = b + 1.0; \x7d\n" ++
  "fn main() \x7b f(2); \x7d\n"

/-- A program is accepted although an argument is not of the type of its parameter. -/
theorem exists_misfit_of_analyze : ∃ a tm, analyze .typing mixedCall = .ok a ∧
    a.ok = true ∧ a.typed = some tm ∧ ¬ tm.WellTyped a.table tm.Same := by
  have hrun : acceptedWith (fun a tm => a.ok && !decide (tm.CallsFit a.table tm.Same)) mixedCall
      = true := by decide +kernel
  obtain ⟨a, tm, ha, htm, htest⟩ := exists_of_acceptedWith hrun
  simp only [Bool.and_eq_true, Bool.not_eq_true', decide_eq_false_iff_not] at htest
  exact ⟨a, tm, ha, htest.1, htm, fun hwt => htest.2 hwt.callsFit⟩

end VecLang
