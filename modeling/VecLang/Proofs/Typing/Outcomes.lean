import VecLang.Proofs.Analysis

/-!
# How inference ends

Inference never breaks down on a program that was resolved without errors. It ends in one of four
ways (`Outcome`): with a typed program, with one mismatch, with one constant that cannot be
evaluated, or with the list of the variables whose type is open.

## Main results

* `exists_outcome`: every run of inference ends in one of these ways, and what is reported are
  the faults found, in order.
-/

namespace VecLang.Typing

open ConstraintSets Stateful Stmt List Resolved SymbolTable

variable {table : SymbolTable} {s t : InferState}

inductive Outcome (m : Resolved.Module) (table : SymbolTable) :
    Except (List TypeFault) Typed.Module → Prop where
  /-- A typed program in which every variable has a type. -/
  | typed (tm : Typed.Module) (types : ∀ v, table.Has v → tm.varType v ≠ .invalid) :
    Outcome m table (.ok tm)
  /-- One mismatch. -/
  | mismatch (span : Span) (required got : TypeVar) :
    Outcome m table (.error [.mismatch span required got])
  /-- One constant that cannot be evaluated. -/
  | constEval (c : Const) (mem : c ∈ m.consts) :
    Outcome m table (.error [.constEval c.span (table.varName c.var)])
  /-- The variables whose type is open when everything is gathered and settled, at least one, in
  order and each of them once. -/
  | couldNotInfer (sketches : List ConstSketch × List FuncSketch) (s : InferState)
      (vs : List VarId) (fs : List TypeFault) (solved : solve m table (start table) = .ok (sketches, s))
      (ne : vs ≠ []) (sorted : vs.Pairwise (· < ·))
      (mem : ∀ v, v ∈ vs ↔ table.Has v ∧ ∃ tv, s.Open v tv)
      (tells : List.Forall₂ (Tells table s) vs fs) :
    Outcome m table (.error fs)

def faultsOf : Except (List TypeFault) Typed.Module → List TypeFault
  | .ok _ => []
  | .error fs => fs

variable {m : Resolved.Module}

lemma infer_of_ok {r : Except (List TypeFault) Typed.Module}
    (h : inferModule m table (start table) = .ok (r, t)) : infer m table = .ok r := by
  unfold infer
  rw [show (inferModule m table).run { nextTemp := table.numVars } = .ok (r, t) from h]

lemma infer_of_fault {f : TypeFault} (h : inferModule m table (start table) = .error (.fault f)) :
    infer m table = .ok (.error [f]) := by
  unfold infer
  rw [show (inferModule m table).run { nextTemp := table.numVars } = .error (.fault f) from h]

lemma exists_infer {lo : VarId} (hwf : m.WellFormed table lo) :
    ∃ r, infer m table = .ok r ∧ Outcome m table r := by
  have hm := hwf.fits
  have hsolve := ends_solve hm (.of_none m)
  unfold Ends at hsolve
  cases hrun : solve m table (start table) with
  | error e =>
    rw [hrun] at hsolve
    have hstop : inferModule m table (start table) = .error e := by
      rw [inferModule_eq]
      exact bind_error hrun
    cases e with
    | broken b => exact hsolve.elim
    | fault f =>
      cases f with
      | mismatch span required got => exact ⟨_, infer_of_fault hstop, .mismatch span required got⟩
      | couldNotInfer span name got => exact hsolve.elim
      | constEval span name => exact hsolve.elim
  | ok p =>
    obtain ⟨sketches, s⟩ := p
    rw [hrun] at hsolve
    have hsolved : Solved table _ m sketches s := hsolve
    have hstep : inferModule m table (start table) = readOut m table sketches s := by
      rw [inferModule_eq]
      exact bind_of_eq_ok hrun
    obtain ⟨vs, fs, hopen, hsorted, hmem, htells⟩ := exists_unresolved table s
    rw [readOut, bind_of_eq_ok hopen] at hstep
    by_cases hfs : fs = []
    · subst hfs
      rw [if_neg (not_not.2 rfl)] at hstep
      obtain ⟨types, htypes⟩ : ∃ types, varTypes table s = .ok (types, s) := ⟨_, rfl⟩
      have hclosed := hsolved.closed hopen ⟨[], [], m.main, types⟩ htypes
      rw [bind_of_eq_ok htypes] at hstep
      rcases buildConsts_cases sketches.1
        (fun k hk => hsolved.exists_buildConst hm hclosed hk) [] (by simp) with
        ⟨cs, hcs, -⟩ | ⟨k, hk, hfail⟩
      · obtain ⟨gs, hgs, -⟩ := hsolved.exists_buildFuncs hm hclosed
        rw [bind_of_eq_ok hcs, bind_of_eq_ok hgs] at hstep
        exact ⟨_, infer_of_ok hstep, .typed _ fun v hv => (hclosed.fixed v hv).1⟩
      · rw [bind_error hfail] at hstep
        rw [hsolved.eq_sketched] at hk
        obtain ⟨c, hc, _, rfl⟩ := exists_of_mem_sketchedConsts m.consts hk
        exact ⟨_, infer_of_fault hstep, .constEval c hc⟩
    · rw [if_pos hfs] at hstep
      refine ⟨_, infer_of_ok hstep, .couldNotInfer sketches s vs fs hrun ?_ hsorted hmem htells⟩
      rintro rfl
      cases htells
      exact hfs rfl

/-- Inference comes to an end on every text whose names are resolved without errors. It finds a
type for every variable, or one mismatch, or one constant that cannot be evaluated, or the
variables whose type is open; and the faults it finds are reported after what was reported
before, in order. -/
theorem exists_outcome {lexemes : List Lexeme} {maxErrors : Nat} {r : Resolved.Resolution}
    (hr : Resolved.resolve (Syntax.parse lexemes maxErrors).module = r)
    (hclean : r.diagnostics.any Diagnostic.isError = false) (a : Analysis) :
    ∃ found, infer r.module r.table = .ok found ∧ Outcome r.module r.table found ∧
      ∃ a', a.typing r = .ok a' ∧
        a'.reported = a.reported ++ (faultsOf found).map TypeFault.toDiagnostic ∧
        ∀ tm, found = .ok tm → a'.typed = some tm := by
  subst hr
  obtain ⟨lo, hwf⟩ := wellFormed_of_resolve (Syntax.valid_of_parse lexemes maxErrors) hclean
  obtain ⟨found, hfound, hout⟩ := exists_infer hwf
  refine ⟨found, hfound, hout, ?_⟩
  unfold Analysis.typing
  rw [hfound]
  cases found with
  | ok tm => exact ⟨_, rfl, (append_nil _).symm, fun tm' h => by cases h; rfl⟩
  | error fs => exact ⟨_, rfl, rfl, nofun⟩

def openParam : Bytes := "fn f(a) {}\nfn main() {}\n"

def openParamNames : Resolution := resolve (Syntax.parse (Lexer.lexemes {} openParam) 0).module

theorem outcome_openParam : openParamNames.diagnostics.any Diagnostic.isError = false ∧
    ∃ found, infer openParamNames.module openParamNames.table = .ok found ∧
      Outcome openParamNames.module openParamNames.table found ∧ (faultsOf found).length = 1 := by
  have hclean : openParamNames.diagnostics.any Diagnostic.isError = false := by decide +kernel
  obtain ⟨found, hfound, hout, -⟩ := exists_outcome (r := openParamNames) rfl hclean default
  have hone : (infer openParamNames.module openParamNames.table).toOption.map
      (fun r => (faultsOf r).length) = some 1 := by
    decide +kernel
  rw [hfound] at hone
  exact ⟨hclean, found, hfound, hout, Option.some.inj hone⟩

end VecLang.Typing
