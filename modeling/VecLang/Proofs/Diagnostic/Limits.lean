import Mathlib.Data.Prod.Lex
import Mathlib.Order.OrderDual
import VecLang.Proofs.Resolved.Reports
import VecLang.Proofs.Typing.Outcomes

/-!
# Diagnostics up to a limit

The phases of an analysis may report to one bag that takes no more than so many diagnostics, and
ask the bag whether to go on. All that is ever reported is an error, so a bag that takes one
diagnostic knows whether there was an error, and the limit decides about nothing but what is kept
(`limit_only_truncates`).
-/

namespace VecLang

open List Analysis Diagnostic Resolved Typing Bag

/-! ## Stable sorting -/

namespace Diagnostic

/-- By what diagnostics are sorted: file, start, end, the more serious first, and code. -/
def key (d : Diagnostic) : Nat ×ₗ Nat ×ₗ Nat ×ₗ Natᵒᵈ ×ₗ Nat :=
  toLex (d.primary.file, toLex (d.primary.start, toLex (d.primary.stop,
    toLex (OrderDual.toDual d.severity.rank, d.code.number))))

lemma le_iff_key (d e : Diagnostic) : d.le e = true ↔ d.key ≤ e.key := by
  simp only [le, key, Prod.Lex.toLex_le_toLex, OrderDual.toDual_lt_toDual]
  -- the five comparisons are made one after the other
  by_cases hfile : d.primary.file = e.primary.file
  · by_cases hstart : d.primary.start = e.primary.start
    · by_cases hstop : d.primary.stop = e.primary.stop
      · by_cases hrank : d.severity.rank = e.severity.rank
        · simp [hfile, hstart, hstop, hrank]
        · simp [hfile, hstart, hstop, hrank]
      · simp [hfile, hstart, hstop]
    · simp [hfile, hstart]
  · simp [hfile]

/-- The second list is the first one sorted, and diagnostics with the same key keep their order. -/
structure StablySorted (ds es : List Diagnostic) : Prop where
  sorted : es.Pairwise fun d e => d.key ≤ e.key
  stable : ∀ k, es.filter (fun d => d.key = k) = ds.filter fun d => d.key = k

lemma stablySorted_sort (ds : List Diagnostic) : StablySorted ds (sort ds) := by
  have htrans : ∀ a b c : Diagnostic, a.le b = true → b.le c = true → a.le c = true := by
    intro a b c hab hbc
    rw [le_iff_key] at *
    exact le_trans hab hbc
  have htotal : ∀ a b : Diagnostic, (a.le b || b.le a) = true := by
    intro a b
    rw [Bool.or_eq_true, le_iff_key, le_iff_key]
    exact le_total a.key b.key
  refine ⟨(pairwise_mergeSort htrans htotal ds).imp fun h => (le_iff_key _ _).1 h, fun k => ?_⟩
  -- those with one key are in order already, so sorting leaves them as they are
  have hpairwise : (ds.filter fun d => d.key = k).Pairwise fun d e => d.le e = true := by
    refine pairwise_of_forall_mem_list fun d hd e he => ?_
    rw [le_iff_key, of_decide_eq_true (mem_filter.1 hd).2,
      of_decide_eq_true (mem_filter.1 he).2]
  have hsub : (ds.filter fun d => d.key = k).Sublist ((sort ds).filter fun d => d.key = k) := by
    have h := (sublist_mergeSort htrans htotal hpairwise filter_sublist).filter
      fun d => decide (d.key = k)
    rwa [filter_filter, filter_congr fun d _ => Bool.and_self _] at h
  exact (hsub.eq_of_length ((mergeSort_perm ds le).filter _).length_eq.symm).symm

end Diagnostic

/-! ## Full bags -/

namespace Bag

def report (b : Bag) (ds : List Diagnostic) : Bag := ds.foldl (fun b d => (b.add d).1) b

lemma report_append (b : Bag) (ds es : List Diagnostic) :
    b.report (ds ++ es) = (b.report ds).report es := foldl_append

lemma report_eq_addAll (b : Bag) (ds : List Diagnostic) : b.report ds = b.addAll ds := by
  induction ds generalizing b with
  | nil => simp [report, addAll]
  | cons d ds ih =>
    change (b.add d).1.report ds = _
    rw [ih]
    by_cases hfull : b.limit ≤ b.items.length
    · -- no room is left for the others either
      have hroom : b.limit - b.items.length = 0 := by omega
      simp [add, hfull, addAll, hroom]
    · obtain ⟨room, hroom⟩ : ∃ room, b.limit - b.items.length = room + 1 :=
        ⟨b.limit - b.items.length - 1, by omega⟩
      have hnext : b.limit - (b.items.length + 1) = room := by omega
      simp [add, hfull, addAll, hroom, hnext]

lemma items_report_empty (n : Nat) (ds : List Diagnostic) :
    ((empty n).report ds).items = ds.take (min n maxLimit) := by
  rw [report_eq_addAll]
  simp [addAll, empty]

lemma hasErrors_report_empty {n : Nat} (hn : 1 ≤ n) {ds : List Diagnostic}
    (h : ∀ d ∈ ds, d.isError = true) :
    ((empty n).report ds).hasErrors = ds.any isError := by
  rw [hasErrors, items_report_empty]
  cases ds with
  | nil => rw [take_nil]
  | cons d ds =>
    have hd := h d mem_cons_self
    obtain ⟨room, hroom⟩ : ∃ room, min n maxLimit = room + 1 :=
      ⟨min n maxLimit - 1, by have : 1 ≤ maxLimit := by decide
                              omega⟩
    rw [hroom, take_succ_cons, any_cons, any_cons, hd, Bool.true_or, Bool.true_or]

end Bag

/-! ## Only errors are reported -/

lemma Syntax.isError_of_mem_parse {lexemes : List Lexeme} {maxErrors : Nat} {d : Diagnostic}
    (h : d ∈ (Syntax.parse lexemes maxErrors).diagnostics) : d.isError = true := by
  obtain ⟨ds, hds, herrors, -⟩ := (Parser.goes Parser.module { rest := lexemes, maxErrors }).reports
  rw [append_nil] at hds
  exact herrors d (hds ▸ mem_reverse.1 h)

/-! ## Analysis with a bag -/

/-- What is known of a source text when diagnostics are collected in a bag. -/
structure Limited where
  module : Syntax.Module
  resolved : Option (Resolved.Module × SymbolTable)
  typed : Option Typed.Module
  bag : Bag

namespace Limited

def table (r : Limited) : SymbolTable := (r.resolved.map (·.2)).getD .builtin

/-- Whether the text is a program, as far as the bag knows. -/
def ok (r : Limited) : Bool := r.typed.isSome && !r.bag.hasErrors

def finish (r : Limited) : Limited := { r with bag := r.bag.sort }

def parsing (limit file : Nat) (content : Bytes) : Limited :=
  let parsed := Syntax.parse (Lexer.lexemes { file } content) 0
  { module := parsed.module
    resolved := none
    typed := none
    bag := (empty limit).report parsed.diagnostics }

def resolving (r : Limited) : Limited :=
  let names := resolve r.module
  { r with
    resolved := some (names.module, names.table)
    bag := r.bag.report names.diagnostics }

def typing (r : Limited) (m : Resolved.Module) (table : SymbolTable) :
    Except Breakdown Limited := do
  match ← infer m table with
  | .ok m => return { r with typed := some m }
  | .error fs => return { r with bag := r.bag.report (fs.map TypeFault.toDiagnostic) }

end Limited

/-- Analyse the content of a file. All phases report to one bag, which takes `limit` diagnostics,
and an error in the bag keeps the next phase from being run. -/
def analyzeWithin (limit : Nat) (stage : Stage) (content : Bytes) (file : Nat := 0) :
    Except Breakdown Limited :=
  let r := Limited.parsing limit file content
  if stage = .parsing || r.bag.hasErrors then .ok r.finish
  else
    let r := r.resolving
    if stage = .resolving || r.bag.hasErrors then .ok r.finish
    else match r.resolved with
      | some (m, table) => (r.typing m table).map Limited.finish
      | none => .ok r.finish

/-! ## The same analysis without a limit -/

namespace Analysis

variable {file : Nat} {content : Bytes} {d : Diagnostic}

def collected (a : Analysis) (limit : Nat) : Limited where
  module := a.parsed.module
  resolved := a.resolution.map fun r => (r.module, r.table)
  typed := a.typed
  bag := (empty limit).report a.reported

lemma items_finish_collected (a : Analysis) (limit : Nat) :
    (a.collected limit).finish.bag.items = a.diagnostics limit := by
  rw [diagnostics, ← report_eq_addAll]
  rfl

lemma collected_parsing (limit file : Nat) (content : Bytes) :
    (parsing file content).collected limit = Limited.parsing limit file content := rfl

lemma collected_resolving (a : Analysis) (limit : Nat) :
    a.resolving.collected limit = (a.collected limit).resolving := by
  rw [collected, resolving, Limited.resolving, report_append]
  rfl

lemma collected_typing (a : Analysis) (r : Resolution) (limit : Nat) :
    (a.typing r).map (·.collected limit) = (a.collected limit).typing r.module r.table := by
  rw [typing, Limited.typing]
  cases infer r.module r.table with
  | error b => rfl
  | ok found =>
    cases found with
    | ok m => rfl
    | error fs =>
      have hbag := report_append (empty limit) a.reported
        (fs.map TypeFault.toDiagnostic)
      change Except.ok (Limited.mk _ _ _ ((empty limit).report (a.reported ++ _))) = _
      rw [hbag]
      rfl

lemma isError_of_mem_parsing (h : d ∈ (parsing file content).reported) : d.isError = true :=
  Syntax.isError_of_mem_parse h

lemma isError_of_mem_resolving (h : d ∈ (parsing file content).resolving.reported) :
    d.isError = true := by
  rcases mem_append.1 h with h | h
  · exact isError_of_mem_parsing h
  · exact isError_of_mem_resolve h

lemma exists_typing (h : (parsing file content).resolving.reported.any isError = false) :
    ∃ a, (parsing file content).resolving.typing
      (resolve (parsing file content).parsed.module) = .ok a := by
  rw [resolving, any_append, Bool.or_eq_false_iff] at h
  obtain ⟨lo, hwf⟩ := wellFormed_of_resolve (Syntax.valid_of_parse _ _) h.2
  obtain ⟨found, hfound, -⟩ := exists_infer hwf
  rw [typing]
  cases found with
  | ok m => exact ⟨_, Stateful.except_bind_eq_ok.2 ⟨_, hfound, rfl⟩⟩
  | error fs => exact ⟨_, Stateful.except_bind_eq_ok.2 ⟨_, hfound, rfl⟩⟩

end Analysis

lemma analyzeWithin_eq {limit : Nat} (hlimit : 1 ≤ limit) (stage : Stage) (content : Bytes)
    (file : Nat) : analyzeWithin limit stage content file =
      (analyze stage content file).map fun a => (a.collected limit).finish := by
  have hparsing : (Limited.parsing limit file content).bag.hasErrors =
      (parsing file content).reported.any isError :=
    hasErrors_report_empty hlimit fun d => isError_of_mem_parsing
  have hresolving : (Limited.parsing limit file content).resolving.bag.hasErrors =
      (parsing file content).resolving.reported.any isError := by
    rw [← collected_parsing, ← collected_resolving]
    exact hasErrors_report_empty hlimit fun d => isError_of_mem_resolving
  unfold analyzeWithin analyze
  simp only [hparsing, hresolving]
  split
  · rfl
  · split
    · rw [← collected_parsing, ← collected_resolving]
      rfl
    · set names := resolve (parsing file content).parsed.module with hnames
      change Except.map _ ((Limited.parsing limit file content).resolving.typing names.module
        names.table) = Except.map _ ((parsing file content).resolving.typing names)
      rw [← collected_parsing, ← collected_resolving,
        ← collected_typing]
      cases (parsing file content).resolving.typing names <;> rfl

lemma exists_analyze (stage : Stage) (content : Bytes) (file : Nat) :
    ∃ a, analyze stage content file = .ok a ∧ ∀ d ∈ a.reported, d.isError = true := by
  unfold analyze
  simp only
  split
  · exact ⟨_, rfl, fun d => isError_of_mem_parsing⟩
  · split
    · exact ⟨_, rfl, fun d => isError_of_mem_resolving⟩
    next hclean =>
      rw [Bool.or_eq_true, not_or] at hclean
      obtain ⟨a, ha⟩ := exists_typing (Bool.not_eq_true _ ▸ hclean.2)
      refine ⟨a, ha, fun d hd => ?_⟩
      rw [typing] at ha
      obtain ⟨found, -, ha⟩ := Stateful.except_bind_eq_ok.1 ha
      cases found with
      | ok m =>
        cases ha
        exact isError_of_mem_resolving hd
      | error fs =>
        cases ha
        rcases mem_append.1 hd with hd | hd
        · exact isError_of_mem_resolving hd
        · obtain ⟨f, -, rfl⟩ := mem_map.1 hd
          rfl

lemma ok_finish_collected {a : Analysis} (h : ∀ d ∈ a.reported, d.isError = true) {limit : Nat}
    (hlimit : 1 ≤ limit) : (a.collected limit).finish.ok = a.ok := by
  have hbag := hasErrors_report_empty hlimit h
  have hsort : ∀ b : Bag, b.sort.hasErrors = b.hasErrors := by
    intro b
    rw [hasErrors, hasErrors, Bool.eq_iff_iff, any_eq_true, any_eq_true]
    exact exists_congr fun d => and_congr_left fun _ => mem_mergeSort
  have hfinish : (a.collected limit).finish.bag.hasErrors = a.reported.any isError :=
    (hsort _).trans hbag
  rw [Limited.ok, ok, hfinish]
  rfl

/-- The limit on diagnostics decides about nothing but what is kept. With any two limits an analysis
gives the same tree, symbols, resolved and typed program, and the same verdict; and the bag holds the
first of all reports, as many as it takes, in order of file, start, end, severity and code. The
diagnostics that are shown are those in the bag. -/
theorem limit_only_truncates (stage : Stage) (content : Bytes) (file : Nat) :
    ∃ a, analyze stage content file = .ok a ∧ ∀ n m, 1 ≤ n → 1 ≤ m →
      ∃ r s, analyzeWithin n stage content file = .ok r ∧
        analyzeWithin m stage content file = .ok s ∧
        (r.module = s.module ∧ r.table = s.table ∧ r.resolved = s.resolved ∧ r.typed = s.typed ∧
          r.ok = s.ok) ∧
        (r.module = a.parsed.module ∧ r.table = a.table ∧ r.typed = a.typed ∧ r.ok = a.ok) ∧
        Diagnostic.StablySorted (a.reported.take (min n 65535)) r.bag.items ∧
        r.bag.items = a.diagnostics n := by
  obtain ⟨a, ha, herrors⟩ := exists_analyze stage content file
  refine ⟨a, ha, fun n m hn hm => ⟨(a.collected n).finish, (a.collected m).finish, ?_, ?_, ?_⟩⟩
  · rw [analyzeWithin_eq hn, ha]
    rfl
  · rw [analyzeWithin_eq hm, ha]
    rfl
  · have hn' := ok_finish_collected herrors hn
    have hm' := ok_finish_collected herrors hm
    have htable : (a.collected n).finish.table = a.table := by
      rw [Limited.table, table]
      cases hres : a.resolution <;> simp [collected, Limited.finish, hres]
    refine ⟨⟨rfl, rfl, rfl, rfl, hn'.trans hm'.symm⟩, ⟨rfl, htable, rfl, hn'⟩, ?_,
      a.items_finish_collected n⟩
    have hsorted := Diagnostic.stablySorted_sort ((empty n).report a.reported).items
    change Diagnostic.StablySorted _ (Diagnostic.sort ((empty n).report a.reported).items)
    rw [items_report_empty] at hsorted ⊢
    exact hsorted

def twoFaults : Bytes := "fn main() { let a = b; let c = d; }
"

theorem limit_only_truncates_twoFaults : ∃ a, analyze .typing twoFaults = .ok a ∧
    1 ≤ 1 ∧ 1 ≤ 7 ∧ ∃ r s, analyzeWithin 1 .typing twoFaults = .ok r ∧
      analyzeWithin 7 .typing twoFaults = .ok s ∧ r.ok = s.ok ∧
      r.bag.items = a.diagnostics 1 := by
  obtain ⟨a, ha, hall⟩ := limit_only_truncates .typing twoFaults 0
  obtain ⟨r, s, hr, hs, ⟨-, -, -, -, hok⟩, -, -, hitems⟩ := hall 1 7 (by decide) (by decide)
  exact ⟨a, ha, by decide, by decide, r, s, hr, hs, hok, hitems⟩

end VecLang
