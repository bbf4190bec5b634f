import Mathlib.Tactic.Lemma
import VecLang.Syntax.Parser

/-!
# Operators in parsed trees

The types of operators have a member that stands for no operator, and lanes could be chosen by
any name. In a valid tree an operator is one of the language, and lanes are chosen by one to four of
their letters.
-/

namespace VecLang.Syntax

mutual

/-- Every operator is one, and every choice of lanes is spelled right. -/
def Expr.Valid : Expr → Prop
  | .ident _ _ => True
  | .lit _ => True
  | .call _ _ _ args => AllValid args
  | .binary _ op x y => op ≠ .invalid ∧ x.Valid ∧ y.Valid
  | .unary _ op x => op ≠ .invalid ∧ x.Valid
  | .group _ x => x.Valid
  | .swizzle _ comps _ x => Parser.isSwizzle comps = true ∧ x.Valid

def AllValid : List Expr → Prop
  | [] => True
  | e :: es => e.Valid ∧ AllValid es

end

mutual

def Stmt.Valid : Stmt → Prop
  | .letVar _ _ _ _ value => value.Valid
  | .assign _ _ _ value => value.Valid
  | .ifElse _ cond t e => cond.Valid ∧ StmtsValid t ∧ StmtsValid e
  | .whileDo _ cond body => cond.Valid ∧ StmtsValid body
  | .ret _ value => ∀ e ∈ value, e.Valid
  | .breakLoop _ => True
  | .continueLoop _ => True
  | .expr _ value => value.Valid

def StmtsValid : List Stmt → Prop
  | [] => True
  | t :: ts => t.Valid ∧ StmtsValid ts

end

def Item.Valid : Item → Prop
  | .fn d => StmtsValid d.body
  | .const d => d.value.Valid

lemma mem_laneLetters {c : UInt8} : c ∈ Bytes.ofString "xyzw" ↔ 0x77 ≤ c ∧ c ≤ 0x7a := by
  have hletters : Bytes.ofString "xyzw" = [0x78, 0x79, 0x7a, 0x77] := by decide
  simp only [hletters, List.mem_cons, List.not_mem_nil, or_false, UInt8.le_iff_toNat_le,
    ← UInt8.toNat_inj]
  change c.toNat = 120 ∨ c.toNat = 121 ∨ c.toNat = 122 ∨ c.toNat = 119 ↔
    119 ≤ c.toNat ∧ c.toNat ≤ 122
  omega

end VecLang.Syntax
