import VecLang.Text.Bytes

/-!
# Breakdowns

A breakdown is a request that makes no sense for the data at hand: a name or number that
stands for nothing. The compiler's own stages never ask such things of each other when they
are run in order; only hand-made data can bring one about.
-/

namespace VecLang

/-- Why an operation could not be carried out at all. -/
inductive Breakdown where
  /-- A position outside its list. -/
  | outOfRange
  /-- There is no vector type with that many lanes. -/
  | noVector (lanes : Int)
  /-- No variable has that number. -/
  | unknownVar (id : Nat)
  /-- No function has that number. -/
  | unknownFun (id : Nat)
  /-- The variable never entered the constraint sets. -/
  | noConstraintSet (var : Nat)
  /-- An expression was left without a single type. -/
  | unresolvedExpr (place : Bytes) (type : Bytes)
  /-- The types found for an operation do not fit its operator. -/
  | contradiction (left op right result : Bytes)
  /-- No value of the module has that number. -/
  | unknownValue (id : Nat)
  /-- A variable is used where no value has been given to it. -/
  | readBeforeDefinition (name : Bytes)
  /-- A text cannot be repeated a negative number of times. -/
  | negativeRepeat
deriving DecidableEq

def Breakdown.message : Breakdown → Bytes
  | outOfRange => "runtime error"
  | noVector n => "types: no vector with " ++ Bytes.ofInt n ++ " lanes"
  | unknownVar n => "symbols: unknown var " ++ Bytes.ofNat n
  | unknownFun n => "symbols: unknown fun " ++ Bytes.ofNat n
  | noConstraintSet v => "sema: variable " ++ Bytes.ofNat v ++ " has no constraint set"
  | unresolvedExpr place type => "sema: expression at " ++ place ++ " resolved to " ++ type
  | contradiction l op r t => "sema: " ++ l ++ " " ++ op ++ " " ++ r ++ " resolved to " ++ t
  | unknownValue n => "mir: unknown value %" ++ Bytes.ofNat n
  | readBeforeDefinition name => "mir: variable " ++ name ++ " read before definition"
  | negativeRepeat => "strings: negative Repeat count"

end VecLang
