import VecLang.Ssa.Module

/-!
# Chains

Values that are linked by phis, directly or through others, form a chain. The values of a chain
share one cell: whoever defines a branch writes it, and the phi reads it.
-/

namespace VecLang.Ssa

abbrev Chains := List (List ValueId)

namespace Chains

def link (cs : Chains) (a b : ValueId) : Chains :=
  let near := cs.filter fun c => c.contains a || c.contains b
  let far := cs.filter fun c => !(c.contains a || c.contains b)
  (near.flatten.insert a).insert b :: far

def linkPhi (cs : Chains) (p : Phi) : Chains :=
  p.branches.foldl (fun cs b => cs.link b p.dst) cs

def ofPhis (phis : List Phi) : Chains := phis.foldl linkPhi []

def indexOf? (cs : Chains) (id : ValueId) : Option Nat := cs.findIdx? fun c => c.contains id

end Chains

end VecLang.Ssa
