/-!
# Association lists

Entries keep the place of the first time their key was set.
-/

namespace VecLang

/-- Keys with their values, each key once. -/
abbrev Assoc (κ ν : Type) := List (κ × ν)

namespace Assoc

variable {κ ν : Type} [DecidableEq κ]

def get? (m : Assoc κ ν) (k : κ) : Option ν :=
  match m with
  | [] => none
  | (j, v) :: rest => if j = k then some v else get? rest k

/-- Give a key a value, in place of the one it has. -/
def set (m : Assoc κ ν) (k : κ) (v : ν) : Assoc κ ν :=
  match m with
  | [] => [(k, v)]
  | (j, w) :: rest => if j = k then (k, v) :: rest else (j, w) :: set rest k v

def keys (m : Assoc κ ν) : List κ := m.map (·.1)

/-- Setting a key gives it its value and leaves the others as they are. -/
theorem get?_set (m : Assoc κ ν) (k : κ) (v : ν) (j : κ) :
    get? (set m k v) j = if k = j then some v else get? m j := by
  induction m with
  | nil => simp [set, get?]
  | cons e rest ih =>
    obtain ⟨i, w⟩ := e
    by_cases hik : i = k
    · subst hik
      by_cases hij : i = j <;> simp [set, get?, hij]
    · by_cases hij : i = j
      · subst hij
        simp [set, get?, hik, Ne.symm hik]
      · simp [set, get?, hik, hij, ih]

end Assoc

end VecLang
