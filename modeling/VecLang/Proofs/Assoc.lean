import Mathlib.Tactic.Lemma
import VecLang.Assoc

/-!
# Keys of association lists
-/

namespace VecLang.Assoc

open List

variable {κ ν : Type} [DecidableEq κ] {m : Assoc κ ν} {k j : κ} {v : ν}

lemma isSome_get?_iff : (m.get? k).isSome ↔ k ∈ m.keys := by
  induction m with
  | nil => simp [get?, keys]
  | cons e rest ih =>
    obtain ⟨i, w⟩ := e
    by_cases h : i = k
    · simp [get?, keys, h]
    · simpa [get?, keys, h, Ne.symm h] using ih

lemma get?_eq_none_iff : m.get? k = none ↔ k ∉ m.keys := by
  rw [← isSome_get?_iff, Option.not_isSome_iff_eq_none]

lemma mem_of_get?_eq_some (h : m.get? k = some v) : (k, v) ∈ m := by
  induction m with
  | nil => cases h
  | cons e rest ih =>
    obtain ⟨i, w⟩ := e
    rw [get?] at h
    split at h
    case isTrue hik =>
      cases h
      exact hik ▸ mem_cons_self
    case isFalse => exact mem_cons_of_mem _ (ih h)

lemma get?_eq_some_of_mem (hnd : m.keys.Nodup) (h : (k, v) ∈ m) : m.get? k = some v := by
  induction m with
  | nil => cases h
  | cons e rest ih =>
    obtain ⟨i, w⟩ := e
    obtain ⟨hi, hnd⟩ := nodup_cons.1 hnd
    rcases mem_cons.1 h with heq | h
    · cases heq
      exact if_pos rfl
    · have hne : i ≠ k := by
        rintro rfl
        exact hi (mem_map.2 ⟨_, h, rfl⟩)
      rw [get?, if_neg hne]
      exact ih hnd h

lemma mem_keys_set : j ∈ (m.set k v).keys ↔ j = k ∨ j ∈ m.keys := by
  rw [← isSome_get?_iff, ← isSome_get?_iff, get?_set]
  by_cases h : k = j
  · simp [h]
  · simp [h, Ne.symm h]

lemma nodup_keys_set (hnd : m.keys.Nodup) : (m.set k v).keys.Nodup := by
  induction m with
  | nil => simp [set, keys]
  | cons e rest ih =>
    obtain ⟨i, w⟩ := e
    obtain ⟨hi, hnd⟩ := nodup_cons.1 hnd
    rw [set]
    split
    case isTrue hik => exact nodup_cons.2 ⟨hik ▸ hi, hnd⟩
    case isFalse hik =>
      refine nodup_cons.2 ⟨fun hmem => ?_, ih hnd⟩
      rcases mem_keys_set.1 hmem with heq | hmem
      · exact hik heq
      · exact hi hmem

lemma set_of_notMem (h : k ∉ m.keys) : m.set k v = m ++ [(k, v)] := by
  induction m with
  | nil => rfl
  | cons e rest ih =>
    obtain ⟨i, w⟩ := e
    obtain ⟨hi, hrest⟩ := not_or.1 (mt mem_cons.2 h)
    rw [set, if_neg (Ne.symm hi), ih hrest]
    rfl

lemma foldl_set (entries : Assoc κ ν) (hnd : (m.keys ++ entries.keys).Nodup) :
    entries.foldl (fun m x => m.set x.1 x.2) m = m ++ entries := by
  induction entries generalizing m with
  | nil => rw [foldl_nil, append_nil]
  | cons e rest ih =>
    obtain ⟨i, w⟩ := e
    have hi : i ∉ m.keys := fun hmem =>
      (nodup_append.1 hnd).2.2 i hmem i mem_cons_self rfl
    have hnd' : (keys (m ++ [(i, w)]) ++ keys rest).Nodup := by
      rw [keys, map_append, append_assoc]
      exact hnd
    rw [foldl_cons, set_of_notMem hi, ih hnd', append_assoc]
    rfl

lemma get?_foldl_set (entries : Assoc κ ν) (hnd : entries.keys.Nodup) :
    (entries.foldl (fun m x => m.set x.1 x.2) m).get? k = (entries.get? k).or (m.get? k) := by
  induction entries generalizing m with
  | nil => rfl
  | cons e rest ih =>
    obtain ⟨i, w⟩ := e
    obtain ⟨hi, hnd⟩ := nodup_cons.1 hnd
    rw [foldl_cons, ih hnd, get?_set, get?]
    by_cases hik : i = k
    · rw [if_pos hik, if_pos hik, get?_eq_none_iff.2 (hik ▸ hi)]
      rfl
    · rw [if_neg hik, if_neg hik]

end VecLang.Assoc
