import VecLang.Build.DiskCache
import VecLang.Proofs.Assoc
import VecLang.Proofs.Stateful

/-!
# Places of cached files

A path leads to one place, if it can be followed at all (`Files.target`), and the files of a cache
lie below its directory (`target_pathFor`). So nothing is left of them when it is removed.
-/

namespace VecLang

open List Assoc Bytes

namespace Bytes

variable {sep : UInt8}

lemma exists_splitOn_eq_cons (sep : UInt8) (b : Bytes) : ∃ piece more, splitOn sep b = piece :: more := by
  refine exists_cons_of_ne_nil ?_
  cases b with
  | nil => exact cons_ne_nil _ _
  | cons c b =>
    rw [splitOn]
    split
    · exact cons_ne_nil _ _
    · split <;> exact cons_ne_nil _ _

lemma splitOn_cons {b piece : Bytes} {more : List Bytes} (h : splitOn sep b = piece :: more)
    (c : UInt8) : splitOn sep (c :: b) =
      if c = sep then [] :: piece :: more else (c :: piece) :: more := by
  rw [splitOn, h]

lemma splitOn_append (a b : Bytes) :
    splitOn sep (a ++ sep :: b) = splitOn sep a ++ splitOn sep b := by
  induction a with
  | nil =>
    obtain ⟨piece, more, hb⟩ := exists_splitOn_eq_cons sep b
    rw [nil_append, splitOn_cons hb, if_pos rfl, hb]
    rfl
  | cons c a ih =>
    obtain ⟨piece, more, ha⟩ := exists_splitOn_eq_cons sep a
    rw [ha] at ih
    rw [cons_append, splitOn_cons ih, splitOn_cons ha]
    split <;> rfl

lemma splitOn_of_notMem {b : Bytes} (h : sep ∉ b) : splitOn sep b = [b] := by
  induction b with
  | nil => rfl
  | cons c b ih =>
    rw [mem_cons, not_or] at h
    rw [splitOn_cons (ih h.2), if_neg (Ne.symm h.1)]

lemma notMem_of_mem_splitOn {b p : Bytes} (h : p ∈ splitOn sep b) : sep ∉ p := by
  induction b generalizing p with
  | nil =>
    cases mem_singleton.1 h
    exact not_mem_nil
  | cons c b ih =>
    obtain ⟨piece, more, hb⟩ := exists_splitOn_eq_cons sep b
    rw [hb] at ih
    rw [splitOn_cons hb] at h
    split at h
    · rcases mem_cons.1 h with rfl | h
      · exact not_mem_nil
      · exact ih h
    next hc =>
      rcases mem_cons.1 h with rfl | h
      · exact fun hmem => (mem_cons.1 hmem).elim (fun h => hc h.symm) (ih mem_cons_self)
      · exact ih (mem_cons_of_mem _ h)

lemma splitOn_join {ps : List Bytes} (hne : ps ≠ []) (h : ∀ p ∈ ps, sep ∉ p) :
    splitOn sep (join [sep] ps) = ps := by
  induction ps with
  | nil => exact absurd rfl hne
  | cons p ps ih =>
    rw [forall_mem_cons] at h
    cases ps with
    | nil => exact splitOn_of_notMem h.1
    | cons q ps =>
      rw [join, append_assoc, singleton_append, splitOn_append, splitOn_of_notMem h.1,
        ih (cons_ne_nil _ _) h.2]
      rfl

end Bytes

namespace Path

variable {p name : Bytes}

/-- An element that leads to a place below. -/
structure IsName (e : Bytes) : Prop where
  ne_nil : e ≠ []
  ne_dot : e ≠ "."
  ne_dots : e ≠ ".."
  no_slash : slash ∉ e

lemma of_mem_elements {e : Bytes} (h : e ∈ elements p) : e ≠ [] ∧ slash ∉ e := by
  have hfold (es done : List Bytes) (hes : ∀ e ∈ es, slash ∉ e)
      (hdone : ∀ e ∈ done, e ≠ [] ∧ slash ∉ e) :
      ∀ e ∈ es.foldl (pushElement (isAbs p)) done, e ≠ [] ∧ slash ∉ e := by
    induction es generalizing done with
    | nil => exact hdone
    | cons e es ih =>
      rw [forall_mem_cons] at hes
      refine ih _ hes.2 ?_
      unfold pushElement
      split
      · exact hdone
      next he =>
        have hnew : e ≠ [] ∧ slash ∉ e := ⟨fun h => he (by simp [h]), hes.1⟩
        split
        · split
          · split
            · exact forall_mem_cons.2 ⟨hnew, hdone⟩
            · exact (forall_mem_cons.1 hdone).2
          · split
            · exact hdone
            · exact forall_mem_cons.2 ⟨hnew, hdone⟩
        · exact forall_mem_cons.2 ⟨hnew, hdone⟩
  exact hfold _ [] (fun e he => notMem_of_mem_splitOn he) nofun e (mem_reverse.1 h)

lemma elements_append (hp : p ≠ []) (hname : IsName name) :
    elements (p ++ slash :: name) = elements p ++ [name] := by
  have habs : isAbs (p ++ slash :: name) = isAbs p := by
    cases p with
    | nil => exact absurd rfl hp
    | cons c p => rfl
  have hpush (done : List Bytes) : pushElement (isAbs p) done name = name :: done := by
    unfold pushElement
    rw [if_neg (by simp [hname.ne_nil, hname.ne_dot]), if_neg hname.ne_dots]
  rw [elements, habs, splitOn_append, splitOn_of_notMem hname.no_slash,
    foldl_append, foldl_cons, foldl_nil, hpush, reverse_cons]
  rfl

end Path

namespace Host.Files

variable {fs fs' : Files} {cwd p q : Place} {path content : Bytes}

def step (p : Place) (e : Bytes) : Place :=
  if e = [] || e = "." then p else if e = ".." then p.dropLast else p ++ [e]

/-- Where a path leads if it can be followed. -/
def target (cwd : Place) (path : Bytes) : Place :=
  (Bytes.splitOn Path.slash path).foldl step (if Path.isAbs path then [] else cwd)

lemma follow_eq_ok {es : List Bytes} (h : follow fs p es = .ok q) : q = es.foldl step p := by
  induction es generalizing p with
  | nil =>
    cases h
    rfl
  | cons e es ih =>
    rw [follow] at h
    rw [foldl_cons, step]
    split at h
    · cases h
    · cases h
    · split at h
      · rw [if_pos ‹_›]
        exact ih h
      · rw [if_neg ‹_›]
        split at h
        · rw [if_pos ‹_›]
          exact ih h
        · rw [if_neg ‹_›]
          exact ih h

lemma place_eq_ok (h : place fs cwd path = .ok p) : p = target cwd path := by
  unfold place at h
  split at h
  · cases h
  · exact follow_eq_ok h

lemma file_of_read (h : read fs cwd path = .ok content) :
    get? fs (target cwd path) = some (.file content) := by
  unfold read lookup at h
  cases hplace : place fs cwd path with
  | error f => simp [hplace] at h
  | ok p =>
    cases place_eq_ok hplace
    unfold entry? at h
    by_cases hroot : target cwd path = []
    · simp [hplace, hroot] at h
    · cases hentry : get? fs (target cwd path) with
      | none => simp [hplace, hroot, hentry] at h
      | some e => cases e <;> simp_all

lemma write_eq_ok (h : write fs cwd path content = .ok fs') :
    fs' = Assoc.set fs (target cwd path) (.file content) := by
  unfold write at h
  dsimp only at h
  split at h
  · split at h <;> cases h
  · split at h
    · cases h
    next p hplace =>
      cases place_eq_ok hplace
      split at h
      · cases h
      · exact (Except.ok.inj h).symm

def NoNewFile (fs fs' : Files) : Prop :=
  ∀ p b, get? fs' p = some (.file b) → get? fs p = some (.file b)

lemma noNewFile_mkdir (h : mkdir fs cwd path = .ok fs') : NoNewFile fs fs' := by
  intro p b hp
  unfold mkdir at h
  dsimp only at h
  split at h
  · cases h
  · split at h
    · cases h
    · cases h
      rw [get?_set] at hp
      split at hp
      · cases hp
      · exact hp

lemma noNewFile_mkdirAll {fuel : Nat} (h : mkdirAll cwd fuel fs path = .ok fs') :
    NoNewFile fs fs' := by
  induction fuel generalizing fs fs' path with
  | zero =>
    cases h
    exact fun _ _ h => h
  | succ fuel ih =>
    rw [mkdirAll] at h
    split at h
    · cases h
      exact fun _ _ h => h
    · cases h
    · dsimp only at h
      split at h
      all_goals
        obtain ⟨fs1, hparent, h⟩ := Stateful.except_bind_eq_ok.1 h
        have hfs1 : NoNewFile fs fs1 := by
          first
          | exact ih hparent
          | cases hparent; exact fun _ _ h => h
        split at h
        next hmkdir =>
          cases h
          exact fun p b hp => hfs1 p b (noNewFile_mkdir hmkdir p b hp)
        · split at h
          · cases h
            exact hfs1
          · cases h

lemma target_clean (h : Path.elements path ≠ []) : target cwd (Path.clean path) =
    (Path.elements path).foldl step (if Path.isAbs path then [] else cwd) := by
  have hsplit := splitOn_join h fun e he => (Path.of_mem_elements he).2
  cases habs : Path.isAbs path with
  | true =>
    obtain ⟨piece, more, hcons⟩ := exists_cons_of_ne_nil h
    unfold target Path.clean
    rw [habs, if_pos rfl, splitOn_cons (hsplit.trans hcons), if_pos rfl]
    simp [Path.isAbs, step, hcons]
  | false =>
    obtain ⟨e, es, hcons⟩ := exists_cons_of_ne_nil h
    obtain ⟨hne, hslash⟩ := Path.of_mem_elements (hcons ▸ mem_cons_self : e ∈ _)
    obtain ⟨c, e', rfl⟩ := exists_cons_of_ne_nil hne
    have hc : c ≠ Path.slash := fun h => hslash (h ▸ mem_cons_self)
    obtain ⟨rest, hrest⟩ : ∃ rest, Bytes.join [Path.slash] (Path.elements path) = c :: rest := by
      rw [hcons]
      cases es <;> exact ⟨_, rfl⟩
    have hclean : Path.clean path = c :: rest := by
      unfold Path.clean
      rw [habs, hrest, if_neg Bool.false_ne_true, if_neg (cons_ne_nil _ _)]
    rw [target, hclean, show Path.isAbs (c :: rest) = false by simp [Path.isAbs, hc], ← hrest,
      hsplit]

end Host.Files

namespace Build.DiskCache

open Host

lemma isName_entry (key : Bytes) : Path.IsName (toHex key ++ ".mp") := by
  have hlength : 3 ≤ (toHex key ++ ".mp").length := by
    rw [length_append]
    exact Nat.le_add_left _ _
  have hdigit : ∀ n < 16, hexDigit n ≠ Path.slash := by decide
  refine ⟨fun h => ?_, fun h => ?_, fun h => ?_, fun h => ?_⟩
  · simp [h] at hlength
  · rw [h] at hlength
    exact absurd hlength (by decide)
  · rw [h] at hlength
    exact absurd hlength (by decide)
  · rcases mem_append.1 h with h | h
    · obtain ⟨c, -, hc⟩ := mem_flatMap.1 h
      simp only [hexFixed, nil_append, cons_append, mem_cons, not_mem_nil, or_false] at hc
      rcases hc with hc | hc
      · exact hdigit _ (Nat.mod_lt _ (by decide)) hc.symm
      · exact hdigit _ (Nat.mod_lt _ (by decide)) hc.symm
    · revert h
      decide

lemma target_pathFor (c : DiskCache) (cwd : Place) (key : Bytes) :
    Files.target cwd (c.pathFor key) = Files.target cwd c.units ++ [toHex key ++ ".mp"] := by
  have hname := isName_entry key
  obtain ⟨q, hq, helements, hunits, hpath⟩ : ∃ q, q ≠ [] ∧ Path.elements q ≠ [] ∧
      c.units = Path.clean q ∧
      c.pathFor key = Path.clean (q ++ Path.slash :: (toHex key ++ ".mp")) := by
    have hunits : ("units" : Bytes) ≠ [] := by decide
    unfold units pathFor Path.join
    by_cases hdir : c.dir = []
    · refine ⟨"units", hunits, by decide, ?_, ?_⟩
      · rw [hdir]
        rfl
      · rw [hdir, filter_cons_of_neg (by simp), filter_cons_of_pos (by simp [hunits]),
          filter_cons_of_pos (by exact decide_eq_true hname.ne_nil)]
        rfl
    · refine ⟨c.dir ++ Path.slash :: "units", by simp, ?_, ?_, ?_⟩
      · rw [Path.elements_append hdir ⟨by decide, by decide, by decide, by decide⟩]
        exact append_ne_nil_of_right_ne_nil _ (cons_ne_nil _ _)
      · rw [filter_cons_of_pos (by simp [hdir]), filter_cons_of_pos (by simp [hunits])]
        simp [Bytes.join]
      · rw [filter_cons_of_pos (by simp [hdir]), filter_cons_of_pos (by simp [hunits]),
          filter_cons_of_pos (by exact decide_eq_true hname.ne_nil)]
        simp [Bytes.join]
  have happend := Path.elements_append hq hname
  have habs : Path.isAbs (q ++ Path.slash :: (toHex key ++ ".mp")) = Path.isAbs q := by
    cases q with
    | nil => exact absurd rfl hq
    | cons c q => rfl
  rw [hunits, hpath, Files.target_clean helements, Files.target_clean (by simp [happend]), happend,
    foldl_append, habs, foldl_cons, foldl_nil, Files.step,
    if_neg (by simp [hname.ne_nil, hname.ne_dot]), if_neg hname.ne_dots]

end Build.DiskCache

end VecLang
