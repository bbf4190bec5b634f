import VecLang.Proofs.Token.Tiling

/-!
# Tokens survive a change of spacing

Where a token ends is settled by the bytes behind it, of which a space goes on with none. So the text
of a token is read as that token again before a space or the end of the text (`Stands`), and texts
joined by spaces are read one by one (`lexemes_respaced`). Of identifiers this is assumed, for it
rests on the tables of normal forms (`Steady`).
-/

namespace VecLang.Lexer

open List Bytes

variable {r x y : Bytes} {n : Nat} {k : TokenKind}

/-! ## Numbers -/

/-- No word goes on with the text. -/
def Stops (r : Bytes) : Prop := ∀ c ∈ r.head?, isWordByte c = false

lemma Stops.takeWhile (hr : Stops r) {p : UInt8 → Bool}
    (hp : ∀ {c}, isWordByte c = false → p c = false) (x : Bytes) :
    (x ++ r).takeWhile p = x.takeWhile p := by
  induction x with
  | nil =>
    cases r with
    | nil => rfl
    | cons c r => exact takeWhile_cons_of_neg (by simp [hp (hr c rfl)])
  | cons c x ih => simp only [cons_append, takeWhile_cons, ih]

lemma isDigit_of_stops {c : UInt8} (hc : isWordByte c = false) : isDigit c = false :=
  (Bool.or_eq_false_iff.1 hc).2

lemma Stops.head (hr : Stops r) {p : UInt8 → Bool}
    (hp : ∀ {c}, isWordByte c = false → p c = false) (x : Bytes) :
    ((x ++ r).head?.map p).getD false = (x.head?.map p).getD false := by
  cases x with
  | nil =>
    cases r with
    | nil => rfl
    | cons c r => exact hp (hr c rfl)
  | cons c x => rfl

lemma digitRun_append (hr : Stops r) : digitRun (x ++ r) = digitRun x := by
  have hnumber {c : UInt8} (hc : isWordByte c = false) : isNumberByte c = false := by
    simp [isWordByte, isWordStart, isNumberByte] at hc ⊢
    exact ⟨hc.2, hc.1.1.1⟩
  rw [digitRun, digitRun, hr.takeWhile hnumber]

/-- A point behind the text does not belong to it, if it is none or was not read. -/
lemma fractionLength_append (hr : Stops r)
    (h : fractionLength r = 0 ∨ fractionLength (x ++ r) ≤ x.length) :
    fractionLength (x ++ r) = fractionLength x := by
  cases x with
  | nil => exact h.elim id Nat.le_zero.1
  | cons c x =>
    unfold fractionLength
    by_cases hc : c = 0x2e
    · subst hc
      cases x with
      | nil =>
        cases r with
        | nil => rfl
        | cons d r =>
          have hd := hr d rfl
          simp only [isWordByte, Bool.or_eq_false_iff] at hd
          simp [hd]
      | cons d x => simp only [cons_append, head?_cons, ← digitRun_append hr (x := d :: x)]
    · simp [hc]

lemma exponentLength_append (hr : Stops r)
    (h : signLength r = 0 ∨ (exponentLength (x ++ r)).1 ≤ x.length) :
    exponentLength (x ++ r) = exponentLength x := by
  cases x with
  | nil =>
    cases r with
    | nil => rfl
    | cons d r =>
      refine if_neg fun hd => absurd (hr d rfl) ?_
      rcases (by simpa using hd : d = 0x65 ∨ d = 0x45) with rfl | rfl <;> decide
  | cons c x =>
    rw [cons_append, exponentLength] at h
    rw [cons_append, exponentLength, exponentLength]
    split
    next he =>
      rw [if_pos he] at h
      have hsign : signLength (x ++ r) = signLength x := by
        cases x with
        | nil =>
          rw [nil_append] at h ⊢
          refine h.elim id fun h => ?_
          change signLength r = 0
          dsimp only [length_cons, length_nil] at h
          split at h <;> dsimp only at h <;> omega
        | cons d x => rfl
      simp only [hsign]
      rw [drop_append_of_le_length (signLength_le x), digitRun_append hr, hr.head isDigit_of_stops]
    next => rfl

lemma hasImaginaryMark_append (hr : Stops r) : hasImaginaryMark (x ++ r) = hasImaginaryMark x := by
  cases x with
  | nil =>
    cases r with
    | nil => rfl
    | cons c r =>
      have hc : c ≠ 0x69 := fun h => absurd (hr c rfl) (by rw [h]; decide)
      simp [hasImaginaryMark, hc]
  | cons c x => rw [cons_append, hasImaginaryMark, hasImaginaryMark, hr.head id]

lemma closeNumber_append {real : Bool} (hr : Stops r) :
    closeNumber real n (x ++ r) = closeNumber real n x := by
  simp only [closeNumber, hasImaginaryMark_append hr]
  rw [drop_append_of_le_length (mark_le x), hr.takeWhile id]

/-- Where a number ends. -/
lemma closeNumber_eq {real : Bool} {m : Nat} {b : Bytes} (h : closeNumber real n b = ⟨m, k, none⟩) :
    n ≤ m ∧ (b.drop (m - n)).takeWhile isWordByte = [] := by
  rw [closeNumber] at h
  generalize (if hasImaginaryMark b = true then 1 else 0) = mark at h
  by_cases hsuffix : ((b.drop mark).takeWhile isWordByte).length = 0
  · rw [if_neg (not_not.2 hsuffix)] at h
    cases h
    exact ⟨Nat.le_add_right _ _, by rw [Nat.add_sub_cancel_left, length_eq_zero_iff.1 hsuffix]⟩
  · rw [if_pos hsuffix] at h
    cases h

lemma scanNumber_eq {b : Bytes} (h : scanNumber b = ⟨n, k, none⟩) :
    digitRun b + fractionLength (b.drop (digitRun b)) +
      (exponentLength (b.drop (digitRun b + fractionLength (b.drop (digitRun b))))).1 ≤ n ∧
      (b.drop n).takeWhile isWordByte = [] := by
  simp only [scanNumber] at h
  generalize digitRun b + fractionLength (b.drop (digitRun b)) = m at h ⊢
  by_cases hclose : (exponentLength (b.drop m)).2 = true
  · rw [if_pos hclose] at h
    obtain ⟨hle, hend⟩ := closeNumber_eq h
    rw [drop_drop, Nat.add_sub_cancel' hle] at hend
    exact ⟨hle, hend⟩
  · rw [if_neg hclose] at h
    cases congrArg Scanned.cause h

/-- What follows a number does not matter, if it goes on with no word, and begins with no point or
sign or was not read. -/
lemma scanNumber_append (hr : Stops r) (h : fractionLength r = 0 ∧ signLength r = 0 ∨
    scanNumber (x ++ r) = ⟨x.length, k, none⟩) : scanNumber (x ++ r) = scanNumber x := by
  have hle := h.imp_right fun h => (scanNumber_eq h).1
  have hwhole := digitRun_le x
  have hfraction := fractionLength_le (x.drop (digitRun x))
  have hexponent := exponentLength_le (x.drop (digitRun x + fractionLength (x.drop (digitRun x))))
  rw [length_drop] at hfraction hexponent
  simp only [scanNumber, digitRun_append hr] at hle ⊢
  rw [drop_append_of_le_length hwhole] at hle ⊢
  have hfractions := fractionLength_append (x := x.drop (digitRun x)) hr
    (hle.imp (·.1) fun h => by rw [length_drop]; omega)
  rw [hfractions, drop_append_of_le_length (by omega)] at hle
  have hexponents := exponentLength_append
    (x := x.drop (digitRun x + fractionLength (x.drop (digitRun x)))) hr
    (hle.imp (·.2) fun h => by rw [length_drop]; omega)
  rw [hfractions, drop_append_of_le_length (by omega), hexponents]
  rw [drop_append_of_le_length (by omega), closeNumber_append hr]

lemma scanNumber_front (h : scanNumber (x ++ y) = ⟨x.length, k, none⟩) :
    scanNumber x = ⟨x.length, k, none⟩ := by
  have hend := (scanNumber_eq h).2
  rw [drop_left] at hend
  have hy : Stops y := by
    intro c hc
    obtain ⟨y, rfl⟩ := head?_eq_some_iff.1 hc
    by_contra hword
    simp [hword] at hend
  exact (scanNumber_append hy (.inr h)).symm.trans h

/-- A text that is empty or begins with a space. -/
def Spaced (r : Bytes) : Prop := ∀ c ∈ r.head?, c = 0x20

lemma Spaced.cases (hr : Spaced r) : r = [] ∨ ∃ more, r = 0x20 :: more := by
  cases r with
  | nil => exact .inl rfl
  | cons c more => exact .inr ⟨more, by rw [hr c rfl]⟩

lemma Spaced.stops (hr : Spaced r) : Stops r := fun c hc => hr c hc ▸ rfl

lemma scanNumber_spaced (hr : Spaced r) : scanNumber (x ++ r) = scanNumber x := by
  refine scanNumber_append (k := .eof) hr.stops (.inl ?_)
  obtain rfl | ⟨more, rfl⟩ := hr.cases <;> exact ⟨rfl, rfl⟩

/-! ## Words in front of a space -/

lemma first_spaced (hr : Spaced r) (c : UInt8) (x : Bytes) :
    Utf8.first (c :: (x ++ r)) = Utf8.first (c :: x) := by
  obtain rfl | ⟨more, rfl⟩ := hr.cases
  · rw [append_nil]
  · have hspace : Utf8.isTail 0x20 = false := rfl
    unfold Utf8.first Utf8.first?
    rcases x with _ | ⟨a, _ | ⟨b, _ | ⟨d, x⟩⟩⟩
    all_goals
      simp only [nil_append, cons_append, hspace]
      repeat' split
      all_goals simp_all

lemma wordLength_spaced (hr : Spaced r) : wordLength (x ++ r) = wordLength x := by
  fun_induction wordLength x with
  | case1 =>
    obtain rfl | ⟨more, rfl⟩ := hr.cases
    · rw [append_nil, wordLength]
    · rw [nil_append, wordLength]
      rfl
  | case2 c rest hn =>
    rw [cons_append, wordLength, wordChar?, first_spaced hr, ← wordChar?, hn]
  | case3 c rest n hn ih =>
    rw [cons_append, wordLength, wordChar?, first_spaced hr, ← wordChar?, hn]
    dsimp only
    rw [drop_append_of_le_length (wordChar?_le hn), ih]

variable {c : UInt8}

lemma lt_of_isWordByte (hc : isWordByte c = true) : c < 0x80 := by
  simp only [isWordByte, isWordStart, isDigit, Bool.or_eq_true, Bool.and_eq_true,
    decide_eq_true_eq, UInt8.le_iff_toNat_le, UInt8.lt_iff_toNat_lt, ← UInt8.toNat_inj] at hc ⊢
  simp at hc ⊢
  omega

lemma wordLength_of_all (h : x.all isWordByte = true) : wordLength x = x.length := by
  induction x with
  | nil => rw [wordLength]; rfl
  | cons c x ih =>
    obtain ⟨hc, hx⟩ := Bool.and_eq_true_iff.1 h
    have hn : wordChar? c x = some 0 := by rw [wordChar?, if_pos (lt_of_isWordByte hc), if_pos hc]
    rw [wordLength, hn, length_cons]
    dsimp only
    rw [drop_zero, ih hx]
    omega

/-! ## Tokens that stand alone -/

/-- The text `w` is a token of the kind `k`, and still is with a space behind it. -/
def Stands (k : TokenKind) (w : Bytes) : Prop :=
  ∃ c x, w = c :: x ∧ ∀ r, Spaced r → gap (c :: (x ++ r)) = ⟨0, none⟩ ∧
    scan c (x ++ r) = (⟨w.length, k, none⟩, w)

variable {w : Bytes}

lemma gap_of_scan {rest : Bytes}
    (h : scan c rest = (⟨n, k, none⟩, w)) (hrest : c = 0x2f → Spaced rest) :
    gap (c :: rest) = ⟨0, none⟩ := by
  have hblank : ¬ isBlank c = true := by
    intro hc
    simp only [isBlank, Bool.or_eq_true, decide_eq_true_eq] at hc
    rcases hc with ((rfl | rfl) | rfl) | rfl <;> cases h
  have hslash (d : UInt8) (hd : d ≠ 0x20) : ¬ (c = 0x2f && rest.head? = some d) = true := by
    simp only [Bool.and_eq_true, decide_eq_true_eq, not_and]
    exact fun h hrest' => hd (hrest h d hrest')
  rw [gap, if_neg hblank, if_neg (hslash _ (by decide)), if_neg (hslash _ (by decide))]

lemma stands_word (hc : (isWordStart c || 0x80 ≤ c) = true)
    (hlen : wordLength (c :: x) = x.length + 1) (hnormal : Unicode.normalize (c :: x) = c :: x) :
    Stands ((TokenKind.keyword? (c :: x)).getD .ident) (c :: x) := by
  refine ⟨c, x, rfl, fun r hr => ?_⟩
  have hscan : scan c (x ++ r) =
      (⟨(c :: x).length, (TokenKind.keyword? (c :: x)).getD .ident, none⟩, c :: x) := by
    rw [scan, if_pos hc, scanWord, ← cons_append, wordLength_spaced hr, hlen]
    rw [take_left' (by rfl)]
    simp [hnormal]
  refine ⟨gap_of_scan hscan ?_, hscan⟩
  rintro rfl
  cases hc

variable {c : UInt8} {rest : Bytes} {n : Nat} {k : TokenKind}

lemma stands_number (hword : ¬ (isWordStart c || 0x80 ≤ c) = true) (h : startsNumber c rest = true)
    (hn : scanNumber (c :: rest) = ⟨n, k, none⟩) : Stands k ((c :: rest).take n) := by
  have hsound := scanNumber_sound h
  have hlt := (startsNumber_lt h).trans_le (Nat.le_of_add_right_le (scanNumber_eq hn).1)
  rw [hn] at hsound
  have hle : n ≤ rest.length + 1 := hsound.le
  obtain ⟨m, rfl⟩ := Nat.exists_eq_succ_of_ne_zero hsound.pos.ne'
  rw [Nat.succ_eq_add_one] at hn ⊢
  have hlen : (c :: rest.take m).length = m + 1 := by simp; omega
  have halone : scanNumber (c :: rest.take m) = ⟨m + 1, k, none⟩ := by
    rw [← hlen]
    refine scanNumber_front (y := rest.drop m) ?_
    rw [cons_append, take_append_drop, hn, hlen]
  refine ⟨c, rest.take m, rfl, fun r hr => ?_⟩
  have hnumber : startsNumber c (rest.take m ++ r) = true := by
    by_cases hc : c = 0x2e
    · rw [if_pos hc] at hlt
      obtain ⟨m, rfl⟩ := Nat.exists_eq_succ_of_ne_zero (Nat.lt_of_succ_lt_succ hlt).ne'
      cases rest with
      | nil => exact absurd (Nat.le_of_succ_le_succ hle) (Nat.not_succ_le_zero m)
      | cons d rest => exact h
    · simpa [startsNumber, hc] using h
  have hscan : scan c (rest.take m ++ r) = (⟨(c :: rest.take m).length, k, none⟩, c :: rest.take m) := by
    rw [scan, if_neg hword, if_pos hnumber, ← cons_append, scanNumber_spaced hr, halone, hlen]
    exact congrArg _ (take_left' hlen)
  refine ⟨gap_of_scan hscan ?_, hscan⟩
  rintro rfl
  cases hnumber

lemma operator?_cases {next : Option UInt8} (h : operator? c next = some (n, k)) :
    (n = 1 ∧ ∀ r, Spaced r → operator? c r.head? = some (1, k)) ∨
      ∃ d, n = 2 ∧ next = some d ∧ c ≠ 0x2f ∧ c ≠ 0x2e := by
  have hspaced {r : Bytes} (hr : Spaced r) {d : UInt8} (hd : d ≠ 0x20) : ¬ r.head? = some d :=
    fun h => hd (hr d h)
  unfold operator? at h ⊢
  dsimp only at h ⊢
  split at h
  all_goals first
    | (cases h; exact .inl ⟨rfl, fun _ _ => rfl⟩)
    | (split at h
       · cases h; exact .inr ⟨_, rfl, ‹_›, by decide, by decide⟩
       · cases h; try exact .inl ⟨rfl, fun r hr => congrArg some (if_neg (hspaced hr (by decide)))⟩)
    | cases h

lemma stands_operator (hword : ¬ (isWordStart c || 0x80 ≤ c) = true)
    (hnumber : ¬ startsNumber c rest = true) (hn : operator? c rest.head? = some (n, k)) :
    Stands k ((c :: rest).take n) := by
  rcases operator?_cases hn with ⟨rfl, hspaced⟩ | ⟨d, rfl, hd, hslash, hdot⟩
  · refine ⟨c, [], rfl, fun r hr => ?_⟩
    have hdigit : (r.head?.map isDigit).getD false = false := hr.stops.head isDigit_of_stops []
    have hnumber : ¬ startsNumber c r = true := by
      simp only [startsNumber, hdigit, Bool.and_false, Bool.or_false]
      exact fun h => hnumber (by rw [startsNumber, h, Bool.true_or])
    have hscan : scan c r = (⟨1, k, none⟩, [c]) := by
      rw [scan, if_neg hword, if_neg hnumber, hspaced r hr]
      rfl
    exact ⟨gap_of_scan hscan fun _ => hr, hscan⟩
  · obtain ⟨rest, rfl⟩ := head?_eq_some_iff.1 hd
    refine ⟨c, [d], rfl, fun r hr => ?_⟩
    have hscan : scan c (d :: r) = (⟨2, k, none⟩, [c, d]) := by
      have hnumber : ¬ startsNumber c (d :: r) = true := hnumber
      rw [scan, if_neg hword, if_neg hnumber, head?_cons, ← hd, hn]
      rfl
    exact ⟨gap_of_scan hscan fun h => absurd h hslash, hscan⟩

lemma stands_keyword (hk : k ∈ TokenKind.keywords) : Stands k k.name := by
  have hall : ∀ k ∈ TokenKind.keywords, (k.name.head?.map isWordStart).getD false = true ∧
      k.name.all isWordByte = true ∧ Unicode.normalize k.name = k.name ∧
      TokenKind.keyword? k.name = some k := by decide
  obtain ⟨hstart, hword, hnormal, hself⟩ := hall k hk
  cases hname : k.name with
  | nil => rw [hname] at hstart; cases hstart
  | cons c x =>
    rw [hname] at hstart hword hnormal hself
    have hstands := stands_word (Bool.or_eq_true_iff.2 (.inl hstart)) (wordLength_of_all hword) hnormal
    rwa [hself] at hstands

lemma stands_of_scan (h : scan c rest = (⟨n, k, none⟩, x)) (hident : k = .ident → Stands k x) :
    Stands k x := by
  unfold scan at h
  dsimp only at h
  split at h
  next =>
    rw [scanWord] at h
    split at h
    next => cases h
    next =>
      obtain ⟨hs, rfl⟩ := Prod.mk.injEq .. ▸ h
      obtain ⟨-, hk, -⟩ := Scanned.mk.injEq .. ▸ hs
      generalize Unicode.normalize ((c :: rest).take (wordLength (c :: rest))) = w at hk hident ⊢
      cases hword : TokenKind.keyword? w with
      | none => exact hident (by rw [← hk, hword]; rfl)
      | some k' =>
        rw [hword] at hk
        cases hk
        have hname := find?_some hword
        rw [← of_decide_eq_true hname]
        exact stands_keyword (mem_of_find?_eq_some hword)
  next hword =>
    split at h
    next hnumber =>
      obtain ⟨hn, rfl⟩ := Prod.mk.injEq .. ▸ h
      rw [hn]
      exact stands_number hword hnumber hn
    next hnumber =>
      cases hop : operator? c rest.head? with
      | none => rw [hop] at h; cases h
      | some op =>
        rw [hop] at h
        cases h
        exact stands_operator hword hnumber hop

/-- The text is read as one identifier, spelled as the text is. -/
def Steady (file : Nat) (w : Bytes) : Prop :=
  tokens (lexemes { file } w) = [⟨.ident, ⟨file, 0, w.length⟩, w⟩, ⟨.eof, ⟨file, w.length, w.length⟩, []⟩]

instance (file : Nat) (w : Bytes) : Decidable (Steady file w) := inferInstanceAs (Decidable (_ = _))

variable {o : Options} {off : Nat} {b : Bytes}

lemma starts_of_ident (h : (scan c rest).1.kind = .ident) :
    (isWordStart c || 0x80 ≤ c) = true := by
  by_contra hword
  rw [scan, if_neg hword] at h
  split at h
  next =>
    dsimp only [scanNumber, closeNumber] at h
    split_ifs at h
  next =>
    cases hop : operator? c rest.head? with
    | none => rw [hop] at h; cases h
    | some op =>
      rw [hop] at h
      unfold operator? at hop
      dsimp only at hop
      split at hop
      all_goals (try split at hop) <;> cases hop <;> cases h

lemma Steady.stands {file : Nat} (h : Steady file w) : Stands .ident w := by
  rw [Steady, lexemes, lexemesFrom] at h
  split at h
  next => cases h
  next c rest hw =>
    obtain ⟨hhead, -⟩ := cons_eq_cons.1 h
    obtain ⟨hkind, hspan, htext⟩ := Token.mk.injEq .. ▸ hhead
    obtain ⟨-, hstart, hlen⟩ := Span.mk.injEq .. ▸ hspan
    rw [Nat.zero_add] at hstart hlen
    rw [hstart] at hlen hw
    rw [Nat.zero_add] at hlen
    obtain rfl : w = c :: rest := hw
    have hstarts := starts_of_ident hkind
    rw [scan, if_pos hstarts, scanWord] at hkind hlen htext
    split at hkind
    next => cases hkind
    next hn =>
      rw [if_neg hn] at hlen htext
      dsimp only at hlen htext hkind
      rw [hlen, take_length] at htext hkind
      rw [htext] at hkind
      exact hkind ▸ stands_word hstarts hlen htext

lemma gap_spaces (i : Nat) : gap (List.replicate i 0x20 ++ b) = (gap b).after i := by
  induction i with
  | zero => simp [Gap.after]
  | succ i ih =>
    rw [replicate_succ, cons_append, gap, if_pos (by decide), ih]
    simp only [Gap.after, Option.map_map, Gap.mk.injEq]
    refine ⟨by omega, congrArg (Option.map · _) (funext fun n => ?_)⟩
    simp only [Function.comp_apply]
    omega

/-- What is read without regard to where it stands. -/
def readings (ls : List Lexeme) : List (TokenKind × Bytes × List LexicalFault) :=
  ls.map fun l => (l.token.kind, l.token.text, l.faults)

lemma readings_spaces (i : Nat) :
    readings (lexemesFrom o off (List.replicate i 0x20)) = [(.eof, [], [])] := by
  have hgap := gap_spaces (b := []) i
  rw [append_nil] at hgap
  rw [lexemesFrom]
  split
  next => simp [readings, gapFaults, hgap, gap, Gap.after]
  next h =>
    rw [hgap, drop_eq_nil_of_le (by simp [gap, Gap.after])] at h
    cases h

lemma Stands.readings_eq (h : Stands k w) (hr : Spaced r) (ho : o.maxToken = 0) (i : Nat) :
    readings (lexemesFrom o off (List.replicate i 0x20 ++ (w ++ r))) =
      (k, w, []) :: readings (lexemesFrom o (off + i + w.length) r) := by
  obtain ⟨c, x, rfl, h⟩ := h
  obtain ⟨hgap, hscan⟩ := h r hr
  have hspaces : gap (List.replicate i 0x20 ++ c :: (x ++ r)) = ⟨i, none⟩ := by
    rw [gap_spaces, hgap]
    rfl
  have hdrop : (List.replicate i 0x20 ++ c :: (x ++ r)).drop i = c :: (x ++ r) :=
    drop_left' length_replicate
  rw [cons_append, lexemesFrom]
  split
  next h =>
    rw [hspaces, hdrop] at h
    cases h
  next h =>
    rw [hspaces, hdrop] at h
    cases h
    simp [readings, hspaces, hscan, gapFaults, tokenFaults, ho]

lemma spaced_replicate (j : Nat) : Spaced (List.replicate j 0x20) :=
  fun _ hc => eq_of_mem_replicate (mem_of_mem_head? hc)

lemma readings_join (ho : o.maxToken = 0) {ts : List Token} (h : ∀ t ∈ ts, Stands t.kind t.text)
    (i j : Nat) : readings (lexemesFrom o off (List.replicate i 0x20 ++
      (join " " (ts.map (·.text)) ++ List.replicate j 0x20))) =
      ts.map (fun t => (t.kind, t.text, [])) ++ [(.eof, [], [])] := by
  induction ts generalizing off i with
  | nil =>
    have hend : readings (lexemesFrom o off (List.replicate (i + j) 0x20)) = _ := readings_spaces _
    rwa [replicate_add] at hend
  | cons t ts ih =>
    obtain ⟨ht, hts⟩ := forall_mem_cons.1 h
    cases ts with
    | nil =>
      rw [map_singleton, join, ht.readings_eq (spaced_replicate j) ho, readings_spaces]
      rfl
    | cons t' ts =>
      have hr : Spaced (0x20 :: (join " " ((t' :: ts).map (·.text)) ++ List.replicate j 0x20)) :=
        fun c hc => (Option.some.inj hc).symm
      have hjoin : join " " ((t :: t' :: ts).map (·.text)) ++ List.replicate j 0x20 =
          t.text ++ 0x20 :: (join " " ((t' :: ts).map (·.text)) ++ List.replicate j 0x20) := by
        rw [map_cons, map_cons, join, append_assoc, append_assoc]
        rfl
      rw [hjoin, ht.readings_eq hr ho]
      exact congrArg _ (ih hts 1)

lemma stands_of_mem {l : Lexeme} (hl : l ∈ lexemesFrom o off b) (hkind : l.token.kind ≠ .eof)
    (hfaults : l.faults = []) (hident : l.token.kind = .ident → Stands .ident l.token.text) :
    Stands l.token.kind l.token.text := by
  fun_induction lexemesFrom o off b with
  | case1 =>
    cases mem_singleton.1 hl
    exact absurd rfl hkind
  | case2 off b g start c rest h s _ ih =>
    rcases mem_cons.1 hl with rfl | hl
    · obtain ⟨-, hfaults⟩ := append_eq_nil_iff.1 hfaults
      obtain ⟨hcause, -⟩ := append_eq_nil_iff.1 hfaults
      have hnone : s.1.cause = none :=
        Option.map_eq_none_iff.1 (Option.toList_eq_nil_iff.1 hcause)
      have hscan : scan c rest = (⟨s.1.length, s.1.kind, none⟩, s.2) := by rw [← hnone]
      exact stands_of_scan hscan fun h => h ▸ hident h
    · exact ih hl

lemma join_concat_nil (ws : List Bytes) :
    ∃ j, join " " (ws ++ [[]]) = join " " ws ++ List.replicate j 0x20 := by
  induction ws with
  | nil => exact ⟨0, rfl⟩
  | cons w ws ih =>
    cases ws with
    | nil => exact ⟨1, append_nil _⟩
    | cons w' ws =>
      obtain ⟨j, hj⟩ := ih
      refine ⟨j, ?_⟩
      simp only [cons_append, join] at hj ⊢
      rw [hj]
      simp

lemma of_readings {ls : List Lexeme} {us : List Token}
    (h : readings ls = us.map fun t => (t.kind, t.text, [])) : diagnostics ls = [] ∧
      (tokens ls).map (fun t => (t.kind, t.text)) = us.map fun t => (t.kind, t.text) := by
  have hdiagnostics : diagnostics ls = (readings ls).flatMap (·.2.2.map LexicalFault.toDiagnostic) := by
    simp [diagnostics, readings, flatMap_map]
  have htokens : (tokens ls).map (fun t => (t.kind, t.text)) = (readings ls).map fun x => (x.1, x.2.1) := by
    simp [tokens, readings]
  rw [hdiagnostics, htokens, h]
  simp [flatMap_map]

/-- The texts of the tokens, joined by spaces, have the same tokens, whether the empty text of the
last one is joined to the others or not. -/
theorem lexemes_respaced (file : Nat) (b : Bytes) (h : diagnostics (lexemes { file } b) = [])
    (hwords : ∀ t ∈ tokens (lexemes { file } b), t.kind = .ident → Steady file t.text)
    (us : List Token) (hus : us = tokens (lexemes { file } b) ∨
      us = (tokens (lexemes { file } b)).dropLast) :
    let again := lexemes { file } (join " " (us.map (·.text)))
    diagnostics again = [] ∧ (tokens again).map (fun t => (t.kind, t.text)) =
      (tokens (lexemes { file } b)).map fun t => (t.kind, t.text) := by
  intro again
  obtain ⟨ls, last, hls, hlast, hfills, -⟩ := lexemesFrom_tile (o := { file })
    (show b.drop 0 = b from drop_zero) (Nat.zero_le _)
  replace hls : lexemes { file } b = ls ++ [last] := hls
  have htokens : tokens (lexemes { file } b) = tokens ls ++ [last.token] := by simp [tokens, hls]
  have hstands : ∀ t ∈ tokens ls, Stands t.kind t.text := by
    intro t ht
    obtain ⟨l, hl, rfl⟩ := mem_map.1 ht
    have hmem : l ∈ lexemes { file } b := hls ▸ mem_append_left _ hl
    refine stands_of_mem hmem (hfills l hl).kind ?_ fun hident => ?_
    · exact map_eq_nil_iff.1 (flatMap_eq_nil_iff.1 h l hmem)
    · exact (hwords _ (mem_map_of_mem hmem) hident).stands
  obtain ⟨j, hj⟩ : ∃ j, join " " (us.map (·.text)) =
      join " " ((tokens ls).map (·.text)) ++ List.replicate j 0x20 := by
    rw [htokens, dropLast_concat] at hus
    rcases hus with rfl | rfl
    · rw [map_append, map_singleton, hlast]
      exact join_concat_nil _
    · exact ⟨0, (append_nil _).symm⟩
  have hagain : readings again = (tokens ls).map _ ++ _ := hj ▸ readings_join rfl hstands 0 j
  refine of_readings (hagain.trans ?_)
  rw [htokens, map_append, map_singleton, hlast]

/-- Text without any blanks. -/
def tight : Bytes := "v.x->2.*.5i/u"

theorem lexemes_respaced_tight : let ts := tokens (lexemes {} tight)
    diagnostics (lexemes {} tight) = [] ∧ (∀ t ∈ ts, t.kind = .ident → Steady 0 t.text) ∧
      (tokens (lexemes {} (join " " (ts.map (·.text))))).map (fun t => (t.kind, t.text)) =
        ts.map fun t => (t.kind, t.text) := by
  have h : diagnostics (lexemes {} tight) = [] := by decide +kernel
  have hwords : ∀ t ∈ tokens (lexemes {} tight), t.kind = .ident → Steady 0 t.text := by decide +kernel
  exact ⟨h, hwords, (lexemes_respaced 0 tight h hwords _ (.inl rfl)).2⟩

end VecLang.Lexer
