import Mathlib.Data.List.Forall2
import Mathlib.Data.List.Infix
import Mathlib.Data.List.TakeWhile
import VecLang.Token.Lexer

/-!
# Tokens tile the text

A text is covered by its tokens and the gaps between them (`lexemes_tile`). A gap is made of blanks
and comments (`Trivia`), and what is read at the front of the text behind it is a token (`Sound`):
some bytes of the text, taken as they are but for words, and invalid exactly if reported.
-/

namespace VecLang.Lexer

open List Option

/-! ## Gaps -/

/-- A stretch of blanks and comments, which reaches to the end of the text if `ends`. A line comment
goes on to the end of its line, and a block comment to the first mark of its end. The last comment of
the text may have none; the number tells where it begins. -/
inductive Trivia (ends : Prop) : Bytes → Option Nat → Prop
  | nil : Trivia ends [] none
  | blank {c : UInt8} {g : Bytes} {u : Option Nat} : isBlank c = true → Trivia ends g u →
    Trivia ends (c :: g) (u.map (1 + ·))
  | line {body g : Bytes} {u : Option Nat} : 0x0a ∉ body → (g = [] → ends) →
    (∀ c ∈ g.head?, c = 0x0a) → Trivia ends g u →
    Trivia ends (0x2f :: 0x2f :: body ++ g) (u.map (body.length + 2 + ·))
  | block {body g : Bytes} {u : Option Nat} : ¬ [0x2a, 0x2f] <:+: body → Trivia ends g u →
    Trivia ends (0x2f :: 0x2a :: body ++ 0x2a :: 0x2f :: g) (u.map (body.length + 4 + ·))
  | unended {body : Bytes} : ends → ¬ [0x2a, 0x2f] <:+: body →
    Trivia ends (0x2f :: 0x2a :: body) (some 0)

variable {c : UInt8} {rest : Bytes}

lemma closed_cons : [0x2a, 0x2f] <:+: c :: rest ↔
    c = 0x2a ∧ rest.head? = some 0x2f ∨ [0x2a, 0x2f] <:+: rest := by
  rw [infix_cons_iff, cons_prefix_cons]
  cases rest with
  | nil => simp
  | cons d rest => simp [cons_prefix_cons, eq_comm (a := d), eq_comm (a := c)]

lemma blockEnd?_spec (b : Bytes) : match blockEnd? b with
    | none => ¬ [0x2a, 0x2f] <:+: b
    | some n => ∃ body rest, b = body ++ 0x2a :: 0x2f :: rest ∧ n = body.length + 2 ∧
      ¬ [0x2a, 0x2f] <:+: body := by
  induction b with
  | nil => simp [blockEnd?]
  | cons c rest ih =>
    rw [blockEnd?]
    by_cases hend : c = 0x2a ∧ rest.head? = some 0x2f
    · obtain ⟨rfl, hrest⟩ := hend
      obtain ⟨rest, rfl⟩ := head?_eq_some_iff.1 hrest
      exact ⟨[], rest, rfl, rfl, by simp⟩
    · rw [if_neg (by simpa using hend)]
      cases hn : blockEnd? rest with
      | none =>
        rw [hn] at ih
        exact fun h => (closed_cons.1 h).elim hend ih
      | some n =>
        rw [hn] at ih
        obtain ⟨body, more, rfl, rfl, hbody⟩ := ih
        refine ⟨c :: body, more, rfl, rfl, fun h => (closed_cons.1 h).elim (fun h => hend ?_) hbody⟩
        exact ⟨h.1, by rw [head?_append, h.2]; rfl⟩

lemma drop_takeWhile (p : UInt8 → Bool) (b : Bytes) :
    b.drop (b.takeWhile p).length = b.dropWhile p := by
  calc b.drop (b.takeWhile p).length
      = (b.takeWhile p ++ b.dropWhile p).drop (b.takeWhile p).length := by
        rw [takeWhile_append_dropWhile]
    _ = b.dropWhile p := drop_left

lemma Trivia.mono {p q : Prop} (hpq : p → q) {g : Bytes} {u : Option Nat} (h : Trivia p g u) :
    Trivia q g u := by
  induction h with
  | nil => exact .nil
  | blank hc _ ih => exact .blank hc ih
  | line hbody hend hhead _ ih => exact .line hbody (fun h => hpq (hend h)) hhead ih
  | block hbody _ ih => exact .block hbody ih
  | unended hend hbody => exact .unended (hpq hend) hbody

variable {n : Nat}

lemma Trivia.ends_of_mem {p : Prop} {g : Bytes} {u : Option Nat} (h : Trivia p g u)
    (hn : n ∈ u) : p := by
  induction h generalizing n with
  | nil => cases hn
  | blank _ _ ih | line _ _ _ _ ih | block _ _ ih =>
    obtain ⟨k, hk, -⟩ := map_eq_some_iff.1 hn
    exact ih hk
  | unended hend => exact hend

lemma gap_spec (b : Bytes) : ∃ front behind, b = front ++ behind ∧
    (gap b).length = front.length ∧ Trivia (behind = []) front (gap b).unterminated := by
  fun_induction gap b with
  | case1 => exact ⟨[], [], rfl, rfl, .nil⟩
  | case2 c rest hc ih =>
    obtain ⟨front, behind, rfl, hlen, ih⟩ := ih
    exact ⟨c :: front, behind, rfl, by simp [Gap.after, hlen, Nat.add_comm], .blank hc ih⟩
  | case3 c rest hc hline n ih =>
    obtain ⟨rfl, hrest⟩ : c = 0x2f ∧ rest.head? = some 0x2f := by simpa using hline
    obtain ⟨rest, rfl⟩ := head?_eq_some_iff.1 hrest
    obtain ⟨front, behind, heq, hlen, ih⟩ := ih
    let body := rest.takeWhile (· ≠ 0x0a)
    have hn : n = body.length + 1 := by simp [n, body]
    have hbody : (0x2f :: rest).drop n = rest.dropWhile (· ≠ 0x0a) := by
      rw [hn, drop_succ_cons, drop_takeWhile]
    rw [hbody] at heq hlen ih ⊢
    -- what follows the comment begins with the end of the line, which belongs to the gap
    have hhead : ∀ c ∈ (rest.dropWhile (· ≠ 0x0a)).head?, c = 0x0a := by
      intro c hc
      have hnot := head?_dropWhile_not (· ≠ 0x0a) rest
      rw [hc] at hnot
      simpa using hnot
    have hfront : front = [] → behind = [] := by
      rintro rfl
      cases behind with
      | nil => rfl
      | cons d behind =>
        rw [heq] at hlen hhead
        rw [hhead d rfl] at hlen
        simp [gap, isBlank, Gap.after] at hlen
    refine ⟨0x2f :: 0x2f :: body ++ front, behind, ?_, ?_, ?_⟩
    · rw [append_assoc, ← heq]
      exact congrArg (0x2f :: 0x2f :: ·) takeWhile_append_dropWhile.symm
    · rw [Gap.after, hlen, hn]
      simp
      omega
    · rw [Gap.after, hn]
      refine .line (fun hmem => ?_) hfront (fun c hc => hhead c ?_) ih
      · simpa using mem_takeWhile_imp hmem
      · rw [heq, head?_append, hc]
        rfl
  | case4 c rest hc hline hblock n hn ih =>
    obtain ⟨front, behind, heq, hlen, ih⟩ := ih
    obtain ⟨rfl, hrest⟩ : c = 0x2f ∧ rest.head? = some 0x2a := by simpa using hblock
    obtain ⟨rest, rfl⟩ := head?_eq_some_iff.1 hrest
    have hend := blockEnd?_spec rest
    rw [show blockEnd? rest = some n from hn] at hend
    obtain ⟨body, more, rfl, rfl, hbody⟩ := hend
    have hmore : (0x2a :: (body ++ 0x2a :: 0x2f :: more)).drop (body.length + 2 + 1) = more := by
      simp
    rw [hmore] at heq hlen ih ⊢
    subst heq
    refine ⟨0x2f :: 0x2a :: body ++ 0x2a :: 0x2f :: front, behind, by simp, ?_, ?_⟩
    · simp [Gap.after, hlen]
      omega
    · exact .block hbody ih
  | case5 c rest hc hline hblock hn =>
    obtain ⟨rfl, hrest⟩ : c = 0x2f ∧ rest.head? = some 0x2a := by simpa using hblock
    obtain ⟨rest, rfl⟩ := head?_eq_some_iff.1 hrest
    have hend := blockEnd?_spec rest
    rw [show blockEnd? rest = none from hn] at hend
    exact ⟨_, [], (append_nil _).symm, rfl, .unended rfl hend⟩
  | case6 c rest => exact ⟨[], c :: rest, rfl, rfl, .nil⟩

/-! ## Tokens -/

/-- The text of a token that is written as `b`: words are put in composed form. -/
def spelled (k : TokenKind) (b : Bytes) : Bytes :=
  if k = .ident || k.isKeyword then Unicode.normalize b else b

/-- What is read as one token at the front of `b`, and its text. -/
structure Scanned.Sound (s : Scanned) (text b : Bytes) : Prop where
  pos : 0 < s.length
  le : s.length ≤ b.length
  kind : s.kind ≠ .eof
  text : text = spelled s.kind (b.take s.length)
  invalid : s.kind = .invalid ↔ s.cause.isSome = true
  code : ∀ c ∈ s.cause, c.code = .unknownChar ∨ c.code = .badNumber

lemma digitRun_le (b : Bytes) : digitRun b ≤ b.length := (takeWhile_sublist _).length_le

lemma fractionLength_le (b : Bytes) : fractionLength b ≤ b.length := by
  unfold fractionLength
  split
  next rest =>
    have := digitRun_le rest
    repeat' split
    all_goals simp only [length_cons]; omega
  next => exact Nat.zero_le _

lemma signLength_le (b : Bytes) : signLength b ≤ b.length := by
  cases b with
  | nil => exact Nat.le_refl _
  | cons c rest => rw [signLength]; split <;> simp

lemma exponentLength_le (b : Bytes) : (exponentLength b).1 ≤ b.length := by
  cases b with
  | nil => exact Nat.le_refl _
  | cons c rest =>
    have hsign := signLength_le rest
    have hdigits := digitRun_le (rest.drop (signLength rest))
    rw [length_drop] at hdigits
    rw [exponentLength, length_cons]
    split
    · dsimp only
      split
      · omega
      · omega
    · exact Nat.zero_le _

lemma mark_le (b : Bytes) : (if hasImaginaryMark b then 1 else 0) ≤ b.length := by
  cases b with
  | nil => exact Nat.le_refl _
  | cons => split <;> simp

variable {b : Bytes}

lemma closeNumber_sound {real : Bool} (hpos : 0 < n) (hle : n ≤ b.length) :
    (closeNumber real n (b.drop n)).Sound (b.take (closeNumber real n (b.drop n)).length) b := by
  have hmark := mark_le (b.drop n)
  rw [closeNumber]
  generalize (if hasImaginaryMark (b.drop n) = true then 1 else 0) = mark at hmark ⊢
  have hsuffix := (takeWhile_sublist isWordByte (l := (b.drop n).drop mark)).length_le
  simp only [length_drop] at hmark hsuffix
  split
  · refine ⟨?_, ?_, nofun, rfl, by simp, by simp [LexicalCause.code]⟩ <;> dsimp only <;> omega
  · repeat' split
    all_goals refine ⟨?_, ?_, nofun, rfl, by simp, by simp⟩ <;> dsimp only <;> omega

lemma digitRun_pos (hc : Bytes.isDigit c = true) : 0 < digitRun (c :: rest) := by
  simp [digitRun, isNumberByte, hc]

lemma startsNumber_lt (h : startsNumber c rest = true) : (if c = 0x2e then 1 else 0) <
      digitRun (c :: rest) + fractionLength ((c :: rest).drop (digitRun (c :: rest))) := by
  rcases Bool.or_eq_true_iff.1 h with h | h
  · rw [if_neg (by rintro rfl; cases h)]
    have hrun : 0 < digitRun (c :: rest) := digitRun_pos h
    omega
  · obtain ⟨rfl, h⟩ : c = 0x2e ∧ (rest.head?.map Bytes.isDigit).getD false = true := by simpa using h
    cases rest with
    | nil => cases h
    | cons d rest =>
      replace h : Bytes.isDigit d = true := h
      have hzero : digitRun (0x2e :: d :: rest) = 0 := rfl
      have hrun : 0 < digitRun (d :: rest) := digitRun_pos h
      rw [hzero, drop_zero, fractionLength, head?_cons]
      simp only [h, if_true]
      omega

lemma scanNumber_sound (h : startsNumber c rest = true) :
    (scanNumber (c :: rest)).Sound ((c :: rest).take (scanNumber (c :: rest)).length) (c :: rest) := by
  have hpos := startsNumber_lt h
  generalize c :: rest = b at hpos ⊢
  have hwhole := digitRun_le b
  have hfraction := fractionLength_le (b.drop (digitRun b))
  have hexponent := exponentLength_le (b.drop (digitRun b + fractionLength (b.drop (digitRun b))))
  simp only [length_drop] at hfraction hexponent
  rw [scanNumber]
  split
  · exact closeNumber_sound (by omega) (by omega)
  · refine ⟨?_, ?_, nofun, rfl, by simp, by simp [LexicalCause.code]⟩ <;> dsimp only <;> omega

lemma length_first (c : UInt8) (rest : Bytes) :
    0 < (Utf8.first (c :: rest)).2 ∧ (Utf8.first (c :: rest)).2 ≤ rest.length + 1 := by
  unfold Utf8.first Utf8.first?
  rcases rest with _ | ⟨a, _ | ⟨b, _ | ⟨d, rest⟩⟩⟩
  all_goals
    dsimp only
    repeat' split
    all_goals simp

lemma wordChar?_le (hn : wordChar? c rest = some n) : n ≤ rest.length := by
  have hfirst := length_first c rest
  unfold wordChar? at hn
  dsimp only at hn
  split_ifs at hn <;> cases hn <;> omega

lemma wordLength_le (b : Bytes) : wordLength b ≤ b.length := by
  fun_induction wordLength b with
  | case1 => exact Nat.le_refl _
  | case2 => exact Nat.zero_le _
  | case3 c rest n hn ih =>
    have hle := wordChar?_le hn
    rw [length_drop] at ih
    rw [length_cons]
    omega

lemma keyword?_cases (text : Bytes) {k : TokenKind}
    (hk : (TokenKind.keyword? text).getD .ident = k) : (k = .ident || k.isKeyword) = true := by
  subst hk
  cases h : TokenKind.keyword? text with
  | none => rfl
  | some k => simp [TokenKind.isKeyword, mem_of_find?_eq_some h]

lemma scanWord_sound (c : UInt8) (rest : Bytes) :
    (scanWord (c :: rest)).1.Sound (scanWord (c :: rest)).2 (c :: rest) := by
  have hfirst := length_first c rest
  have hword := wordLength_le (c :: rest)
  rw [scanWord]
  split
  next => exact ⟨hfirst.1, hfirst.2, nofun, rfl, by simp, by simp [LexicalCause.code]⟩
  next hn =>
    have hkind {k : TokenKind} := keyword?_cases (k := k)
      (Unicode.normalize ((c :: rest).take (wordLength (c :: rest))))
    dsimp only
    refine ⟨Nat.pos_of_ne_zero hn, hword, fun h => ?_, (if_pos (hkind rfl)).symm, ⟨fun h => ?_, nofun⟩,
      nofun⟩
    · exact absurd (hkind h) (by decide)
    · exact absurd (hkind h) (by decide)

lemma operator?_sound {k : TokenKind} (h : operator? c rest.head? = some (n, k)) :
    Scanned.Sound ⟨n, k, none⟩ ((c :: rest).take n) (c :: rest) := by
  have hnext {d : UInt8} (hd : rest.head? = some d) : 0 < rest.length := by
    obtain ⟨rest, rfl⟩ := head?_eq_some_iff.1 hd
    exact Nat.succ_pos _
  unfold operator? at h
  dsimp only at h
  split at h
  all_goals first
    | (cases h; exact ⟨by decide, by simp, by decide, rfl, by simp, nofun⟩)
    | (split at h
       · cases h; exact ⟨by decide, by have := hnext ‹_›; simp; omega, by decide, rfl, by simp, nofun⟩
       · cases h; try exact ⟨by decide, by simp, by decide, rfl, by simp, nofun⟩)
    | cases h

lemma scan_sound (c : UInt8) (rest : Bytes) : (scan c rest).1.Sound (scan c rest).2 (c :: rest) := by
  unfold scan
  dsimp only
  split
  next => exact scanWord_sound c rest
  next =>
    split
    next hnum => exact scanNumber_sound hnum
    next =>
      cases hop : operator? c rest.head? with
      | none => exact ⟨Nat.one_pos, by simp, nofun, rfl, by simp, by simp [LexicalCause.code]⟩
      | some x => exact operator?_sound hop

/-! ## Whole texts -/

def Reported (ls : List Lexeme) (code : Code) (span : Span) : Prop :=
  ∃ d ∈ diagnostics ls, d.code = code ∧ d.primary = span

variable {span : Span}

lemma reported_iff {ls : List Lexeme} {code : Code} :
    Reported ls code span ↔ ∃ l ∈ ls, ∃ f ∈ l.faults, f.cause.code = code ∧ f.span = span := by
  simp [Reported, diagnostics, LexicalFault.toDiagnostic, Diagnostic.error, and_assoc]

/-- What is read from the offset `i` on: blanks and comments, and a token or the end of the text. -/
structure Reads (o : Options) (b : Bytes) (i : Nat) (l : Lexeme) : Prop where
  start : i ≤ l.token.span.start
  gap : ∃ u, Trivia (l.token.kind = .eof) (b.extract i l.token.span.start) u ∧
    ∀ n ∈ u, ⟨.unterminatedComment, ⟨o.file, i + n, b.length⟩⟩ ∈ l.faults

/-- The token is some bytes of the text. -/
structure Fills (o : Options) (b : Bytes) (t : Token) : Prop where
  kind : t.kind ≠ .eof
  file : t.span.file = o.file
  start : t.span.start < t.span.stop
  stop : t.span.stop ≤ b.length
  text : t.text = spelled t.kind (b.extract t.span.start t.span.stop)

variable {o : Options} {B : Bytes} {off : Nat}

variable {g : Gap} {f : LexicalFault}

lemma mem_gapFaults : f ∈ gapFaults o off g ↔ ∃ n ∈ g.unterminated,
    f = ⟨.unterminatedComment, ⟨o.file, off + n, off + g.length⟩⟩ := by
  unfold gapFaults
  cases g.unterminated <;> simp

lemma mem_tokenFaults {s : Scanned}
    (hf : f ∈ tokenFaults o s span) : f.span = span ∧ (f.cause ∈ s.cause ∨ f.cause = .tooLong) := by
  rcases mem_append.1 hf with hf | hf
  · obtain ⟨c, hc, rfl⟩ := map_eq_some_iff.1 (mem_toList.1 hf)
    exact ⟨rfl, .inl hc⟩
  · split at hf
    · cases mem_singleton.1 hf
      exact ⟨rfl, .inr rfl⟩
    · cases hf

lemma marked_gapFaults (hf : f ∈ gapFaults o off g) :
    ¬ (f.cause.code = .unknownChar ∨ f.cause.code = .badNumber) := by
  obtain ⟨n, -, rfl⟩ := mem_gapFaults.1 hf
  exact not_or.2 ⟨nofun, nofun⟩

lemma marked_iff {s : Scanned} {text : Bytes} (hs : s.Sound text b) {span' : Span} :
    (∃ f ∈ gapFaults o off g ++ tokenFaults o s span,
      (f.cause.code = .unknownChar ∨ f.cause.code = .badNumber) ∧ f.span = span') ↔
      s.kind = .invalid ∧ span = span' := by
  constructor
  · rintro ⟨f, hf, hcode, rfl⟩
    rcases mem_append.1 hf with hf | hf
    · exact absurd hcode (marked_gapFaults hf)
    · obtain ⟨hspan, hcause | hcause⟩ := mem_tokenFaults hf
      · exact ⟨hs.invalid.2 (isSome_of_mem hcause), hspan.symm⟩
      · rw [hcause] at hcode
        exact absurd hcode (by decide)
  · rintro ⟨hkind, rfl⟩
    obtain ⟨c, hc⟩ := isSome_iff_exists.1 (hs.invalid.1 hkind)
    refine ⟨⟨c, span⟩, mem_append_right _ (mem_append_left _ ?_), hs.code c hc, rfl⟩
    rw [hc]
    exact mem_singleton_self _

lemma marked_of_mem {l : Lexeme} (hl : l ∈ lexemesFrom o off b) :
    (∃ f ∈ l.faults, (f.cause.code = .unknownChar ∨ f.cause.code = .badNumber) ∧ f.span = span) ↔
      l.token.kind = .invalid ∧ l.token.span = span := by
  fun_induction lexemesFrom o off b with
  | case1 off b g start h =>
    cases mem_singleton.1 hl
    exact ⟨fun ⟨f, hf, hcode, _⟩ => absurd hcode (marked_gapFaults hf), fun h => nomatch h.1⟩
  | case2 off b g start c rest h s _ ih =>
    rcases mem_cons.1 hl with rfl | hl
    · exact marked_iff (scan_sound c rest)
    · exact ih hl

/-- The gap at an offset of the text, and what stands behind it. -/
lemma gap_at (hoff : off ≤ B.length) : let g := gap (B.drop off)
    ∃ behind, (B.drop off).drop g.length = behind ∧ off + g.length + behind.length = B.length ∧
      Trivia (behind = []) (B.extract off (off + g.length)) g.unterminated ∧
      ∀ n ∈ g.unterminated, ⟨.unterminatedComment, ⟨o.file, off + n, B.length⟩⟩ ∈ gapFaults o off g := by
  intro g
  obtain ⟨front, behind, heq, hlen, hgap⟩ := gap_spec (B.drop off)
  replace hlen : g.length = front.length := hlen
  have hsum := congrArg List.length heq
  rw [length_drop, length_append] at hsum
  refine ⟨behind, by rw [heq, hlen, drop_left], by omega, ?_, fun n hn => ?_⟩
  · rw [extract_eq_take_drop, Nat.add_sub_cancel_left, heq, hlen, take_left]
    exact hgap
  · have hend := hgap.ends_of_mem hn
    rw [hend, length_nil] at hsum
    exact mem_gapFaults.2 ⟨n, hn, by rw [show off + g.length = B.length by omega]⟩

/-- The lexemes of a text from an offset on. -/
lemma lexemesFrom_tile (hb : B.drop off = b) (hoff : off ≤ B.length) :
    ∃ ls last, lexemesFrom o off b = ls ++ [last] ∧
      last.token = ⟨.eof, ⟨o.file, B.length, B.length⟩, []⟩ ∧ (∀ l ∈ ls, Fills o B l.token) ∧
      List.Forall₂ (Reads o B) (off :: ls.map (·.token.span.stop)) (ls ++ [last]) := by
  fun_induction lexemesFrom o off b with
  | case1 off b g start h =>
    subst hb
    obtain ⟨behind, hbehind, hlen, hgap, hreport⟩ := gap_at (o := o) hoff
    cases hbehind.symm.trans h
    have hstart : start = B.length := hlen
    refine ⟨[], _, rfl, by rw [hstart], nofun, .cons ?_ .nil⟩
    exact ⟨Nat.le_add_right _ _, _, hgap.mono fun _ => rfl, hreport⟩
  | case2 off b g start c rest h s span ih =>
    subst hb
    obtain ⟨behind, hbehind, hlen, hgap, hreport⟩ := gap_at (o := o) hoff
    cases hbehind.symm.trans h
    have hs : s.1.Sound s.2 (c :: rest) := scan_sound c rest
    have hpos := hs.pos
    have hle : start + s.1.length ≤ B.length := hlen ▸ Nat.add_le_add_left hs.le _
    have hfrom : B.drop start = c :: rest := by rw [← h, drop_drop]
    have hnext : B.drop (start + s.1.length) = rest.drop (s.1.length - 1) := by
      rw [← drop_drop, hfrom, drop_cons hpos]
    obtain ⟨ls, last, hls, hlast, hfills, hreads⟩ := ih hnext hle
    refine ⟨_ :: ls, last, congrArg _ hls, hlast, forall_mem_cons.2
      ⟨⟨hs.kind, rfl, Nat.lt_add_of_pos_right hpos, hle, ?_⟩, hfills⟩, .cons ?_ hreads⟩
    · rw [extract_eq_take_drop, Nat.add_sub_cancel_left, hfrom]
      exact hs.text
    · exact ⟨Nat.le_add_right _ _, _, hgap.mono nofun, fun n hn =>
        mem_append_left _ (hreport n hn)⟩

/-- The tokens of a text and the gaps before them follow one another to its end. The last token is the
end of the text, and every other is some of its bytes. An unended comment may stand before the end,
and is reported. What is reported as unknown or as no number are the invalid tokens. -/
theorem lexemes_tile (o : Options) (b : Bytes) : ∃ ts : List Token,
    tokens (lexemes o b) = ts ++ [⟨.eof, ⟨o.file, b.length, b.length⟩, []⟩] ∧
    (∀ t ∈ ts, Fills o b t) ∧
    List.Forall₂ (fun i (t : Token) => i ≤ t.span.start ∧ ∃ u,
        Trivia (t.kind = .eof) (b.extract i t.span.start) u ∧
        ∀ n ∈ u, Reported (lexemes o b) .unterminatedComment ⟨o.file, i + n, b.length⟩)
      (0 :: ts.map (·.span.stop)) (tokens (lexemes o b)) ∧
    ∀ span, (∃ t ∈ tokens (lexemes o b), t.kind = .invalid ∧ t.span = span) ↔
      Reported (lexemes o b) .unknownChar span ∨ Reported (lexemes o b) .badNumber span := by
  obtain ⟨ls, last, hls, hlast, hfills, hreads⟩ := lexemesFrom_tile (o := o)
    (show b.drop 0 = b from drop_zero) (Nat.zero_le _)
  replace hls : lexemes o b = ls ++ [last] := hls
  have htokens : tokens (lexemes o b) = tokens ls ++ [last.token] := by simp [tokens, hls]
  refine ⟨tokens ls, htokens.trans (by rw [hlast]), fun t ht => ?_, ?_, fun span => ?_⟩
  · obtain ⟨l, hl, rfl⟩ := List.mem_map.1 ht
    exact hfills l hl
  · have hmem := (forall₂_and_left (ls ++ [last]) _).2 ⟨fun _ => id, hreads.flip⟩
    rw [hls, tokens, tokens, forall₂_map_right_iff, List.map_map]
    refine hmem.flip.imp fun i l ⟨hl, hstart, u, hgap, hfault⟩ => ⟨hstart, u, hgap, fun n hn => ?_⟩
    exact reported_iff.2 ⟨l, hl, _, hfault n hn, rfl, rfl⟩
  · simp only [reported_iff, ← exists_or, ← and_or_left, ← or_and_right, tokens, List.mem_map,
      exists_exists_and_eq_and]
    exact exists_congr fun l => and_congr_right fun hl => (marked_of_mem hl).symm

end VecLang.Lexer
