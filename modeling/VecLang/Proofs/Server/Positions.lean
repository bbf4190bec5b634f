import Mathlib.Data.List.Basic
import Mathlib.Tactic.Lemma
import VecLang.Server.Position

/-!
# Offsets and positions

A place in a text is a byte offset, a line with a column of bytes, or a line with a number of
UTF-16 units. All three name the same places: a text is taken apart at a place into the lines
before, the front of a line and the rest (`Opens`), and each way to name the place is read off these
parts.
-/

namespace VecLang

open List

namespace Utf8

variable {b : Bytes} {c : Char} {n : Nat} {ps : List (Char × Bytes)}

/-- Bytes that are one character, whatever follows. A newline is no part of another character. -/
structure Reads (c : Char) (b : Bytes) : Prop where
  first : ∀ rest, first? (b ++ rest) = some (c, b.length)
  ne_nil : b ≠ []
  alone : newlineByte ∈ b → b = [newlineByte]

lemma reads_of_tails {a : UInt8} {tail : Bytes} (ha : ¬ a < 0x80)
    (htail : ∀ x ∈ tail, isTail x = true)
    (h : ∀ rest, first? (a :: tail ++ rest) = some (c, tail.length + 1)) :
    Reads c (a :: tail) where
  first := h
  ne_nil := cons_ne_nil _ _
  alone hmem := by
    rcases mem_cons.1 hmem with rfl | hmem
    · exact absurd (by decide) ha
    · cases htail _ hmem

lemma exists_reads (h : first? b = some (c, n)) :
    ∃ piece rest, b = piece ++ rest ∧ piece.length = n ∧ Reads c piece := by
  unfold first? at h
  -- The tests that were passed are all that the character depends on.
  repeat' split at h
  all_goals cases h
  case h_2.isTrue.refl a rest ha =>
    refine ⟨[a], rest, rfl, rfl, fun rest => ?_, by simp, by simp +contextual⟩
    simp [first?, ha]
  · refine ⟨[_, _], _, rfl, rfl, reads_of_tails ‹_› (by simp_all) fun rest => ?_⟩
    simp only [first?, cons_append, *, if_true, if_false]
    rfl
  · refine ⟨[_, _, _], _, rfl, rfl, reads_of_tails ‹_› (by simp_all) fun rest => ?_⟩
    simp only [first?, cons_append, *, if_true, if_false, Bool.false_eq_true]
    rfl
  · refine ⟨[_, _, _, _], _, rfl, rfl, reads_of_tails ‹_› (by simp_all) fun rest => ?_⟩
    simp only [first?, cons_append, *, if_true, if_false, Bool.false_eq_true]
    rfl

def text (ps : List (Char × Bytes)) : Bytes := ps.flatMap (·.2)

def Whole (ps : List (Char × Bytes)) : Prop := ∀ p ∈ ps, Reads p.1 p.2

lemma pieces_append (h : Whole ps) (rest : Bytes) :
    pieces (text ps ++ rest) = ps ++ pieces rest := by
  induction ps with
  | nil => rfl
  | cons p ps ih =>
    obtain ⟨c, source⟩ := p
    obtain ⟨hp, hps⟩ := forall_mem_cons.1 h
    obtain ⟨a, tail, rfl⟩ := exists_cons_of_ne_nil hp.ne_nil
    have hfirst := hp.first (text ps ++ rest)
    rw [cons_append] at hfirst
    have htext : text ((c, a :: tail) :: ps) ++ rest = a :: (tail ++ (text ps ++ rest)) := by
      simp [text]
    rw [htext, pieces, first, hfirst]
    simp [ih hps]

lemma exists_whole (h : valid b = true) : ∃ ps, Whole ps ∧ text ps = b := by
  fun_induction valid b with
  | case1 => exact ⟨[], nofun, rfl⟩
  | case2 => cases h
  | case3 a rest c n hfirst ih =>
    obtain ⟨ps, hps, htext⟩ := ih h
    obtain ⟨piece, more, hb, rfl, hreads⟩ := exists_reads hfirst
    obtain ⟨a', tail, rfl⟩ := exists_cons_of_ne_nil hreads.ne_nil
    cases hb
    refine ⟨(c, a :: tail) :: ps, forall_mem_cons.2 ⟨hreads, hps⟩, ?_⟩
    have hmore : text ps = more := htext.trans drop_left
    simp [text, ← hmore]

/-- What stands behind a newline is made of whole characters too. -/
lemma exists_whole_of_newline (front : Bytes) {back : Bytes} (h : Whole ps)
    (htext : text ps = front ++ newlineByte :: back) : ∃ qs, Whole qs ∧ text qs = back := by
  induction ps generalizing front with
  | nil => simp [text] at htext
  | cons p ps ih =>
    obtain ⟨hp, hps⟩ := forall_mem_cons.1 h
    rw [text, flatMap_cons, ← text] at htext
    rcases append_eq_append_iff.1 htext with ⟨more, hfront, hrest⟩ | ⟨more, hpiece, hback⟩
    · exact ih more hps hrest
    · cases more with
      | nil => exact ih [] hps hback.symm
      | cons x more =>
        obtain ⟨rfl, hmore⟩ := cons.inj hback
        have hone := hp.alone (hpiece ▸ by simp)
        rw [hpiece] at hone
        rcases front with _ | ⟨y, front⟩
        · cases hone
          exact ⟨ps, hps, hmore.symm⟩
        · simp at hone

end Utf8

/-! ## Newlines -/

/-- Where a line begins: at the front, or behind a newline. -/
def Opens (front : Bytes) : Prop := front = [] ∨ ∃ b, front = b ++ [newlineByte]

/-- Where a line ends. -/
def Closes (rest : Bytes) : Prop := rest = [] ∨ ∃ b, rest = newlineByte :: b

variable {front line rest b : Bytes} {off lo hi n : Nat} {f : File}

lemma newlineOffsets_append (off : Nat) (a b : Bytes) :
    newlineOffsets off (a ++ b) = newlineOffsets off a ++ newlineOffsets (off + a.length) b := by
  induction a generalizing off with
  | nil => rfl
  | cons c a ih => grind [newlineOffsets]

lemma length_newlineOffsets (off : Nat) (b : Bytes) :
    (newlineOffsets off b).length = b.count newlineByte := by
  induction b generalizing off with
  | nil => rfl
  | cons c b ih => grind [newlineOffsets]

lemma newlineOffsets_eq_nil (h : newlineByte ∉ b) : newlineOffsets off b = [] := by
  rw [← length_eq_zero_iff, length_newlineOffsets, count_eq_zero_of_not_mem h]

lemma mem_newlineOffsets {x : Nat} (h : x ∈ newlineOffsets off b) :
    off ≤ x ∧ x < off + b.length := by
  induction b generalizing off with
  | nil => cases h
  | cons c b ih => grind [newlineOffsets]

lemma newlinesBefore_eq {xs ys : List Nat} (hxs : ∀ x ∈ xs, x < off) (hys : ∀ y ∈ ys, off ≤ y)
    (hlo : lo ≤ xs.length) (hhi : xs.length ≤ hi) (hsize : hi ≤ (xs ++ ys).length) :
    newlinesBefore (xs ++ ys).toArray off lo hi = xs.length := by
  have hget (i : Nat) (hi : i < (xs ++ ys).length) :
      (xs ++ ys).toArray.getD i 0 < off ↔ i < xs.length := by
    rw [Array.getD_eq_getD_getElem?, List.getElem?_toArray, getElem?_append]
    grind [getElem_mem]
  generalize (xs ++ ys).toArray = index at hget
  fun_induction newlinesBefore index off lo hi with
  | case1 lo hi hlt mid hmid ih =>
    have := (hget mid (by omega)).1 hmid
    exact ih (by omega) hhi hsize
  | case2 lo hi hlt mid hmid ih =>
    have := mt (hget mid (by omega)).2 hmid
    exact ih hlo (by omega) (by omega)
  | case3 lo hi hlt => omega

lemma newlineOffsets_parts (hline : newlineByte ∉ line) (front rest : Bytes) :
    newlineOffsets 0 (front ++ line ++ rest) =
      newlineOffsets 0 front ++ newlineOffsets (front ++ line).length rest := by
  rw [newlineOffsets_append, newlineOffsets_append, newlineOffsets_eq_nil hline, append_nil,
    Nat.zero_add]

lemma ofOffset_eq (hfront : Opens front) (hline : newlineByte ∉ line) (rest : Bytes) :
    LineCol.ofOffset (newlineOffsets 0 (front ++ line ++ rest)).toArray (front ++ line).length =
      ⟨front.count newlineByte + 1, line.length + 1⟩ := by
  rw [newlineOffsets_parts hline]
  have hxs : ∀ x ∈ newlineOffsets 0 front, x < (front ++ line).length := fun x hx => by
    have := (mem_newlineOffsets hx).2
    rw [length_append]
    omega
  simp only [LineCol.ofOffset, List.size_toArray]
  rw [newlinesBefore_eq hxs (fun y hy => (mem_newlineOffsets hy).1) (Nat.zero_le _) (by simp)
    (Nat.le_refl _), length_newlineOffsets]
  rcases hfront with rfl | ⟨b, rfl⟩
  · simp
  · simp [newlineOffsets_append, newlineOffsets, length_newlineOffsets]

lemma line_eq (hfront : Opens front) (hline : newlineByte ∉ line) (hrest : Closes rest)
    (h : f.content = front ++ line ++ rest) : f.line (front.count newlineByte + 1) = line := by
  set k := front.count newlineByte with hk
  have hindex : f.lineIndex =
      (newlineOffsets 0 front ++ newlineOffsets (front ++ line).length rest).toArray := by
    rw [File.lineIndex, File.newlines, h, newlineOffsets_parts hline]
  have hsize : f.lineIndex.size = k + rest.count newlineByte := by
    simp [hindex, length_newlineOffsets, hk]
  have hstart : (if 1 < k + 1 then f.lineIndex.getD (k + 1 - 2) 0 + 1 else 0) = front.length := by
    rcases hfront with rfl | ⟨b, rfl⟩
    · simp [hk]
    · simp [hk, hindex, newlineOffsets_append, newlineOffsets, length_newlineOffsets]
  have hstop : (if k + 1 ≤ f.lineIndex.size then f.lineIndex.getD (k + 1 - 1) 0
      else f.content.length) = (front ++ line).length := by
    rcases hrest with rfl | ⟨b, rfl⟩
    · rw [if_neg (by simp [hsize]), h, append_nil]
    · simp [hk, hindex, newlineOffsets, length_newlineOffsets]
  simp only [File.line]
  rw [if_neg (by simp [hsize]), hstart, hstop, h, take_left, drop_left]

lemma lineStart_eq (hfront : Opens front) (rest : Bytes) :
    Server.lineStart (front.count newlineByte) (front ++ rest) = front.length := by
  rcases hfront with rfl | ⟨b, rfl⟩
  · rw [count_nil, Server.lineStart, length_nil]
  · rw [count_append, count_singleton_self, append_assoc]
    induction b with
    | nil => simp [Server.lineStart]
    | cons c b ih => grind [Server.lineStart]

lemma lastLine_eq (hfront : Opens front) (hline : newlineByte ∉ line) :
    Server.Position.lastLine (front ++ line) = line := by
  have hall : ∀ x ∈ line.reverse, decide (x ≠ newlineByte) = true := fun x hx =>
    decide_eq_true fun heq => hline (heq ▸ mem_reverse.1 hx)
  rw [Server.Position.lastLine, reverse_append, takeWhile_append_of_pos hall]
  rcases hfront with rfl | ⟨b, rfl⟩ <;> simp

lemma exists_first (b : Bytes) :
    ∃ line rest, b = line ++ rest ∧ newlineByte ∉ line ∧ Closes rest := by
  induction b with
  | nil => exact ⟨[], [], rfl, not_mem_nil, .inl rfl⟩
  | cons c b ih =>
    by_cases hc : c = newlineByte
    · exact ⟨[], c :: b, rfl, not_mem_nil, .inr ⟨b, by rw [hc]⟩⟩
    · obtain ⟨line, rest, rfl, hline, hrest⟩ := ih
      exact ⟨c :: line, rest, rfl, by simp [Ne.symm hc, hline], hrest⟩

/-- A text is taken apart at the beginning of the last line. -/
lemma exists_opens (b : Bytes) :
    ∃ front line, b = front ++ line ∧ Opens front ∧ newlineByte ∉ line := by
  obtain ⟨line, rest, hb, hline, hrest⟩ := exists_first b.reverse
  refine ⟨rest.reverse, line.reverse, reverse_injective (by simp [hb]), ?_, by simpa using hline⟩
  rcases hrest with rfl | ⟨more, rfl⟩
  · exact .inl rfl
  · exact .inr ⟨more.reverse, reverse_cons⟩

lemma exists_line (b : Bytes) (h : n ≤ b.count newlineByte) : ∃ front line rest,
    b = front ++ line ++ rest ∧ Opens front ∧ newlineByte ∉ line ∧ Closes rest ∧
      front.count newlineByte = n := by
  induction n with
  | zero =>
    obtain ⟨line, rest, rfl, hline, hrest⟩ := exists_first b
    exact ⟨[], line, rest, rfl, .inl rfl, hline, hrest, rfl⟩
  | succ n ih =>
    obtain ⟨front, line, rest, rfl, hfront, hline, hrest, rfl⟩ := ih (by omega)
    rcases hrest with rfl | ⟨more, rfl⟩
    · rw [append_nil, count_append, count_eq_zero_of_not_mem hline] at h
      omega
    · obtain ⟨next, rest, rfl, hnext, hrest⟩ := exists_first more
      refine ⟨front ++ line ++ [newlineByte], next, rest, by simp, .inr ⟨_, rfl⟩, hnext, hrest, ?_⟩
      simp [count_eq_zero_of_not_mem hline]

lemma join_lines (front rest : Bytes) (hfront : Opens front) (h : f.content = front ++ rest) :
    Bytes.join [newlineByte]
      ((range' (front.count newlineByte + 1) (rest.count newlineByte + 1)).map f.line) = rest := by
  induction hn : rest.count newlineByte generalizing front rest with
  | zero =>
    have hline := line_eq hfront (count_eq_zero.1 hn) (.inl rfl) (h.trans (append_nil _).symm)
    rw [range'_one, map_singleton, hline, Bytes.join]
  | succ n ih =>
    obtain ⟨line, more, rfl, hline, rfl | ⟨more, rfl⟩⟩ := exists_first rest
    · rw [append_nil, count_eq_zero_of_not_mem hline] at hn
      cases hn
    have hzero := count_eq_zero_of_not_mem hline
    have hfirst := line_eq hfront hline (.inr ⟨more, rfl⟩) (by rw [h, append_assoc])
    have hrest := ih (front ++ line ++ [newlineByte]) more (.inr ⟨_, rfl⟩) (by simp [h])
      (by simpa [hzero] using hn)
    rw [show (front ++ line ++ [newlineByte]).count newlineByte = front.count newlineByte + 1 by
      simp [hzero]] at hrest
    rw [range'_succ, map_cons, hfirst]
    rw [range'_succ, map_cons] at hrest ⊢
    rw [Bytes.join, hrest, append_assoc, singleton_append]

namespace Server

variable {ps : List (Char × Bytes)}

lemma unitsOf_text (h : Utf8.Whole ps) :
    unitsOf (Utf8.text ps) = ((ps.map (·.1)).map units).foldr (· + ·) 0 := by
  have hpieces := Utf8.pieces_append h []
  rw [append_nil, Utf8.pieces, append_nil] at hpieces
  rw [unitsOf, Utf8.chars, hpieces]

lemma columnBytes_eq (h : Utf8.Whole ps) (hno : newlineByte ∉ Utf8.text ps)
    (qs : List (Char × Bytes)) :
    columnBytes (unitsOf (Utf8.text ps)) (ps ++ qs) = (Utf8.text ps).length := by
  rw [unitsOf_text h]
  induction ps with
  | nil =>
    have hpos (c : Char) : 0 < units c := by
      rw [units]
      split <;> decide
    cases qs with
    | nil => rfl
    | cons q qs => simp [columnBytes, hpos, Utf8.text]
  | cons p ps ih =>
    obtain ⟨hp, hps⟩ := forall_mem_cons.1 h
    rw [Utf8.text, flatMap_cons, ← Utf8.text, mem_append, not_or] at hno
    have hhead : p.2.head? ≠ some newlineByte := fun heq => hno.1 (mem_of_mem_head? heq)
    rw [cons_append, columnBytes, if_neg (by simp [hhead]), map_cons, map_cons, foldr_cons,
      Nat.add_sub_cancel_left, ih hps hno.2, ← length_append]
    rfl

lemma position_eq (hfront : Opens front) (hline : newlineByte ∉ line) (rest : Bytes) :
    Position.ofOffset (front ++ line ++ rest) (front ++ line).length =
      ⟨front.count newlineByte, unitsOf line⟩ := by
  rw [Position.ofOffset, take_left, lastLine_eq hfront hline, count_append,
    count_eq_zero_of_not_mem hline, Nat.add_zero]

lemma offset_eq (hfront : Opens front) (hline : newlineByte ∉ line)
    (hwhole : ∃ ps, Utf8.Whole ps ∧ Utf8.text ps = line) (rest : Bytes) :
    Position.offset (front ++ line ++ rest) ⟨front.count newlineByte, unitsOf line⟩ =
      (front ++ line).length := by
  obtain ⟨ps, hps, rfl⟩ := hwhole
  have hsign : ¬ ((decide ((front.count newlineByte : Int) < 0) ||
      decide ((unitsOf (Utf8.text ps) : Int) < 0)) = true) := by simp
  rw [Position.offset, if_neg hsign]
  simp only [Int.toNat_natCast]
  rw [append_assoc, lineStart_eq hfront, drop_left, Utf8.pieces_append hps,
    columnBytes_eq hps hline, length_append]

/-- Byte offsets, lines with columns and lines with UTF-16 units name the same places. The line of
an offset is told by the newlines before it, and its column leads back to it from the beginning of
the line; the lines are what stands between the newlines. An offset behind whole characters comes
back from its position in units, and so does the position of a front of a line that is made of
whole characters from its offset. -/
theorem positions_agree (f : File) :
    (∀ o ≤ f.content.length,
      let p := LineCol.ofOffset f.lineIndex o
      (∀ (fs : FileSet) i, fs[i]? = some f → fs.resolve? ⟨i, o, o⟩ = some (p, p)) ∧
      p.line = 1 + (f.content.take o).count newlineByte ∧
      1 ≤ p.col ∧ lineStart (p.line - 1) f.content + p.col - 1 = o ∧
      (∀ o' ≤ f.content.length, LineCol.ofOffset f.lineIndex o' = p → o' = o) ∧
      (Position.ofOffset f.content o).line = p.line - 1) ∧
    Bytes.join [newlineByte] ((range' 1 (f.content.count newlineByte + 1)).map f.line) = f.content ∧
    (∀ o ≤ f.content.length, Utf8.valid (f.content.take o) = true →
      (Position.ofOffset f.content o).offset f.content = o) ∧
    ∀ n ≤ f.content.count newlineByte, ∀ front back, f.line (n + 1) = front ++ back →
      Utf8.valid front = true →
        Position.ofOffset f.content (Position.offset f.content ⟨n, unitsOf front⟩) =
          ⟨n, unitsOf front⟩ := by
  have hplace (o : Nat) (ho : o ≤ f.content.length) : ∃ front line rest,
      f.content = front ++ line ++ rest ∧ Opens front ∧ newlineByte ∉ line ∧
        o = (front ++ line).length := by
    obtain ⟨front, line, htake, hfront, hline⟩ := exists_opens (f.content.take o)
    refine ⟨front, line, f.content.drop o, ?_, hfront, hline, ?_⟩
    · rw [← htake, take_append_drop]
    · rw [← htake, length_take_of_le ho]
  have hresolve (o : Nat) (ho : o ≤ f.content.length) :
      let p := LineCol.ofOffset f.lineIndex o
      p.line = 1 + (f.content.take o).count newlineByte ∧
      1 ≤ p.col ∧ lineStart (p.line - 1) f.content + p.col - 1 = o := by
    obtain ⟨front, line, rest, hcontent, hfront, hline, rfl⟩ := hplace o ho
    rw [File.lineIndex, File.newlines, hcontent, ofOffset_eq hfront hline, take_left]
    refine ⟨?_, Nat.le_add_left .., ?_⟩
    · rw [count_append, count_eq_zero_of_not_mem hline]
      exact Nat.add_comm ..
    · rw [Nat.add_sub_cancel, append_assoc, lineStart_eq hfront, length_append]
      rfl
  refine ⟨fun o ho => ?_, ?_, fun o ho hvalid => ?_, fun n hn front back hparts hvalid => ?_⟩
  · obtain ⟨hline, hcol, hback⟩ := hresolve o ho
    refine ⟨fun fs i hi => ?_, hline, hcol, hback, fun o' ho' heq => ?_, ?_⟩
    · rw [FileSet.resolve?, hi, Option.map_some]
    · have hback' := (hresolve o' ho').2.2
      rw [heq, hback] at hback'
      exact hback'.symm
    · rw [hline]
      change (((f.content.take o).count newlineByte : Nat) : Int) = _
      omega
  · exact join_lines [] _ (.inl rfl) rfl
  · obtain ⟨front, line, rest, hcontent, hfront, hline, rfl⟩ := hplace o ho
    rw [hcontent, take_left] at hvalid
    rw [hcontent, position_eq hfront hline, offset_eq hfront hline ?_]
    obtain ⟨ps, hps, htext⟩ := Utf8.exists_whole hvalid
    rcases hfront with rfl | ⟨b, rfl⟩
    · exact ⟨ps, hps, htext⟩
    · rw [append_assoc] at htext
      exact Utf8.exists_whole_of_newline b hps htext
  · obtain ⟨before, line, rest, hcontent, hbefore, hline, hrest, rfl⟩ := exists_line f.content hn
    rw [line_eq hbefore hline hrest hcontent] at hparts
    subst hparts
    have hfront : newlineByte ∉ front := fun h => hline (mem_append_left _ h)
    rw [hcontent, ← append_assoc, append_assoc _ back,
      offset_eq hbefore hfront (Utf8.exists_whole hvalid), position_eq hbefore hfront]

end Server

end VecLang
