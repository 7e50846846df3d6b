import Wiring.Proofs.FlatDocument

namespace Wiring.Document

open Token

section Layout

variable (margin : Nat)

/-- The lines that follow another one. -/
def following : List Line → List Char
  | [] => []
  | l :: ls => '\n' :: (l.chars margin ++ following ls)

def document : List Line → List Char
  | [] => []
  | l :: ls => l.chars margin ++ following margin ls

/-- Having skipped what is no token, the scanner is at the first entry of the lines, where a key may stand, or
at the end of the text if there is none. -/
def Reaches (skipped : Bool × Place) : List Line → Prop
  | [] => skipped.2.rest = []
  | .entry e :: ls => ∃ l i, skipped = (true, ⟨e.chars ++ following margin ls, l, margin, i⟩)
  | .blank _ :: ls | .comment _ _ :: ls => Reaches skipped ls

end Layout

variable {margin : Nat}

section Gaps

variable (allowed : Bool) (l c i : Nat) (rest : List Char)

theorem gaps_blank (blanks : List Char)
    (h : blanks.all (fun d => d == ' ' || (d == '\t' && !allowed)) = true) :
    Scan.gaps false allowed false l c i (blanks ++ rest) =
      Scan.gaps false allowed false l (c + blanks.length) (i + bytes blanks) rest := by
  induction blanks generalizing c i with
  | nil => rfl
  | cons d r ih =>
    rw [List.all_cons, Bool.and_eq_true] at h
    have next := ih (c + 1) (i + d.utf8Size) h.2
    have noBreak : isBreak d = false := by
      have : d = ' ' ∨ d = '\t' := by
        have := h.1
        simp only [Bool.or_eq_true, Bool.and_eq_true, beq_iff_eq] at this
        exact this.imp id And.left
      rcases this with rfl | rfl <;> decide
    have skipped : (d == ' ' || (c == 0 && d == '\ufeff') || ((false || !allowed) && d == '\t')) = true := by
      have := h.1
      simp only [Bool.or_eq_true, Bool.and_eq_true, beq_iff_eq] at this ⊢
      rcases this with blank | ⟨tab, free⟩
      · exact .inl (.inl blank)
      · exact .inr ⟨.inr free, tab⟩
    rw [List.cons_append, Scan.gaps]
    simp only [noBreak, Bool.false_eq_true, if_false, Bool.false_and, Bool.false_or] at skipped ⊢
    rw [if_pos skipped, next, List.length_cons, bytes]
    congr 1 <;> omega

theorem gaps_blanks (blanks : Blanks) :
    Scan.gaps false false false l c i (blanks.1 ++ rest) =
      Scan.gaps false false false l (c + blanks.1.length) (i + bytes blanks.1) rest := by
  refine gaps_blank false l c i rest blanks.1 (List.all_eq_true.mpr fun d hd => ?_)
  rcases (isGap_iff d).mp (List.all_eq_true.mp blanks.2 d hd) with rfl | rfl <;> decide

theorem gaps_spaces (n : Nat) :
    Scan.gaps false allowed false l c i (spaces n ++ rest) =
      Scan.gaps false allowed false l (c + n) (i + bytes (spaces n)) rest := by
  have all : (spaces n).all (fun d => d == ' ' || (d == '\t' && !allowed)) = true := by
    refine List.all_eq_true.mpr fun d hd => ?_
    rw [List.eq_of_mem_replicate hd]
    simp
  rw [gaps_blank allowed l c i rest (spaces n) all, spaces, List.length_replicate]

/-- A comment goes to the end of its line. -/
theorem gaps_remark (remark : List Char) (h : remark.all inLine = true) :
    ∃ c' i', Scan.gaps false allowed true l c i (remark ++ rest) =
      Scan.gaps false allowed true l c' i' rest := by
  induction remark generalizing c i with
  | nil => exact ⟨c, i, rfl⟩
  | cons d r ih =>
    rw [List.all_cons, Bool.and_eq_true] at h
    obtain ⟨isAllowed, noBreak, _⟩ := (inLine_iff d).mp h.1
    obtain ⟨c', i', next⟩ := ih (c + 1) (i + d.utf8Size) h.2
    refine ⟨c', i', ?_⟩
    rw [List.cons_append, Scan.gaps]
    simp only [noBreak, isAllowed, Bool.false_eq_true, if_false, Bool.and_self, Bool.true_or, if_true]
    exact next

theorem gaps_hash : Scan.gaps false allowed false l c i ('#' :: rest) =
    Scan.gaps false allowed true l (c + 1) (i + 1) rest := by
  have hash : isBreak '#' = false := by decide
  have one : '#'.utf8Size = 1 := by decide
  rw [Scan.gaps]
  simp [hash, one]

theorem gaps_break (remark : Bool) : Scan.gaps false allowed remark l c i ('\n' :: rest) =
    Scan.gaps false true false (l + 1) 0 (i + 1) rest := by
  have feed : isBreak '\n' = true := by decide
  have one : '\n'.utf8Size = 1 := by decide
  rw [Scan.gaps]
  simp [feed, one]

/-- What else comes is not skipped. -/
theorem gaps_stop (d : Char) (gap : isGap d = false) (noBreak : isBreak d = false) (hash : d ≠ '#')
    (mark : c = 0 → d ≠ '\ufeff') :
    Scan.gaps false allowed false l c i (d :: rest) = (allowed, ⟨d :: rest, l, c, i⟩) := by
  have apart : d ≠ ' ' ∧ d ≠ '\t' := by simpa [isGap] using gap
  have noMark : ¬ (c = 0 ∧ d = '\ufeff') := fun h => mark h.1 h.2
  rw [Scan.gaps]
  simp [noBreak, apart, hash, noMark]

end Gaps

/-- Neither white space nor a comment begins like a scalar. -/
theorem Written.head (w : Written) : ∃ d r, w.chars = d :: r ∧ isGap d = false ∧ isBreak d = false ∧
    d ≠ '#' := by
  cases w with
  | plain text starts fits =>
    cases text with
    | nil => cases starts
    | cons d r =>
      simp only [startsPlain, Bool.and_eq_true, Bool.not_eq_true'] at starts
      simp only [goesOn, Bool.and_eq_true] at fits
      refine ⟨d, r, rfl, starts.1, ((inLine_iff d).mp fits.1.1.1).2.1, ?_⟩
      rintro rfl
      have indicator : Scan.isIndicator '#' = true := by decide
      simp [indicator] at starts
  | single text fits => exact ⟨'\'', _, rfl, by decide⟩
  | double text fits => exact ⟨'"', _, rfl, by decide⟩

theorem EntryLine.head (e : EntryLine) : ∃ d r, e.chars = d :: r ∧ isGap d = false ∧ isBreak d = false ∧
    d ≠ '#' ∧ d ≠ '\ufeff' := by
  obtain ⟨d, r, key, gap, noBreak, hash⟩ := e.key.head
  refine ⟨d, _, by rw [EntryLine.chars, key]; rfl, gap, noBreak, hash, ?_⟩
  rintro rfl
  have opens := e.opens
  simp [opensLine, key] at opens

private theorem reaches_next {ls : List Line}
    (h : ∀ l i, Reaches margin (Scan.gaps false true false l 0 i (document margin ls)) ls)
    (allowed remark : Bool) (l c i : Nat) :
    Reaches margin (Scan.gaps false allowed remark l c i (following margin ls)) ls := by
  cases ls with
  | nil => rfl
  | cons line ls =>
    rw [following, gaps_break]
    exact h (l + 1) (i + 1)

/-- From the start of a line, the first entry is reached. -/
theorem reaches_document (ls : List Line) (l i : Nat) :
    Reaches margin (Scan.gaps false true false l 0 i (document margin ls)) ls := by
  induction ls generalizing l i with
  | nil => rfl
  | cons line ls ih =>
    cases line with
    | blank n =>
      rw [document, Line.chars, gaps_spaces]
      exact reaches_next ih _ _ _ _ _
    | comment n remark =>
      obtain ⟨c', i', skipped⟩ := gaps_remark true l (0 + n + 1) (i + bytes (spaces n) + 1)
        (following margin ls) remark.1 remark.2
      rw [document, Line.chars, List.append_assoc, gaps_spaces, List.cons_append, gaps_hash, skipped]
      exact reaches_next ih _ _ _ _ _
    | entry e =>
      obtain ⟨d, r, chars, gap, noBreak, hash, mark⟩ := e.head
      rw [document, Line.chars, List.append_assoc, gaps_spaces, chars, List.cons_append,
        gaps_stop _ _ _ _ _ d gap noBreak hash (fun _ => mark), ← List.cons_append, ← chars, Nat.zero_add]
      exact ⟨l, _, rfl⟩

theorem reaches_following (ls : List Line) (allowed remark : Bool) (l c i : Nat) :
    Reaches margin (Scan.gaps false allowed remark l c i (following margin ls)) ls :=
  reaches_next (reaches_document ls) allowed remark l c i

/-- From the end of a value, the next entry is reached. -/
theorem reaches_tail (t : Tail) (ls : List Line) (l c i : Nat) :
    Reaches margin (Scan.gaps false false false l c i (t.chars ++ following margin ls)) ls := by
  cases t with
  | blank b =>
    rw [Tail.chars, gaps_blanks]
    exact reaches_following ls _ _ _ _ _
  | comment g remark =>
    obtain ⟨c', i', skipped⟩ := gaps_remark false l (c + g.1.length + 1) (i + bytes g.1 + 1)
      (following margin ls) remark.1 remark.2
    rw [Tail.chars, List.append_assoc, gaps_blanks _ _ _ _ ⟨g.1, g.2.1⟩, List.cons_append, gaps_hash,
      skipped]
    exact reaches_following ls _ _ _ _ _

section Plain

variable (indent : Nat) (done : List Char) (pending : Pending) (l c i : Nat) (rest : List Char)

theorem plain_stop (d : Char) (h : inLine d = true) (gap : isGap d = false)
    (ends : endsPlain false indent pending c (d :: rest) = true) :
    plain false indent done pending l c i (d :: rest) =
      some ⟨done.reverse, ⟨d :: rest, l, c, i⟩, pending.inBreaks⟩ := by
  obtain ⟨allowed, noBreak, _⟩ := (inLine_iff d).mp h
  rw [plain]
  simp [allowed, noBreak, gap, ends]

theorem plain_spaces (first : Option Char) (more : List Char) (n : Nat) :
    plain false indent done (.breaks first more) l c i (spaces n ++ rest) =
      plain false indent done (.breaks first more) l (c + n) (i + bytes (spaces n)) rest := by
  induction n generalizing c i with
  | zero => rfl
  | succ n ih =>
    have allowed : isAllowed ' ' = true := by decide
    have gap : isGap ' ' = true := by decide
    have one : bytes (spaces (n + 1)) = ' '.utf8Size + bytes (spaces n) := by
      simp [spaces, List.replicate_succ, bytes]
    rw [one, spaces, List.replicate_succ, List.cons_append, plain]
    simp only [allowed, gap, Bool.not_true, Bool.false_eq_true, if_false, if_true]
    refine (ih (c + 1) (i + ' '.utf8Size)).trans ?_
    congr 1 <;> omega

theorem plain_break : plain false indent done pending l c i ('\n' :: rest) =
    plain false indent done (pending.lineBreak '\n') (l + 1) 0 (i + 1) rest := by
  have allowed : isAllowed '\n' = true := by decide
  have gap : isGap '\n' = false := by decide
  have feed : isBreak '\n' = true := by decide
  have one : '\n'.utf8Size = 1 := by decide
  rw [plain]
  simp [allowed, gap, feed, one]

theorem plain_end : plain false indent done pending l c i [] =
    some ⟨done.reverse, ⟨[], l, c, i⟩, pending.inBreaks⟩ := rfl

end Plain

/-- The scalar has ended in front of this text. What it has taken of the text does not matter for what is
skipped next. -/
def EndsBefore (scanned : Option Scanned) (text : List Char) (skipped : Bool × Place) : Prop :=
  ∃ p newLine, scanned = some ⟨text, p, newLine⟩ ∧
    Scan.gaps false newLine false p.line p.column p.index p.rest = skipped

private theorem plain_next {done : List Char} {ls : List Line}
    (h : ∀ first more l i, EndsBefore
      (plain false (margin + 1) done (.breaks first more) l 0 i (document margin ls)) done.reverse
      (Scan.gaps false true false l 0 i (document margin ls)))
    (pending : Pending) (l c i : Nat) :
    EndsBefore (plain false (margin + 1) done pending l c i (following margin ls)) done.reverse
      (Scan.gaps false pending.inBreaks false l c i (following margin ls)) := by
  cases ls with
  | nil => exact ⟨_, _, plain_end _ _ _ _ _ _, rfl⟩
  | cons line ls =>
    rw [following, plain_break, gaps_break]
    cases pending <;> exact h _ _ _ _

/-- A scalar without quotes does not go on in a line that is not indented further, nor in a comment. -/
theorem plain_document (done : List Char) (ls : List Line) (first : Option Char) (more : List Char)
    (l i : Nat) :
    EndsBefore (plain false (margin + 1) done (.breaks first more) l 0 i (document margin ls)) done.reverse
      (Scan.gaps false true false l 0 i (document margin ls)) := by
  -- Blank lines are taken as part of the scalar, until it turns out that nothing more of it follows.
  induction ls generalizing first more l i with
  | nil => exact ⟨_, _, plain_end _ _ _ _ _ _, rfl⟩
  | cons line ls ih =>
    cases line with
    | blank n =>
      rw [document, Line.chars, plain_spaces, gaps_spaces]
      exact plain_next ih (.breaks first more) _ _ _
    | comment n remark =>
      rw [document, Line.chars, List.append_assoc, plain_spaces, gaps_spaces, List.cons_append,
        plain_stop _ _ _ _ _ _ _ '#' (by decide) (by decide) (by simp [endsPlain])]
      exact ⟨_, _, rfl, rfl⟩
    | entry e =>
      obtain ⟨d, r, chars, gap, _, _, _⟩ := e.head
      have inside : inLine d = true := by
        have all := e.all_inLine
        rw [chars, List.all_cons, Bool.and_eq_true] at all
        exact all.1
      rw [document, Line.chars, List.append_assoc, plain_spaces, gaps_spaces, chars, List.cons_append,
        plain_stop _ _ _ _ _ _ _ d inside gap (by simp [endsPlain, Pending.inBreaks])]
      exact ⟨_, _, rfl, rfl⟩

theorem inBreaks_blank (pending : Pending) (d : Char) :
    (pending.blank d).inBreaks = pending.inBreaks := by
  cases pending <;> rfl

theorem blank_ne_none (pending : Pending) (d : Char) : pending.blank d ≠ .none := by
  cases pending <;> exact nofun

/-- Blanks are kept in mind, in case the scalar goes on after them. -/
theorem plain_blank (indent : Nat) (done : List Char) (pending : Pending) (l c i : Nat) (d : Char)
    (rest : List Char) (gap : isGap d = true) (inside : pending.inBreaks = false) :
    plain false indent done pending l c i (d :: rest) =
      plain false indent done (pending.blank d) l (c + 1) (i + d.utf8Size) rest := by
  have allowed : isAllowed d = true := ((inLine_iff d).mp (inLine_of_isGap gap)).1
  rw [plain]
  simp [allowed, gap, inside]

theorem plain_blanks (indent : Nat) (done : List Char) (pending : Pending) (l c i : Nat)
    (rest blanks : List Char) (gaps : blanks.all isGap = true) (inside : pending.inBreaks = false) :
    ∃ pending', plain false indent done pending l c i (blanks ++ rest) =
        plain false indent done pending' l (c + blanks.length) (i + bytes blanks) rest ∧
      pending'.inBreaks = false ∧ (blanks ≠ [] ∨ pending ≠ .none → pending' ≠ .none) := by
  induction blanks generalizing pending c i with
  | nil => exact ⟨pending, rfl, inside, fun h => h.resolve_left (absurd rfl)⟩
  | cons d r ih =>
    rw [List.all_cons, Bool.and_eq_true] at gaps
    obtain ⟨pending', read, inside', some⟩ := ih (pending.blank d) (c + 1) (i + d.utf8Size) gaps.2
      ((inBreaks_blank pending d).trans inside)
    refine ⟨pending', ?_, inside', fun _ => some (.inr (blank_ne_none pending d))⟩
    rw [List.cons_append, plain_blank indent done pending l c i d _ gaps.1 inside, read, List.length_cons,
      bytes]
    congr 1 <;> omega

/-- At the end of the line, the scalar is complete. -/
theorem plain_tail (done : List Char) (t : Tail) (ls : List Line) (l c i : Nat) :
    EndsBefore (plain false (margin + 1) done .none l c i (t.chars ++ following margin ls)) done.reverse
      (Scan.gaps false false false l c i (t.chars ++ following margin ls)) := by
  cases t with
  | blank b =>
    obtain ⟨pending, read, inside, _⟩ := plain_blanks (margin + 1) done .none l c i
      (following margin ls) b.1 b.2 rfl
    have next := @plain_next margin done ls (plain_document done ls) pending l (c + b.1.length)
      (i + bytes b.1)
    rw [inside] at next
    rw [Tail.chars, read, gaps_blanks]
    exact next
  | comment g remark =>
    obtain ⟨pending, read, inside, some⟩ := plain_blanks (margin + 1) done .none l c i
      ('#' :: (remark.1 ++ following margin ls)) g.1 g.2.1 rfl
    have ends : endsPlain false (margin + 1) pending (c + g.1.length)
        ('#' :: (remark.1 ++ following margin ls)) = true := by
      cases pending with
      | none => exact absurd rfl (some (.inl g.2.2))
      | gap blanks => simp [endsPlain]
      | breaks first more => simp [endsPlain]
    rw [Tail.chars, List.append_assoc, List.cons_append, read, gaps_blanks _ _ _ _ ⟨g.1, g.2.1⟩,
      plain_stop _ _ _ _ _ _ _ '#' (by decide) (by decide) ends]
    exact ⟨_, _, rfl, by rw [inside]⟩

theorem text_blank (pending : Pending) (d : Char) (inside : pending.inBreaks = false) :
    (pending.blank d).text = pending.text ++ [d] := by
  cases pending with
  | none => rfl
  | gap blanks => rfl
  | breaks first more => cases inside

theorem blankNext_append {r : List Char} (rest : List Char) (some : r ≠ []) :
    blankNext (r ++ rest) = blankNext r := by
  cases r with
  | nil => exact absurd rfl some
  | cons d r => rfl

theorem markerNext_of_column {c : Nat} (chars : List Char) (h : c ≠ 0) : markerNext c chars = false := by
  simp [markerNext, h]

/-- The text of a scalar without quotes is read to its end. -/
theorem plain_text (indent l : Nat) (text rest : List Char) (blank : Bool) (done : List Char)
    (pending : Pending) (c i : Nat) (fits : goesOn blank text = true) (inside : pending.inBreaks = false)
    (kept : blank = false → pending = .none) (noMarker : markerNext c (text ++ rest) = false) :
    plain false indent done pending l c i (text ++ rest) =
      plain false indent (text.reverse ++ (pending.text.reverse ++ done)) .none l (c + text.length)
        (i + bytes text) rest := by
  induction text generalizing blank done pending c i with
  | nil =>
    rw [kept (by simpa [goesOn] using fits)]
    rfl
  | cons d r ih =>
    simp only [goesOn, Bool.and_eq_true, Bool.not_eq_true'] at fits
    obtain ⟨⟨⟨fit, noHash⟩, noColon⟩, more⟩ := fits
    obtain ⟨allowed, noBreak, _⟩ := (inLine_iff d).mp fit
    have later : markerNext (c + 1) (r ++ rest) = false := markerNext_of_column _ (Nat.succ_ne_zero c)
    have place : c + 1 + r.length = c + (r.length + 1) ∧
        i + d.utf8Size + bytes r = i + (d.utf8Size + bytes r) := by omega
    rw [List.cons_append, List.length_cons, bytes, ← place.1,
      ← place.2]
    cases gap : isGap d with
    | true =>
      rw [gap] at more
      have kept' : true = false → pending.blank d = .none := fun h => absurd h (by decide)
      rw [plain_blank indent done pending l c i d _ gap inside, ih true done _ _ _ more
        ((inBreaks_blank pending d).trans inside) kept' later, text_blank pending d inside]
      simp
    | false =>
      rw [gap] at more
      have colon : (d == ':' && blankNext (r ++ rest)) = false := by
        by_cases last : r = []
        · have other : d ≠ ':' := by simpa [last, blankNext] using noColon
          simp [other]
        · rwa [blankNext_append rest last]
      have goes : endsPlain false indent pending c (d :: (r ++ rest)) = false := by
        have hash : d = '#' → pending = .none := by
          rintro rfl
          exact kept (by simpa using noHash)
        rw [List.cons_append] at noMarker
        by_cases h : d = '#'
        · simp [endsPlain, Pending.inBreaks, noMarker, hash h, colon]
        · simp [endsPlain, inside, noMarker, h, colon]
      rw [plain]
      simp only [allowed, gap, noBreak, goes, Bool.not_true, Bool.false_eq_true, if_false,
        Bool.false_and]
      rw [ih false _ .none _ _ more rfl (fun _ => rfl) later]
      simp [Pending.text]

theorem quoted_blank (single : Bool) (done : List Char) (pending : Pending) (l c i : Nat) (d : Char)
    (rest : List Char) (gap : isGap d = true) :
    quoted single done pending .none l c i (d :: rest) =
      quoted single done (pending.blank d) .none l (c + 1) (i + d.utf8Size) rest := by
  have allowed : isAllowed d = true := ((inLine_iff d).mp (inLine_of_isGap gap)).1
  rw [quoted]
  simp [allowed, gap]

theorem quoted_char (single : Bool) (done : List Char) (pending : Pending) (l c i : Nat) (d : Char)
    (rest : List Char) (fit : inLine d = true) (gap : isGap d = false) (column : c ≠ 0)
    (own : if single then d ≠ '\'' else d ≠ '"' ∧ d ≠ '\\') :
    quoted single done pending .none l c i (d :: rest) =
      quoted single (d :: (pending.text.reverse ++ done)) .none .none l (c + 1) (i + d.utf8Size) rest := by
  obtain ⟨allowed, noBreak, _⟩ := (inLine_iff d).mp fit
  rw [quoted]
  cases single with
  | true =>
    simp only [if_true] at own
    simp [allowed, gap, noBreak, markerNext_of_column _ column, own]
  | false =>
    simp only [Bool.false_eq_true, if_false] at own
    simp [allowed, gap, noBreak, markerNext_of_column _ column, own]

/-- A character that is none of the quotes' own is one of the text. -/
theorem quoted_more (single : Bool) (done : List Char) (pending : Pending) (l c i : Nat) (d : Char)
    (rest : List Char) (fit : inLine d = true) (inside : pending.inBreaks = false) (column : c ≠ 0)
    (own : if single then d ≠ '\'' else d ≠ '"' ∧ d ≠ '\\') :
    ∃ done' pending', quoted single done pending .none l c i (d :: rest) =
        quoted single done' pending' .none l (c + 1) (i + d.utf8Size) rest ∧
      pending'.inBreaks = false ∧
      done'.reverse ++ pending'.text = done.reverse ++ (pending.text ++ [d]) := by
  cases gap : isGap d with
  | true =>
    refine ⟨done, pending.blank d, quoted_blank single done pending l c i d rest gap,
      (inBreaks_blank pending d).trans inside, ?_⟩
    rw [text_blank pending d inside]
  | false =>
    refine ⟨d :: (pending.text.reverse ++ done), .none,
      quoted_char single done pending l c i d rest fit gap column own, rfl, ?_⟩
    simp [Pending.text]

/-- In single quotes, a quote that is doubled is one of the text. -/
theorem quoted_doubled (done : List Char) (pending : Pending) (l c i : Nat) (rest : List Char)
    (column : c ≠ 0) :
    quoted true done pending .none l c i ('\'' :: '\'' :: rest) =
      quoted true ('\'' :: (pending.text.reverse ++ done)) .none .none l (c + 1 + 1) (i + 1 + 1) rest := by
  have allowed : isAllowed '\'' = true := by decide
  have gap : isGap '\'' = false := by decide
  have noBreak : isBreak '\'' = false := by decide
  have one : '\''.utf8Size = 1 := by decide
  rw [quoted]
  simp only [allowed, gap, noBreak, markerNext_of_column _ column, one, Bool.not_true,
    Bool.false_eq_true, if_false, Bool.and_self, beq_self_eq_true, if_true]
  rw [quoted]
  simp [allowed, one]

/-- Where a text in single quotes ends, no other quote follows. -/
theorem quoted_single (l : Nat) (text rest : List Char) (done : List Char) (pending : Pending) (c i : Nat)
    (fits : text.all inLine = true) (inside : pending.inBreaks = false) (column : c ≠ 0)
    (ends : rest.head?.all (fun d => isAllowed d && d != '\'') = true) :
    quoted true done pending .none l c i (Written.doubled text ++ '\'' :: rest) =
      some ⟨done.reverse ++ (pending.text ++ text), ⟨rest, l, c + ((Written.doubled text).length + 1),
        i + (bytes (Written.doubled text) + 1)⟩, false⟩ := by
  have allowed : isAllowed '\'' = true := by decide
  have one : '\''.utf8Size = 1 := by decide
  induction text generalizing done pending c i with
  | nil =>
    have gap : isGap '\'' = false := by decide
    have noBreak : isBreak '\'' = false := by decide
    rw [Written.doubled, List.flatMap_nil, List.nil_append, quoted]
    simp only [allowed, gap, noBreak, markerNext_of_column _ column, Bool.not_true, Bool.false_eq_true,
      if_false, Bool.and_self, beq_self_eq_true, if_true, one]
    cases rest with
    | nil =>
      rw [quoted]
      simp [bytes]
    | cons d r =>
      have own : isAllowed d = true ∧ d ≠ '\'' := by simpa using ends
      rw [quoted]
      simp [own, bytes]
  | cons d r ih =>
    rw [List.all_cons, Bool.and_eq_true] at fits
    have split : Written.doubled (d :: r) = (if d = '\'' then [d, d] else [d]) ++ Written.doubled r := rfl
    by_cases quote : d = '\''
    · rw [split, if_pos quote, quote]
      refine (quoted_doubled done pending l c i _ column).trans
        ((ih ('\'' :: (pending.text.reverse ++ done)) .none _ _ fits.2 rfl (Nat.succ_ne_zero _)).trans ?_)
      simp [Pending.text, bytes, one]
      omega
    · obtain ⟨done', pending', step, inside', text⟩ :=
        quoted_more true done pending l c i d (Written.doubled r ++ '\'' :: rest) fits.1 inside column quote
      rw [split, if_neg quote]
      refine step.trans ((ih done' pending' _ _ fits.2 inside' (Nat.succ_ne_zero _)).trans ?_)
      rw [← List.append_assoc, text]
      simp [bytes]
      omega

theorem quoted_double (l : Nat) (text rest : List Char) (done : List Char) (pending : Pending) (c i : Nat)
    (fits : text.all (fun d => inLine d && d != '"' && d != '\\') = true)
    (inside : pending.inBreaks = false) (column : c ≠ 0) :
    quoted false done pending .none l c i (text ++ '"' :: rest) =
      some ⟨done.reverse ++ (pending.text ++ text), ⟨rest, l, c + (text.length + 1),
        i + (bytes text + 1)⟩, false⟩ := by
  induction text generalizing done pending c i with
  | nil =>
    have allowed : isAllowed '"' = true := by decide
    have gap : isGap '"' = false := by decide
    have noBreak : isBreak '"' = false := by decide
    have one : '"'.utf8Size = 1 := by decide
    rw [List.nil_append, quoted]
    simp [allowed, gap, noBreak, markerNext_of_column _ column, one, bytes]
  | cons d r ih =>
    rw [List.all_cons, Bool.and_eq_true] at fits
    obtain ⟨own, more⟩ := fits
    simp only [Bool.and_eq_true, bne_iff_ne, ne_eq] at own
    obtain ⟨⟨fit, noQuote⟩, noEscape⟩ := own
    obtain ⟨done', pending', step, inside', text⟩ :=
      quoted_more false done pending l c i d (r ++ '"' :: rest) fit inside column ⟨noQuote, noEscape⟩
    refine step.trans ((ih done' pending' _ _ more inside' (Nat.succ_ne_zero _)).trans ?_)
    rw [← List.append_assoc, text]
    simp [bytes]
    omega

theorem follows_of_blankNext {rest : List Char} (h : blankNext rest = true) :
    rest.head?.all (fun d => isAllowed d && d != '\'') = true := by
  cases rest with
  | nil => rfl
  | cons d r =>
    have fit : (isAllowed d && d != '\'') = true := by
      simp only [blankNext, isGap, isBreak, Bool.or_eq_true, beq_iff_eq] at h
      rcases h with (rfl | rfl) | (rfl | rfl) | rfl <;> decide
    exact fit

theorem blankNext_gap (g : Gap) (rest : List Char) : blankNext (g.1 ++ rest) = true := by
  obtain ⟨chars, gaps, some⟩ := g
  cases chars with
  | nil => exact absurd rfl some
  | cons d r =>
    rw [List.all_cons, Bool.and_eq_true] at gaps
    simp [blankNext, gaps.1]

theorem blankNext_following (ls : List Line) : blankNext (following margin ls) = true := by
  cases ls <;> rfl

theorem Tail.blankNext (t : Tail) (ls : List Line) :
    blankNext (t.chars ++ following margin ls) = true := by
  cases t with
  | comment g remark =>
    rw [chars, List.append_assoc]
    exact blankNext_gap g _
  | blank b =>
    obtain ⟨chars, gaps⟩ := b
    by_cases none : chars = []
    · subst none
      exact blankNext_following ls
    · exact blankNext_gap ⟨chars, gaps, none⟩ _

theorem Assigned.blankNext (a : Assigned) (t : Tail) (ls : List Line) :
    blankNext (a.chars ++ (t.chars ++ following margin ls)) = true := by
  cases a with
  | nothing => exact t.blankNext ls
  | value g w =>
    rw [chars, List.append_assoc]
    exact blankNext_gap g _

theorem follows_pad (pad : Blanks) (r : List Char) :
    (pad.1 ++ ':' :: r).head?.all (fun d => isAllowed d && d != '\'') = true := by
  obtain ⟨chars, gaps⟩ := pad
  by_cases none : chars = []
  · subst none
    change (isAllowed ':' && ':' != '\'') = true
    decide
  · exact follows_of_blankNext (blankNext_gap ⟨chars, gaps, none⟩ _)

namespace Written

/-- How the scanner reads a scalar that is written so. -/
def read (w : Written) (indent : Nat) (p : Place) : Option Scanned :=
  match w with
  | plain .. => Token.plain false indent [] .none p.line p.column p.index p.rest
  | single .. => quoted true [] .none .none p.line (p.column + 1) (p.index + 1) p.rest.tail
  | double .. => quoted false [] .none .none p.line (p.column + 1) (p.index + 1) p.rest.tail

/-- A scalar in quotes ends right after them. -/
theorem read_quoted (w : Written) (rest : List Char) (indent l c i : Nat)
    (quotes : w.scalar.plain = false)
    (follows : rest.head?.all (fun d => isAllowed d && d != '\'') = true) :
    w.read indent ⟨w.chars ++ rest, l, c, i⟩ = some ⟨w.scalar.text.toList,
      ⟨rest, l, c + w.chars.length, i + bytes w.chars⟩, false⟩ := by
  have apostrophe : '\''.utf8Size = 1 := by decide
  have quote : '"'.utf8Size = 1 := by decide
  cases w with
  | plain => cases quotes
  | single text fits =>
    have all := quoted_single l text rest [] .none (c + 1) (i + 1) fits rfl (Nat.succ_ne_zero c) follows
    have size : c + (single text fits).chars.length = c + 1 + ((doubled text).length + 1) ∧
        i + bytes (single text fits).chars = i + 1 + (bytes (doubled text) + 1) := by
      simp [chars, bytes, apostrophe]
      omega
    rw [size.1, size.2]
    simpa [read, chars, scalar, Pending.text] using all
  | double text fits =>
    have all := quoted_double l text rest [] .none (c + 1) (i + 1) fits rfl (Nat.succ_ne_zero c)
    have size : c + (double text fits).chars.length = c + 1 + (text.length + 1) ∧
        i + bytes (double text fits).chars = i + 1 + (bytes text + 1) := by
      simp [chars, bytes, quote]
      omega
    rw [size.1, size.2]
    simpa [read, chars, scalar, Pending.text] using all

/-- What follows a key is skipped up to its colon. -/
theorem read_key (w : Written) (pad : Blanks) (r : List Char) (indent l c i : Nat)
    (blank : blankNext r = true) (noMarker : markerNext c (w.chars ++ (pad.1 ++ ':' :: r)) = false) :
    ∃ p, w.read indent ⟨w.chars ++ (pad.1 ++ ':' :: r), l, c, i⟩ =
        some ⟨w.scalar.text.toList, p, false⟩ ∧
      p.line = l ∧ p.index ≤ i + bytes (w.chars ++ pad.1) ∧
      Scan.gaps false false false p.line p.column p.index p.rest =
        (false, ⟨':' :: r, l, c + w.chars.length + pad.1.length, i + bytes (w.chars ++ pad.1)⟩) := by
  have colon (c i : Nat) : Scan.gaps false false false l c i (':' :: r) =
      (false, ⟨':' :: r, l, c, i⟩) :=
    gaps_stop false l c i r ':' (by decide) (by decide) (by decide) (fun _ => by decide)
  have inQuotes (quotes : w.scalar.plain = false) :=
    read_quoted w (pad.1 ++ ':' :: r) indent l c i quotes (follows_pad pad r)
  rw [bytes_append]
  cases w with
  | plain text starts fits =>
    obtain ⟨pending, blanks, inside, _⟩ := plain_blanks indent text.reverse .none l (c + text.length)
      (i + bytes text) (':' :: r) pad.1 pad.2 rfl
    have ends : endsPlain false indent pending (c + text.length + pad.1.length) (':' :: r) = true := by
      simp [endsPlain, blank]
    have all := plain_text indent l text (pad.1 ++ ':' :: r) false [] .none c i fits rfl (fun _ => rfl)
      noMarker
    refine ⟨⟨':' :: r, l, c + text.length + pad.1.length, i + bytes text + bytes pad.1⟩, ?_, rfl,
      by simp [chars, Nat.add_assoc], ?_⟩
    · refine all.trans ?_
      have := plain_stop indent text.reverse pending l (c + text.length + pad.1.length)
        (i + bytes text + bytes pad.1) r ':' (by decide) (by decide) ends
      simpa [Pending.text, blanks, inside, scalar] using this
    · rw [colon, chars, Nat.add_assoc i]
  | single text fits =>
    refine ⟨_, inQuotes rfl, rfl, by simp, ?_⟩
    rw [gaps_blanks, colon, Nat.add_assoc i]
  | double text fits =>
    refine ⟨_, inQuotes rfl, rfl, by simp, ?_⟩
    rw [gaps_blanks, colon, Nat.add_assoc i]

/-- From a value, the next entry is reached. -/
theorem read_value (w : Written) (t : Tail) (ls : List Line) (l c i : Nat) (column : c ≠ 0) :
    ∃ p newLine, w.read (margin + 1) ⟨w.chars ++ (t.chars ++ following margin ls), l, c, i⟩ =
        some ⟨w.scalar.text.toList, p, newLine⟩ ∧
      Reaches margin (Scan.gaps false newLine false p.line p.column p.index p.rest) ls := by
  have inQuotes (quotes : w.scalar.plain = false) :=
    read_quoted w (t.chars ++ following margin ls) (margin + 1) l c i quotes
      (follows_of_blankNext (t.blankNext ls))
  cases w with
  | plain text starts fits =>
    have all := plain_text (margin + 1) l text (t.chars ++ following margin ls) false [] .none c i fits
      rfl (fun _ => rfl) (markerNext_of_column _ column)
    obtain ⟨p, newLine, ended, skipped⟩ := plain_tail text.reverse t ls l (c + text.length) (i + bytes text)
    refine ⟨p, newLine, all.trans ?_, skipped ▸ reaches_tail t ls _ _ _⟩
    simpa [Pending.text, scalar] using ended
  | single text fits => exact ⟨_, _, inQuotes rfl, reaches_tail t ls _ _ _⟩
  | double text fits => exact ⟨_, _, inQuotes rfl, reaches_tail t ls _ _ _⟩

end Written

theorem markerNext_iff (c : Nat) (chars : List Char) : markerNext c chars = true ↔
    c = 0 ∧ ∃ r, (chars = '-' :: '-' :: '-' :: r ∨ chars = '.' :: '.' :: '.' :: r) ∧
      blankNext r = true := by
  simp only [markerNext, Bool.and_eq_true, beq_iff_eq]
  split
  · simp
  · simp
  · simp
    grind

/-- Where something else follows, a marker is one without it. -/
theorem markerNext_of_append {c : Nat} (chars : List Char) (d : Char) (r : List Char)
    (h : markerNext c (chars ++ d :: r) = true) (dash : d ≠ '-') (dot : d ≠ '.') :
    c = 0 ∧ markerNext 0 chars = true := by
  obtain ⟨rfl, r', marker, blank⟩ := (markerNext_iff c _).mp h
  refine ⟨rfl, ?_⟩
  rcases chars with _ | ⟨x, _ | ⟨y, _ | ⟨z, chars⟩⟩⟩
  · grind
  · grind
  · grind
  · have same : blankNext chars = true := by
      cases chars with
      | nil => rfl
      | cons u rest => grind [blankNext]
    grind [markerNext]

theorem EntryLine.noMarker (e : EntryLine) (r : List Char) :
    markerNext margin (e.key.chars ++ (e.pad.1 ++ ':' :: r)) = false := by
  refine Bool.eq_false_iff.mpr fun marker => ?_
  have opens := e.opens
  simp only [opensLine, Bool.and_eq_true, Bool.not_eq_true'] at opens
  obtain ⟨d, r', pad, dash, dot⟩ : ∃ d r', e.pad.1 ++ ':' :: r = d :: r' ∧ d ≠ '-' ∧ d ≠ '.' := by
    obtain ⟨pad, gaps⟩ := e.pad
    cases pad with
    | nil => exact ⟨':', r, rfl, by decide, by decide⟩
    | cons d pad =>
      rw [List.all_cons, Bool.and_eq_true] at gaps
      refine ⟨d, _, rfl, ?_⟩
      rcases (isGap_iff d).mp gaps.1 with rfl | rfl <;> decide
  rw [pad] at marker
  exact absurd (markerNext_of_append _ d r' marker dash dot).2 (Bool.eq_false_iff.mp opens.1)

end Wiring.Document
