import Wiring.Proofs.Scanning

namespace Wiring.Document

open Token

variable {margin : Nat}

def Scalar.token (s : Scalar) : Token := .scalar s.text s.plain

theorem all_allowed {chars : List Char} (h : chars.all inLine = true) : chars.all isAllowed = true :=
  List.all_eq_true.mpr fun c hc => ((inLine_iff c).mp (List.all_eq_true.mp h c hc)).1

theorem all_allowed_following (ls : List Line) : (following margin ls).all isAllowed = true := by
  have feed : isAllowed '\n' = true := by decide
  induction ls with
  | nil => rfl
  | cons l ls ih =>
    rw [following, List.all_cons, List.all_append, feed, all_allowed (l.all_inLine margin), ih]
    rfl

theorem legible_four {chars : List Char} (h : chars.all isAllowed = true) :
    (chars.take 4).any (!isAllowed ·) = false := by
  refine List.any_eq_false.mpr fun c hc => ?_
  simp [List.all_eq_true.mp h c (List.mem_of_mem_take hc)]

/-- No other token begins like this, whatever follows. -/
theorem plainNext_of_startsPlain {c : Char} {r : List Char} (rest : List Char)
    (h : startsPlain (c :: r) = true) :
    c ∉ [',', '[', ']', '\x7b', '\x7d', '\'', '"', '%'] ∧
      (c ∈ ['-', '?', ':'] → blankNext (r ++ rest) = false) ∧
      Scan.plainNext false c (r ++ rest) = true := by
  simp only [startsPlain, Bool.and_eq_true, Bool.or_eq_true, Bool.not_eq_true', beq_iff_eq] at h
  obtain ⟨gap, free | ⟨first, more⟩⟩ := h
  · have brackets : [',', '[', ']', '\x7b', '\x7d', '\'', '"', '%'].all Scan.isIndicator = true := by decide
    have marks : ['-', '?', ':'].all Scan.isIndicator = true := by decide
    refine ⟨fun mem => ?_, fun mem => ?_, by simp [Scan.plainNext, gap, free]⟩
    · rw [List.all_eq_true.mp brackets c mem] at free
      cases free
    · rw [List.all_eq_true.mp marks c mem] at free
      cases free
  · cases r with
    | nil => cases more
    | cons d r =>
      have noGap : isGap d = false := (Bool.or_eq_false_iff.mp more).1
      have goes : blankNext (d :: (r ++ rest)) = false := more
      refine ⟨?_, fun _ => goes, ?_⟩
      · rcases first with (rfl | rfl) | rfl <;> decide
      · rcases first with (rfl | rfl) | rfl <;>
          simp [Scan.plainNext, gap, noGap, goes]

namespace Scan

theorem skipGaps_eq (s : Scan) {allowed : Bool} {p : Place} (outside : s.brackets = [])
    (skipped : gaps false s.keyAllowed false s.place.line s.place.column s.place.index s.place.rest =
      (allowed, p)) :
    s.skipGaps = { s with keyAllowed := allowed, place := p } := by
  have flow : s.inFlow = false := by simp [inFlow, outside]
  simp only [skipGaps, flow, skipped]

/-- A candidate is kept as long as it is in reach. -/
theorem forgetPast_eq (s : Scan) (outside : s.brackets = [])
    (reach : s.candidate.all (·.inReach s.place) = true) : s.forgetPast = some s := by
  obtain ⟨place, indent, outer, allowed, candidate, brackets, tokens⟩ := s
  subst outside
  simp only [forgetPast, forgetIfPast, reach, if_true, List.mapM_nil]
  rfl

theorem outdentTo_eq (s : Scan) {column : Int} (h : s.indent ≤ column) : s.outdentTo column = s := by
  obtain ⟨place, indent, outer, allowed, candidate, brackets, tokens⟩ := s
  have inside : ¬ column < indent := by
    simp only at h
    omega
  have stays : outdent column indent tokens outer = (indent, outer, tokens) := by
    cases outer with
    | nil => rfl
    | cons o outer => rw [outdent, if_neg inside]
  simp only [outdentTo, stays, ite_self]

/-- Where a scalar begins outside of brackets, it is read. -/
theorem next_written (start s : Scan) (w : Written) (rest : List Char)
    (skipped : start.skipGaps.forgetPast = some s) (stays : s.outdentTo s.place.column = s)
    (here : s.place.rest = w.chars ++ rest) (outside : s.brackets = [])
    (fine : (w.chars ++ rest).all isAllowed = true)
    (noMarker : markerNext s.place.column (w.chars ++ rest) = false) :
    start.next = s.scalar w.scalar.plain (w.read (s.indent + 1).toNat) := by
  have four := Bool.eq_false_iff.mp (legible_four fine)
  have noMarker := Bool.eq_false_iff.mp noMarker
  have flow : s.inFlow = false := by simp [inFlow, outside]
  rw [next, skipped]
  simp only [Option.bind_eq_bind, Option.bind_some, stays, here]
  cases w with
  | single text fits =>
    have percent : ¬ (s.place.column == 0 && '\'' == '%') = true := by simp
    simp only [Written.chars, List.cons_append] at four noMarker ⊢
    rw [if_neg four, if_neg percent, if_neg noMarker]
    rfl
  | double text fits =>
    have percent : ¬ (s.place.column == 0 && '"' == '%') = true := by simp
    simp only [Written.chars, List.cons_append] at four noMarker ⊢
    rw [if_neg four, if_neg percent, if_neg noMarker]
    rfl
  | plain text starts fits =>
    cases text with
    | nil => cases starts
    | cons c r =>
      obtain ⟨apart, goes, begins⟩ := plainNext_of_startsPlain rest starts
      simp only [List.mem_cons, List.not_mem_nil, or_false, not_or] at apart
      have noMark (x : Char) (mark : x ∈ ['-', '?', ':']) : (c == x && blankNext (r ++ rest)) = false := by
        rw [Bool.and_eq_false_imp, beq_iff_eq]
        exact fun same => goes (same ▸ mark)
      have noItem := noMark '-' (by decide)
      have noKey := noMark '?' (by decide)
      have noColon := noMark ':' (by decide)
      have reads : s.plainScalar =
          s.scalar true ((Written.plain (c :: r) starts fits).read (s.indent + 1).toNat) := by
        rw [plainScalar, flow]
        rfl
      simp only [Written.chars, List.cons_append] at four noMarker ⊢
      rw [if_neg four]
      simp only [noMarker, apart, begins, flow, noItem, noKey, noColon, reads, beq_iff_eq, if_false, if_true,
        Bool.false_eq_true, Bool.false_or, Bool.and_eq_true, and_false]
      rfl

/-- Outside of brackets, a colon in front of a blank is the one of a key. -/
theorem next_eq_colon (start s : Scan) (r : List Char) (skipped : start.skipGaps.forgetPast = some s)
    (stays : s.outdentTo s.place.column = s) (here : s.place.rest = ':' :: r)
    (blank : blankNext r = true) (fine : r.all isAllowed = true) : start.next = s.colon := by
  have four : ((':' :: r).take 4).any (!isAllowed ·) = false := by
    refine legible_four ?_
    rw [List.all_cons, fine]
    decide
  rw [next, skipped]
  simp only [Option.bind_eq_bind, Option.bind_some, stays, here]
  rw [if_neg (Bool.eq_false_iff.mp four)]
  simp [markerNext, blank]

/-- The scanner with no key begun: in the block of the entries if one was read, else in front of it. -/
def between (margin : Nat) (begun : Bool) (tokens : List Token) (keyAllowed : Bool) (place : Place) : Scan :=
  { place, keyAllowed, tokens
    indent := if begun then margin else -1
    outer := if begun then [-1] else [] }

theorem indent_le (begun : Bool) (tokens : List Token) (allowed : Bool) (place : Place) :
    (between margin begun tokens allowed place).indent ≤ margin := by
  cases begun with
  | true => exact Int.le_refl _
  | false =>
    simp only [between, Bool.false_eq_true, if_false]
    omega

theorem saveKey_allowed (s : Scan) (allowed : s.keyAllowed = true) (free : s.candidate = none) :
    ∃ k, s.saveKey = some { s with candidate := some k } ∧ k.number = s.tokens.length ∧
      k.place = s.place := by
  refine ⟨⟨s.tokens.length, !s.inFlow && s.indent == s.place.column, s.place⟩, ?_, rfl, rfl⟩
  obtain ⟨place, indent, outer, keyAllowed, candidate, brackets, tokens⟩ := s
  subst allowed free
  rfl

theorem saveKey_denied (s : Scan) (denied : s.keyAllowed = false) : s.saveKey = some s := by
  rw [saveKey, if_neg (Bool.eq_false_iff.mp denied)]

theorem scalar_eq {s saved : Scan} (isPlain : Bool) {read : Place → Option Scanned} {text : String}
    {q : Place} {newLine : Bool} (save : s.saveKey = some saved)
    (h : read saved.place = some ⟨text.toList, q, newLine⟩) :
    s.scalar isPlain read = some { saved with
      place := q, keyAllowed := newLine, tokens := saved.tokens ++ [.scalar text isPlain] } := by
  simp only [scalar, save, h, Option.bind_eq_bind, Option.bind_some, emit, String.ofList_toList]
  rfl

/-- A key becomes the candidate; its colon is not read yet. -/
theorem next_key (w : Written) (pad : Blanks) (r : List Char) (begun : Bool) (tokens : List Token)
    (allowed : Bool) (p : Place) (l i : Nat)
    (skipped : gaps false allowed false p.line p.column p.index p.rest =
      (true, ⟨w.chars ++ (pad.1 ++ ':' :: r), l, margin, i⟩))
    (blank : blankNext r = true) (fine : (w.chars ++ (pad.1 ++ ':' :: r)).all isAllowed = true)
    (noMarker : markerNext margin (w.chars ++ (pad.1 ++ ':' :: r)) = false)
    (soon : bytes (w.chars ++ pad.1) ≤ 1024) :
    ∃ k q, (between margin begun tokens allowed p).next.bind forgetPast =
        some { between margin begun (tokens ++ [w.scalar.token]) false q with
          candidate := some k } ∧
      k.number = tokens.length ∧ k.place.line = l ∧ k.place.column = margin ∧ k.place.index = i ∧
      gaps false false false q.line q.column q.index q.rest =
        (false, ⟨':' :: r, l, margin + w.chars.length + pad.1.length, i + bytes (w.chars ++ pad.1)⟩) := by
  let here : Place := ⟨w.chars ++ (pad.1 ++ ':' :: r), l, margin, i⟩
  let s : Scan := { between margin begun tokens allowed p with keyAllowed := true, place := here }
  have skip : (between margin begun tokens allowed p).skipGaps = s :=
    (between margin begun tokens allowed p).skipGaps_eq rfl skipped
  have stays : s.outdentTo margin = s := s.outdentTo_eq (indent_le begun tokens allowed p)
  obtain ⟨q, read, line, index, colon⟩ := w.read_key pad r (s.indent + 1).toNat l margin i blank noMarker
  obtain ⟨k, save, number, place⟩ := s.saveKey_allowed rfl rfl
  have next := next_written (between margin begun tokens allowed p) s w (pad.1 ++ ':' :: r)
    (skip ▸ s.forgetPast_eq rfl rfl) stays rfl rfl fine noMarker
  rw [next, scalar_eq w.scalar.plain save read]
  -- A scalar without quotes has also read the blanks up to the colon, so these count as well.
  have reach : k.inReach q = true := by
    simp only [KeyCandidate.inReach, place, line, here, s, beq_self_eq_true, Bool.true_and, decide_eq_true_eq]
    omega
  refine ⟨k, q, forgetPast_eq _ rfl reach, number, ?_, ?_, ?_, colon⟩
  · rw [place]
  · rw [place]
  · rw [place]

/-- The block of the entries is opened by the first of them. -/
def opening (begun : Bool) : List Token := if begun then [] else [.mappingStart]

theorem colon_between (begun : Bool) (tokens : List Token) (scalar : Token) (k : KeyCandidate) (r : List Char)
    (l c i : Nat) (number : k.number = tokens.length) (column : k.place.column = margin) :
    { between margin begun (tokens ++ [scalar]) false ⟨':' :: r, l, c, i⟩ with candidate := some k }.colon =
      some (between margin true (tokens ++ (opening begun ++ [.key, scalar, .value])) false
        ⟨r, l, c + 1, i + 1⟩) := by
  have before (more : List Token) : (tokens ++ more).take k.number = tokens := by rw [number, List.take_left]
  have after (more : List Token) : (tokens ++ more).drop k.number = more := by rw [number, List.drop_left]
  have opens : (-1 : Int) < margin := by omega
  cases begun with
  | true =>
    simp [Scan.colon, between, emitAt, indentTo, inFlow, before, after, column, opening, emit, advance,
      Place.skip]
  | false =>
    simp [Scan.colon, between, emitAt, indentTo, inFlow, before, after, column, opening, emit, advance,
      Place.skip, opens]

/-- With its colon, the candidate is a key. -/
theorem next_colon (r : List Char) (begun : Bool) (tokens : List Token) (scalar : Token) (k : KeyCandidate)
    (p : Place) (l c i : Nat) (number : k.number = tokens.length) (column : k.place.column = margin)
    (skipped : gaps false false false p.line p.column p.index p.rest = (false, ⟨':' :: r, l, c, i⟩))
    (blank : blankNext r = true) (fine : r.all isAllowed = true)
    (reach : k.inReach ⟨':' :: r, l, c, i⟩ = true) (inside : margin ≤ c) :
    { between margin begun (tokens ++ [scalar]) false p with candidate := some k }.next.bind forgetPast =
      some (between margin true (tokens ++ (opening begun ++ [.key, scalar, .value])) false
        ⟨r, l, c + 1, i + 1⟩) := by
  have skip := skipGaps_eq { between margin begun (tokens ++ [scalar]) false p with candidate := some k }
    rfl skipped
  have kept := forgetPast_eq { between margin begun (tokens ++ [scalar]) false ⟨':' :: r, l, c, i⟩ with
    candidate := some k } rfl reach
  have stays := @outdentTo_eq { between margin begun (tokens ++ [scalar]) false ⟨':' :: r, l, c, i⟩ with
    candidate := some k } c (Int.le_trans (indent_le begun (tokens ++ [scalar]) false p) (by omega))
  rw [next_eq_colon _ _ r (skip ▸ kept) stays rfl blank fine,
    colon_between begun tokens scalar k r l c i number column]
  exact forgetPast_eq _ rfl rfl

/-- After a colon no key may stand, so a value is no candidate. -/
theorem next_value (g : Gap) (w : Written) (t : Tail) (ls : List Line) (tokens : List Token) (l c i : Nat)
    (inside : margin < c) :
    ∃ q newLine, (between margin true tokens false
        ⟨g.1 ++ (w.chars ++ (t.chars ++ following margin ls)), l, c, i⟩).next.bind forgetPast =
        some (between margin true (tokens ++ [w.scalar.token]) newLine q) ∧
      Reaches margin (gaps false newLine false q.line q.column q.index q.rest) ls := by
  let rest := w.chars ++ (t.chars ++ following margin ls)
  let start := between margin true tokens false ⟨g.1 ++ rest, l, c, i⟩
  let here : Place := ⟨rest, l, c + g.1.length, i + bytes g.1⟩
  let s := between margin true tokens false here
  have column : c + g.1.length ≠ 0 := by omega
  have skipped : gaps false false false l c i (g.1 ++ rest) = (false, here) := by
    obtain ⟨d, r, chars, gap, noBreak, hash⟩ := w.head
    have rest_eq : rest = d :: (r ++ (t.chars ++ following margin ls)) := by simp [rest, chars]
    rw [gaps_blanks l c i rest ⟨g.1, g.2.1⟩, rest_eq,
      gaps_stop false l _ _ _ d gap noBreak hash (fun zero => absurd zero column), ← rest_eq]
  have skip : start.skipGaps = s := start.skipGaps_eq rfl skipped
  have stays : s.outdentTo s.place.column = s := s.outdentTo_eq (by
    simp only [s, between, if_true, here]
    omega)
  obtain ⟨q, newLine, read, reaches⟩ := w.read_value t ls l (c + g.1.length) (i + bytes g.1) column
  have fine : rest.all isAllowed = true := by
    rw [List.all_append, List.all_append, all_allowed w.all_inLine, all_allowed t.all_inLine,
      all_allowed_following]
    rfl
  have next := next_written start s w (t.chars ++ following margin ls) (skip ▸ s.forgetPast_eq rfl rfl)
    stays rfl rfl fine (markerNext_of_column _ column)
  have indent : (s.indent + 1).toNat = margin + 1 := rfl
  refine ⟨q, newLine, ?_, reaches⟩
  rw [next, indent, scalar_eq w.scalar.plain (s.saveKey_denied rfl) read]
  exact forgetPast_eq _ rfl rfl

theorem place_outdentTo (s : Scan) (column : Int) : (s.outdentTo column).place = s.place := by
  rw [outdentTo]
  split <;> rfl

theorem place_forgetPast {s t : Scan} (h : s.forgetPast = some t) : t.place = s.place := by
  simp only [forgetPast, Option.bind_eq_bind, Option.bind_eq_some_iff] at h
  obtain ⟨candidate, _, brackets, _, same⟩ := h
  cases same
  rfl

/-- At the end of the text there is no next token. -/
theorem next_of_atEnd (s : Scan) (h : s.atEnd = true) : s.next = none := by
  rw [atEnd, List.isEmpty_iff] at h
  rw [next]
  cases kept : s.skipGaps.forgetPast with
  | none => rfl
  | some t =>
    have rest : (t.outdentTo t.place.column).place.rest = [] := by
      rw [place_outdentTo, place_forgetPast kept, h]
    simp only [Option.bind_eq_bind, Option.bind_some, rest]

theorem run_step {s n : Scan} (fuel : Nat) (h : s.next.bind forgetPast = some n) :
    run (fuel + 1) s = run fuel n := by
  have more : ¬ s.atEnd = true := fun ended => by
    rw [s.next_of_atEnd ended] at h
    cases h
  simp only [run, if_neg more, h]

/-- The block is closed at the end of the text. -/
theorem run_end (begun : Bool) (tokens : List Token) (allowed : Bool) (p : Place) (fuel : Nat)
    (skipped : (gaps false allowed false p.line p.column p.index p.rest).2.rest = []) :
    run (fuel + 1) (between margin begun tokens allowed p) =
      tokens ++ if begun then [.blockEnd, .textEnd] else [.textEnd] := by
  obtain ⟨⟨allowed', q⟩, reached⟩ :
      ∃ r, gaps false allowed false p.line p.column p.index p.rest = r := ⟨_, rfl⟩
  rw [reached] at skipped
  have skip := (between margin begun tokens allowed p).skipGaps_eq rfl reached
  have ended : (between margin begun tokens allowed p).atEnd = true := by
    rw [atEnd, skip]
    exact List.isEmpty_iff.mpr skipped
  have closes : (-1 : Int) < margin := by omega
  have finished : ((between margin begun tokens allowed p).finish).map (·.tokens) =
      some (tokens ++ if begun then [.blockEnd, .textEnd] else [.textEnd]) := by
    rw [finish, skip]
    cases begun with
    | true =>
      simp [between, forgetPast, forgetIfPast, outdentTo, inFlow, outdent, closes, forgetKey, forget, emit]
    | false =>
      simp [between, forgetPast, forgetIfPast, outdentTo, inFlow, outdent, forgetKey, forget, emit]
  simp only [run, ended, if_true]
  cases done : (between margin begun tokens allowed p).finish with
  | none =>
    rw [done] at finished
    cases finished
  | some e =>
    rw [done] at finished
    exact Option.some.inj finished

end Scan

def Assigned.tokens : Assigned → List Token
  | nothing => []
  | value _ w => [w.scalar.token]

def EntryLine.tokens (e : EntryLine) : List Token :=
  .key :: e.key.scalar.token :: .value :: e.assigned.tokens

/-- Between two tokens, in front of these lines. -/
def Scan.Waits (margin : Nat) (begun : Bool) (tokens : List Token) (ls : List Line) (s : Scan) : Prop :=
  ∃ allowed p, s = Scan.between margin begun tokens allowed p ∧
    Reaches margin (Scan.gaps false allowed false p.line p.column p.index p.rest) ls

theorem EntryLine.run_key (e : EntryLine) (begun : Bool) (tokens : List Token) (ls : List Line) (s : Scan)
    (waits : s.Waits margin begun tokens (.entry e :: ls)) :
    ∃ l c i, margin < c ∧ ∀ fuel, Scan.run (fuel + 2) s =
      Scan.run fuel (Scan.between margin true
        (tokens ++ (Scan.opening begun ++ [.key, e.key.scalar.token, .value])) false
        ⟨e.assigned.chars ++ (e.tail.chars ++ following margin ls), l, c, i⟩) := by
  obtain ⟨allowed, p, rfl, l, i, skipped⟩ := waits
  let r := e.assigned.chars ++ (e.tail.chars ++ following margin ls)
  have chars : e.chars ++ following margin ls = e.key.chars ++ (e.pad.1 ++ ':' :: r) := by
    simp [EntryLine.chars, r]
  rw [chars] at skipped
  have fine : (e.key.chars ++ (e.pad.1 ++ ':' :: r)).all isAllowed = true := by
    rw [← chars, List.all_append, all_allowed e.all_inLine, all_allowed_following]
    rfl
  have fineRest : r.all isAllowed = true := by
    simp only [List.all_append, List.all_cons, Bool.and_eq_true] at fine
    exact fine.2.2.2
  have blank : blankNext r = true := e.assigned.blankNext e.tail ls
  obtain ⟨k, q, key, number, line, column, index, colon⟩ :=
    Scan.next_key e.key e.pad r begun tokens allowed p l i skipped blank fine (e.noMarker r) e.soon
  have reach : k.inReach ⟨':' :: r, l, margin + e.key.chars.length + e.pad.1.length,
      i + bytes (e.key.chars ++ e.pad.1)⟩ = true := by
    have soon := e.soon
    simp only [KeyCandidate.inReach, line, index, beq_self_eq_true, Bool.true_and, decide_eq_true_eq]
    omega
  have value := Scan.next_colon r begun tokens e.key.scalar.token k q l _ _ number column colon blank
    fineRest reach (by omega)
  refine ⟨l, margin + e.key.chars.length + e.pad.1.length + 1, i + bytes (e.key.chars ++ e.pad.1) + 1,
    by omega, fun fuel => ?_⟩
  rw [Scan.run_step (fuel + 1) key, Scan.run_step fuel value]

/-- After an entry, the scanner waits in front of the lines that follow it. -/
theorem EntryLine.run (e : EntryLine) (begun : Bool) (tokens : List Token) (ls : List Line) (s : Scan)
    (waits : s.Waits margin begun tokens (.entry e :: ls)) :
    ∃ n : Scan, n.Waits margin true (tokens ++ (Scan.opening begun ++ e.tokens)) ls ∧
      ∀ fuel, Scan.run (fuel + (e.assigned.tokens.length + 2)) s = Scan.run fuel n := by
  obtain ⟨l, c, i, inside, key⟩ := e.run_key begun tokens ls s waits
  cases value : e.assigned with
  | nothing =>
    rw [value] at key
    refine ⟨_, ⟨false, ⟨e.tail.chars ++ following margin ls, l, c, i⟩, rfl,
      reaches_tail e.tail ls l c i⟩, fun fuel => ?_⟩
    rw [EntryLine.tokens, value]
    exact key fuel
  | value g w =>
    rw [value, Assigned.chars, List.append_assoc] at key
    obtain ⟨q, newLine, read, reaches⟩ := Scan.next_value g w e.tail ls
      (tokens ++ (Scan.opening begun ++ [.key, e.key.scalar.token, .value]))
      l c i inside
    refine ⟨_, ⟨newLine, q, rfl, reaches⟩, fun fuel => ?_⟩
    refine (key (fuel + 1)).trans ((Scan.run_step fuel read).trans ?_)
    rw [EntryLine.tokens, value]
    simp [Assigned.tokens]

/-- The tokens of lines up to the end of the text. -/
def linesTokens (begun : Bool) : List Line → List Token
  | [] => if begun then [.blockEnd, .textEnd] else [.textEnd]
  | .entry e :: ls => Scan.opening begun ++ (e.tokens ++ linesTokens true ls)
  | .blank _ :: ls | .comment _ _ :: ls => linesTokens begun ls

/-- The characters of some lines. -/
def size (margin : Nat) : List Line → Nat
  | [] => 0
  | l :: ls => (l.chars margin).length + size margin ls

/-- Each token of an entry takes a character. -/
theorem EntryLine.steps_le (e : EntryLine) : e.assigned.tokens.length + 2 ≤ e.chars.length := by
  obtain ⟨d, r, key, _⟩ := e.key.head
  have assigned : e.assigned.tokens.length ≤ e.assigned.chars.length := by
    cases e.assigned with
    | nothing => exact Nat.le_refl 0
    | value g w =>
      have gap := List.length_pos_iff.mpr g.2.2
      simp only [Assigned.tokens, Assigned.chars, List.length_singleton, List.length_append]
      omega
  simp only [EntryLine.chars, key, List.length_append, List.length_cons]
  omega

theorem Scan.run_waits (ls : List Line) (begun : Bool) (tokens : List Token) (s : Scan) (fuel : Nat)
    (waits : s.Waits margin begun tokens ls) (enough : size margin ls < fuel) :
    s.run fuel = tokens ++ linesTokens begun ls := by
  -- By induction on the lines. Only entries take steps, since `Reaches` is past all other lines already.
  induction ls generalizing begun tokens s fuel with
  | nil =>
    obtain ⟨allowed, p, rfl, reached⟩ := waits
    obtain ⟨fuel, rfl⟩ := Nat.exists_eq_succ_of_ne_zero (Nat.ne_zero_of_lt enough)
    exact Scan.run_end begun tokens allowed p fuel reached
  | cons line ls ih =>
    rw [size] at enough
    cases line with
    | blank n => exact ih begun tokens s fuel waits (by omega)
    | comment n remark => exact ih begun tokens s fuel waits (by omega)
    | entry e =>
      obtain ⟨n, next, steps⟩ := e.run begun tokens ls s waits
      have few := e.steps_le
      rw [Line.chars, List.length_append] at enough
      obtain ⟨fuel, rfl⟩ : ∃ f, fuel = f + (e.assigned.tokens.length + 2) :=
        ⟨fuel - (e.assigned.tokens.length + 2), by omega⟩
      rw [steps, ih true _ n fuel next (by omega), linesTokens]
      simp

theorem size_le (ls : List Line) : size margin ls ≤ (document margin ls).length := by
  have all (ls : List Line) : size margin ls ≤ (following margin ls).length := by
    induction ls with
    | nil => exact Nat.le_refl 0
    | cons l ls ih =>
      rw [size, following, List.length_cons, List.length_append]
      omega
  cases ls with
  | nil => exact Nat.le_refl 0
  | cons l ls =>
    rw [size, document, List.length_append]
    exact Nat.add_le_add_left (all ls) _

namespace Flat

theorem normalBreaks_joined (lineBreak : LineBreak) (ls : List Line) :
    normalBreaks (joined lineBreak margin ls) = document margin ls := by
  cases ls with
  | nil => rfl
  | cons l ls =>
    induction ls generalizing l with
    | nil =>
      have read := normalBreaks_append (l.chars margin) [] (l.all_inLine margin)
      simpa [joined, document, following, normalBreaks] using read
    | cons l' ls ih =>
      rw [joined_cons, normalBreaks_append _ _ (l.all_inLine margin), normalBreaks_lineBreak, ih]
      rfl

theorem tokens_text (d : Flat) : Document.tokens d.text = linesTokens false d.lines := by
  have chars : d.text.toList = joined d.lineBreak d.margin d.lines := String.toList_ofList
  have read : normalBreaks (legible blockSize [] d.text.toList) = document d.margin d.lines := by
    rw [chars, legible_eq _ _ _ (all_allowed_joined d.lineBreak d.lines)]
    exact normalBreaks_joined d.lineBreak d.lines
  rw [Document.tokens, read]
  refine Scan.run_waits d.lines false [] _ _ ⟨true, ⟨document d.margin d.lines, 0, 0, 0⟩, rfl, ?_⟩
    (Nat.lt_succ_of_le (size_le d.lines))
  exact reaches_document d.lines 0 0

end Flat

theorem blockFields_lines (ls : List Line) :
    Piece.blockFields .key (linesTokens true ls) =
        (ls.filterMap Line.entry?).flatMap Entry.pieces ++ [.close] ∧
      Piece.blockFields .valueNode (linesTokens true ls) =
        .empty :: Piece.blockFields .key (linesTokens true ls) := by
  induction ls with
  | nil => exact ⟨rfl, rfl⟩
  | cons line ls ih =>
    cases line with
    | blank n => exact ih
    | comment n remark => exact ih
    | entry e =>
      refine ⟨?_, rfl⟩
      have entry : (Line.entry e :: ls).filterMap Line.entry? = e.entry :: ls.filterMap Line.entry? := rfl
      rw [entry, List.flatMap_cons, linesTokens, Scan.opening, EntryLine.tokens, Entry.pieces,
        EntryLine.entry]
      cases e.assigned with
      | nothing =>
        -- That the value is missing is told by what the next entry begins with.
        simp [Assigned.tokens, Assigned.scalar, Scalar.token, Piece.blockFields, Piece.node,
          Piece.ofToken?, Piece.empty, ih]
      | value g w =>
        simp [Assigned.tokens, Assigned.scalar, Scalar.token, Piece.blockFields, Piece.node,
          Piece.ofToken?, ih]

theorem ofTokens_lines (ls : List Line) :
    Piece.ofTokens (linesTokens false ls) = delivered (ls.filterMap Line.entry?) := by
  induction ls with
  | nil => rfl
  | cons line ls ih =>
    cases line with
    | blank n => exact ih
    | comment n remark => exact ih
    | entry e =>
      have block := (blockFields_lines (.entry e :: ls)).1
      have pieces : Piece.ofTokens (linesTokens false (.entry e :: ls)) =
        .mapping :: Piece.blockFields .key (linesTokens true (.entry e :: ls)) := rfl
      rw [pieces, block]
      rfl

/-- A flat document is delivered as its entries. -/
theorem ofText_flat (d : Flat) : Piece.ofText d.text = delivered d.entries := by
  rw [Piece.ofText, d.tokens_text, ofTokens_lines]
  rfl

end Wiring.Document
