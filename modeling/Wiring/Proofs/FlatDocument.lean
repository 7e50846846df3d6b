import Wiring.Document.Piece

namespace Wiring.Document

open Token

/-- A character that can stand in a line. -/
def inLine (c : Char) : Bool := isAllowed c && !isBreak c && c != '\r' && c != '\x85'

/-- How a text without quotes goes on, after a blank or after something else: no comment begins and no key
ends in it, and the last character is no blank. -/
def goesOn (blank : Bool) : List Char → Bool
  | [] => !blank
  | c :: r => inLine c && !(c == '#' && blank) && !(c == ':' && blankNext r) && goesOn (isGap c) r

/-- No other token begins like this. -/
def startsPlain : List Char → Bool
  | [] => false
  | c :: r => !isGap c && (!Scan.isIndicator c || (c == '-' || c == '?' || c == ':') && !blankNext r)

/-- At the start of a line this is no document marker and no mark of the byte order. -/
def opensLine (chars : List Char) : Bool := !markerNext 0 chars && chars.head? != some '\ufeff'

/-- The number of bytes. -/
def bytes : List Char → Nat
  | [] => 0
  | c :: r => c.utf8Size + bytes r

@[simp] theorem bytes_append (a b : List Char) : bytes (a ++ b) = bytes a + bytes b := by
  induction a with
  | nil => simp [bytes]
  | cons c r ih => simp [bytes, ih, Nat.add_assoc]

/-- Spaces and tabs, or nothing. -/
abbrev Blanks : Type := { chars : List Char // chars.all isGap = true }

/-- At least one space or tab. -/
abbrev Gap : Type := { chars : List Char // chars.all isGap = true ∧ chars ≠ [] }

/-- What a comment says. -/
abbrev Remark : Type := { chars : List Char // chars.all inLine = true }

/-- A scalar as it is written in a line: as it is, in single quotes with the quotes in it doubled, or in
double quotes with nothing to escape in it. -/
inductive Written where
  | plain (text : List Char) (starts : startsPlain text = true) (fits : goesOn false text = true)
  | single (text : List Char) (fits : text.all inLine = true)
  | double (text : List Char) (fits : text.all (fun c => inLine c && c != '"' && c != '\\') = true)

/-- A scalar as it is meant. -/
structure Scalar where
  text : String
  plain : Bool
  deriving DecidableEq

namespace Written

def doubled (text : List Char) : List Char := text.flatMap fun c => if c = '\'' then [c, c] else [c]

def chars : Written → List Char
  | plain text _ _ => text
  | single text _ => '\'' :: doubled text ++ ['\'']
  | double text _ => '"' :: text ++ ['"']

def scalar : Written → Scalar
  | plain text _ _ => ⟨String.ofList text, true⟩
  | single text _ | double text _ => ⟨String.ofList text, false⟩

end Written

/-- The end of a line, possibly with a comment. -/
inductive Tail where
  | blank (b : Blanks)
  | comment (g : Gap) (remark : Remark)

def Tail.chars : Tail → List Char
  | blank b => b.1
  | comment g remark => g.1 ++ '#' :: remark.1

/-- A value after a colon; one that is not written is nothing. -/
inductive Assigned where
  | nothing
  | value (g : Gap) (w : Written)

namespace Assigned

def chars : Assigned → List Char
  | nothing => []
  | value g w => g.1 ++ w.chars

def scalar : Assigned → Scalar
  | nothing => ⟨"", true⟩
  | value _ w => w.scalar

end Assigned

/-- A key and a value. -/
structure Entry where
  key : Scalar
  value : Scalar
  deriving DecidableEq

/-- The line of an entry, without what it is indented by. -/
structure EntryLine where
  key : Written
  pad : Blanks
  assigned : Assigned
  tail : Tail
  opens : opensLine key.chars = true
  /-- A key is known by its colon, which has to come soon enough. -/
  soon : bytes (key.chars ++ pad.1) ≤ 1024

namespace EntryLine

def chars (e : EntryLine) : List Char :=
  e.key.chars ++ (e.pad.1 ++ ':' :: (e.assigned.chars ++ e.tail.chars))

def entry (e : EntryLine) : Entry := ⟨e.key.scalar, e.assigned.scalar⟩

end EntryLine

inductive Line where
  | blank (indent : Nat)
  | comment (indent : Nat) (remark : Remark)
  | entry (e : EntryLine)

def spaces (n : Nat) : List Char := List.replicate n ' '

/-- The characters of a line; entries are indented alike, by the margin. -/
def Line.chars (margin : Nat) : Line → List Char
  | blank indent => spaces indent
  | comment indent remark => spaces indent ++ '#' :: remark.1
  | entry e => spaces margin ++ e.chars

def Line.entry? : Line → Option Entry
  | blank _ | comment _ _ => none
  | entry e => some e.entry

inductive LineBreak where
  | feed
  | carriageReturn
  | both

def LineBreak.chars : LineBreak → List Char
  | feed => ['\n']
  | carriageReturn => ['\r']
  | both => ['\r', '\n']

/-- Lines with a key and a value, with comments and blank lines anywhere among them. -/
structure Flat where
  lines : List Line
  margin : Nat := 0
  lineBreak : LineBreak := .feed

namespace Flat

/-- The lines with a line break between any two of them; a break at the end comes of a last line that is
blank. -/
def joined (lineBreak : LineBreak) (margin : Nat) (ls : List Line) : List Char :=
  lineBreak.chars.intercalate (ls.map (·.chars margin))

def text (d : Flat) : String := String.ofList (joined d.lineBreak d.margin d.lines)

def entries (d : Flat) : List Entry := d.lines.filterMap Line.entry?

end Flat

def Entry.pieces (e : Entry) : List Piece :=
  [.scalar e.key.text e.key.plain, .scalar e.value.text e.value.plain]

/-- What is delivered of a document with these entries. -/
def delivered (es : List Entry) : List Piece :=
  if es.isEmpty then [] else .mapping :: (es.flatMap Entry.pieces ++ [.close])

theorem inLine_iff (c : Char) : inLine c = true ↔
    isAllowed c = true ∧ isBreak c = false ∧ c ≠ '\r' ∧ c ≠ '\x85' := by
  simp [inLine, and_assoc]

theorem isGap_iff (c : Char) : isGap c = true ↔ c = ' ' ∨ c = '\t' := by simp [isGap]

theorem inLine_of_isGap {c : Char} (h : isGap c = true) : inLine c = true := by
  rcases (isGap_iff c).mp h with rfl | rfl <;> decide

theorem all_inLine_of_isGap {chars : List Char} (h : chars.all isGap = true) : chars.all inLine = true :=
  List.all_eq_true.mpr fun c hc => inLine_of_isGap (List.all_eq_true.mp h c hc)

theorem all_inLine_spaces (n : Nat) : (spaces n).all inLine = true := by
  refine List.all_eq_true.mpr fun c hc => ?_
  rw [List.eq_of_mem_replicate hc]
  decide

theorem all_inLine_of_goesOn {blank : Bool} {text : List Char} (h : goesOn blank text = true) :
    text.all inLine = true := by
  induction text generalizing blank with
  | nil => rfl
  | cons c r ih =>
    simp only [goesOn, Bool.and_eq_true] at h
    rw [List.all_cons, h.1.1.1, ih h.2]
    rfl

theorem Written.all_inLine (w : Written) : w.chars.all inLine = true := by
  cases w with
  | plain text _ fits => exact all_inLine_of_goesOn fits
  | single text fits =>
    have inside : (doubled text).all inLine = true := by
      refine List.all_eq_true.mpr fun c hc => ?_
      obtain ⟨d, hd, mem⟩ := List.mem_flatMap.mp hc
      have same : c = d := by split at mem <;> simpa using mem
      exact same ▸ List.all_eq_true.mp fits d hd
    simp [chars, inside]
    decide
  | double text fits =>
    have inside : text.all inLine = true := by
      refine List.all_eq_true.mpr fun c hc => ?_
      have h := List.all_eq_true.mp fits c hc
      simp only [Bool.and_eq_true] at h
      exact h.1.1
    simp [chars, inside]
    decide

theorem Tail.all_inLine (t : Tail) : t.chars.all inLine = true := by
  cases t with
  | blank b => exact all_inLine_of_isGap b.2
  | comment g remark =>
    rw [chars, List.all_append, List.all_cons, all_inLine_of_isGap g.2.1, remark.2]
    decide

theorem Assigned.all_inLine (a : Assigned) : a.chars.all inLine = true := by
  cases a with
  | nothing => rfl
  | value g w => rw [chars, List.all_append, all_inLine_of_isGap g.2.1, w.all_inLine]; rfl

theorem EntryLine.all_inLine (e : EntryLine) : e.chars.all inLine = true := by
  have colon : inLine ':' = true := by decide
  simp only [chars, List.all_append, List.all_cons, e.key.all_inLine, all_inLine_of_isGap e.pad.2,
    colon, e.assigned.all_inLine, e.tail.all_inLine, Bool.and_self]

theorem Line.all_inLine (margin : Nat) (l : Line) : (l.chars margin).all inLine = true := by
  cases l with
  | blank indent => exact all_inLine_spaces indent
  | comment indent remark =>
    have hash : inLine '#' = true := by decide
    simp only [chars, List.all_append, List.all_cons, all_inLine_spaces, hash, remark.2, Bool.and_self]
  | entry e => simp only [chars, List.all_append, all_inLine_spaces, e.all_inLine, Bool.and_self]

/-- A text of allowed characters is read as a whole. -/
theorem legible_eq (room : Nat) (block chars : List Char) (h : chars.all isAllowed = true) :
    legible room block chars = block.reverse ++ chars := by
  induction chars generalizing room block with
  | nil => simp [legible]
  | cons c r ih =>
    rw [List.all_cons, Bool.and_eq_true] at h
    rw [legible]
    split
    · rw [if_pos h.1, ih _ _ h.2]
      simp
    · rw [if_pos h.1, ih _ _ h.2]
      simp

/-- Line breaks come from line breaks only. -/
theorem normalBreaks_append (chars rest : List Char) (h : chars.all inLine = true) :
    normalBreaks (chars ++ rest) = chars ++ normalBreaks rest := by
  induction chars with
  | nil => rfl
  | cons c r ih =>
    rw [List.all_cons, Bool.and_eq_true] at h
    obtain ⟨_, _, noReturn, noNext⟩ := (inLine_iff c).mp h.1
    rw [List.cons_append, normalBreaks, ih h.2]
    · simp [noReturn, noNext]
    · rintro r' rfl
      exact absurd rfl noReturn

namespace Flat

variable {margin : Nat}

theorem joined_cons (lineBreak : LineBreak) (l l' : Line) (ls : List Line) :
    joined lineBreak margin (l :: l' :: ls) =
      l.chars margin ++ (lineBreak.chars ++ joined lineBreak margin (l' :: ls)) := by
  simp [joined]

theorem mem_joined {lineBreak : LineBreak} {ls : List Line} {c : Char}
    (h : c ∈ joined lineBreak margin ls) : c ∈ lineBreak.chars ∨ inLine c = true := by
  induction ls with
  | nil => cases h
  | cons l ls ih =>
    have here (mem : c ∈ l.chars margin) : inLine c = true :=
      List.all_eq_true.mp (l.all_inLine margin) c mem
    cases ls with
    | nil => exact .inr (here (by simpa [joined] using h))
    | cons l' ls =>
      rw [joined_cons, List.mem_append, List.mem_append] at h
      rcases h with mem | mem | mem
      · exact .inr (here mem)
      · exact .inl mem
      · exact ih mem

theorem all_allowed_joined (lineBreak : LineBreak) (ls : List Line) :
    (joined lineBreak margin ls).all isAllowed = true := by
  refine List.all_eq_true.mpr fun c mem => ?_
  rcases mem_joined mem with mem | fit
  · have breaks : lineBreak.chars.all isAllowed = true := by cases lineBreak <;> decide
    exact List.all_eq_true.mp breaks c mem
  · exact ((inLine_iff c).mp fit).1

/-- Whatever breaks the lines, a line feed is read. -/
theorem normalBreaks_lineBreak (lineBreak : LineBreak) (ls : List Line) :
    normalBreaks (lineBreak.chars ++ joined lineBreak margin ls) =
      '\n' :: normalBreaks (joined lineBreak margin ls) := by
  cases lineBreak with
  | feed => rfl
  | both => rfl
  | carriageReturn =>
    have noFeed : '\n' ∉ joined .carriageReturn margin ls := fun mem => by
      rcases mem_joined mem with mem | fit
      · exact absurd mem (by decide)
      · exact absurd fit (by decide)
    cases text : joined .carriageReturn margin ls with
    | nil => rfl
    | cons c r =>
      have other : c ≠ '\n' := by
        rintro rfl
        exact noFeed (text ▸ List.mem_cons_self)
      rw [LineBreak.chars, List.singleton_append, normalBreaks]
      · simp
      · rintro r' _ same
        exact absurd (List.cons.inj same).1 other

end Flat

end Wiring.Document
