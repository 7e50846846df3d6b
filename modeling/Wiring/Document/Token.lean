namespace Wiring.Document

/-- The tokens that open and close a block come from columns, since blocks are marked by indentation. -/
inductive Token where
  | documentStart
  | documentEnd
  | sequenceStart
  | mappingStart
  | blockEnd
  | flowSequenceStart
  | flowSequenceEnd
  | flowMappingStart
  | flowMappingEnd
  | item
  | comma
  | key
  | value
  /-- `plain` tells that the text stood without quotes. -/
  | scalar (text : String) (plain : Bool)
  | textEnd
  deriving DecidableEq, Inhabited

namespace Token

/-- The characters that a document may hold. -/
def isAllowed (c : Char) : Bool :=
  c == '\t' || c == '\n' || c == '\r' || c == '\x85' || (' ' ≤ c && c ≤ '~') ||
    (0xa0 ≤ c.toNat && c.toNat ≤ 0xfffd) || 0x10000 ≤ c.toNat

def isBreak (c : Char) : Bool := c == '\n' || c == '\u2028' || c == '\u2029'

def isGap (c : Char) : Bool := c == ' ' || c == '\t'

/-- The text ends here, or a space or line break comes next. -/
def blankNext : List Char → Bool
  | [] => true
  | c :: _ => isGap c || isBreak c

/-- The line starts with one of the two document markers. -/
def markerNext (column : Nat) (chars : List Char) : Bool :=
  column == 0 &&
    match chars with
    | '-' :: '-' :: '-' :: r => blankNext r
    | '.' :: '.' :: '.' :: r => blankNext r
    | _ => false

/-- A place in the text: what is left, and where that is. The index counts bytes. -/
structure Place where
  rest : List Char
  line : Nat := 0
  column : Nat := 0
  index : Nat := 0

namespace Place

/-- Past some characters of one byte that break no line. -/
def skip (p : Place) (n : Nat) : Place := ⟨p.rest.drop n, p.line, p.column + n, p.index + n⟩

/-- At the start of a line; a line that was begun ends. -/
def freshLine (p : Place) : Place :=
  if p.column = 0 then p else ⟨p.rest, p.line + 1, 0, p.index⟩

end Place

/-- White space inside a scalar that has not been written yet. A first break is dropped if it is an
ordinary one: alone it folds into a space, and otherwise the breaks after it remain. -/
inductive Pending where
  | none
  | gap (blanks : List Char)
  | breaks (first : Option Char) (more : List Char)

namespace Pending

def text : Pending → List Char
  | none => []
  | gap blanks => blanks
  | breaks (some '\n') [] => [' ']
  | breaks (some '\n') more => more
  | breaks first more => first.toList ++ more

def inBreaks : Pending → Bool
  | breaks _ _ => true
  | _ => false

/-- One more blank; blanks at the start of a line are not kept. -/
def blank (p : Pending) (c : Char) : Pending :=
  match p with
  | none => gap [c]
  | gap blanks => gap (blanks ++ [c])
  | breaks first more => breaks first more

/-- One more line break; blanks at the end of a line are not kept. -/
def lineBreak (p : Pending) (c : Char) : Pending :=
  match p with
  | breaks first more => breaks first (more ++ [c])
  | _ => breaks (some c) []

end Pending

/-- Every line break but the two separators as a line feed. -/
def normalBreaks : List Char → List Char
  | [] => []
  | '\r' :: '\n' :: r => '\n' :: normalBreaks r
  | c :: r => (if c == '\r' || c == '\x85' then '\n' else c) :: normalBreaks r

def flowIndicator (c : Char) : Bool := c == ',' || c == '[' || c == ']' || c == '\x7b' || c == '\x7d'

/-- What a scalar is followed by, and whether a line break came in between. -/
structure Scanned where
  text : List Char
  place : Place
  newLine : Bool := false

/-- A scalar without quotes ends before a comment or a colon, a line that is not indented far enough, a
document marker, or inside brackets an indicator. -/
def endsPlain (flow : Bool) (indent : Nat) (pending : Pending) (column : Nat) (chars : List Char) : Bool :=
  (pending.inBreaks && !flow && decide (column < indent)) || markerNext column chars ||
    match chars with
    | [] => true
    | c :: r =>
      (c == '#' && !(pending matches .none)) || (c == ':' && blankNext r) || (flow && flowIndicator c)

/-- A scalar without quotes. What was read so far is in `done`, the last character first. -/
def plain (flow : Bool) (indent : Nat) (done : List Char) (pending : Pending)
    (line column index : Nat) : List Char → Option Scanned
  | [] => some ⟨done.reverse, ⟨[], line, column, index⟩, pending.inBreaks⟩
  | c :: r =>
    let past := index + c.utf8Size
    if !isAllowed c then none
    else if isGap c then
      if pending.inBreaks && c == '\t' && decide (column < indent) then none
      else plain flow indent done (pending.blank c) line (column + 1) past r
    else if isBreak c then
      plain flow indent done (pending.lineBreak c) (line + 1) 0 past r
    else if flow && c == ':' && (r.head?.any fun d => flowIndicator d || d == '?') then none
    else if endsPlain flow indent pending column (c :: r) then
      some ⟨done.reverse, ⟨c :: r, line, column, index⟩, pending.inBreaks⟩
    else plain flow indent (c :: (pending.text.reverse ++ done)) .none line (column + 1) past r

/-- What was begun inside quotes: an escape, its code, or in single quotes a quote that ends the
scalar unless another one follows. -/
inductive Escape where
  | none
  | begun
  | code (digits : Nat) (value : Nat)
  | quote

/-- The character that a letter after a backslash stands for. -/
def escaped? : Char → Option Char
  | '0' => some '\x00'
  | 'a' => some '\x07'
  | 'b' => some '\x08'
  | 't' => some '\t'
  | '\t' => some '\t'
  | 'n' => some '\n'
  | 'v' => some '\x0b'
  | 'f' => some '\x0c'
  | 'r' => some '\r'
  | 'e' => some '\x1b'
  | ' ' => some ' '
  | '"' => some '"'
  | '/' => some '/'
  | '\\' => some '\\'
  | 'N' => some '\x85'
  | '_' => some '\xa0'
  | 'L' => some '\u2028'
  | 'P' => some '\u2029'
  | _ => none

def codeLength? : Char → Option Nat
  | 'x' => some 2
  | 'u' => some 4
  | 'U' => some 8
  | _ => none

def hexDigit? (c : Char) : Option Nat :=
  if '0' ≤ c && c ≤ '9' then some (c.toNat - '0'.toNat)
  else if 'a' ≤ c && c ≤ 'f' then some (c.toNat - 'a'.toNat + 10)
  else if 'A' ≤ c && c ≤ 'F' then some (c.toNat - 'A'.toNat + 10)
  else none

/-- The rest of a scalar in quotes. In single quotes only the quote itself is marked, by being
doubled; in double quotes a backslash begins an escape, and one at the end of a line joins it. -/
def quoted (single : Bool) (done : List Char) (pending : Pending) (escape : Escape)
    (line column index : Nat) : List Char → Option Scanned
  | [] =>
    if escape matches .quote then some ⟨done.reverse, ⟨[], line, column, index⟩, false⟩ else none
  | c :: r =>
    let past := index + c.utf8Size
    if !isAllowed c then none else
    match escape with
    | .begun =>
      if isBreak c then quoted single done (.breaks none []) .none (line + 1) 0 past r
      else
        match escaped? c, codeLength? c with
        | some d, _ => quoted single (d :: done) .none .none line (column + 1) past r
        | none, some n => quoted single done .none (.code n 0) line (column + 1) past r
        | none, none => none
    | .code n v =>
      match hexDigit? c with
      | none => none
      | some d =>
        let value := 16 * v + d
        if 1 < n then quoted single done .none (.code (n - 1) value) line (column + 1) past r
        else if value.isValidChar then
          quoted single (Char.ofNat value :: done) .none .none line (column + 1) past r
        else none
    | .quote =>
      if c == '\'' then quoted single (c :: done) .none .none line (column + 1) past r
      else some ⟨done.reverse, ⟨c :: r, line, column, index⟩, false⟩
    | .none =>
      if isGap c then quoted single done (pending.blank c) .none line (column + 1) past r
      else if isBreak c then
        quoted single done (pending.lineBreak c) .none (line + 1) 0 past r
      else if markerNext column (c :: r) then none
      else
        let done := pending.text.reverse ++ done
        if single && c == '\'' then quoted single done .none .quote line (column + 1) past r
        else if !single && c == '"' then some ⟨done.reverse, ⟨r, line, column + 1, past⟩, false⟩
        else if !single && c == '\\' then
          quoted single done .none .begun line (column + 1) past r
        else quoted single (c :: done) .none .none line (column + 1) past r

end Token

end Wiring.Document
