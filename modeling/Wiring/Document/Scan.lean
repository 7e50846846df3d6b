import Wiring.Document.Token

namespace Wiring.Document

open Token

/-- A token that becomes a key if a colon follows on the same line. In a block a token in the column
of the block has to become one. -/
structure KeyCandidate where
  number : Nat
  required : Bool
  place : Place

/-- A key and its colon stand on one line, at most so many bytes apart. -/
def KeyCandidate.inReach (k : KeyCandidate) (p : Place) : Bool :=
  k.place.line == p.line && decide (p.index ≤ k.place.index + 1024)

/-- How far a text has been read. There is one place for a key candidate in the block and one in each
open bracket, the innermost first; `indent` is the column of the innermost block. -/
structure Scan where
  place : Place
  indent : Int := -1
  outer : List Int := []
  keyAllowed : Bool := true
  candidate : Option KeyCandidate := none
  brackets : List (Option KeyCandidate) := []
  tokens : List Token := []

namespace Scan

def inFlow (s : Scan) : Bool := !s.brackets.isEmpty

def emit (s : Scan) (t : Token) : Scan := { s with tokens := s.tokens ++ [t] }

/-- Puts a token before the one with this number. -/
def emitAt (s : Scan) (number : Nat) (t : Token) : Scan :=
  { s with tokens := s.tokens.take number ++ t :: s.tokens.drop number }

/-- Past some characters of the current line. -/
def advance (s : Scan) (n : Nat) : Scan := { s with place := s.place.skip n }

/-- Opens a block in this column unless the column belongs to the current one. -/
def indentTo (s : Scan) (column number : Nat) (t : Token) : Scan :=
  if !s.inFlow && decide (s.indent < column) then
    { s with indent := column, outer := s.indent :: s.outer }.emitAt number t
  else s

/-- Closes the blocks that are indented further than the column. -/
def outdent (column : Int) (indent : Int) (tokens : List Token) : List Int → Int × List Int × List Token
  | [] => (indent, [], tokens)
  | o :: outer =>
    if column < indent then outdent column o (tokens ++ [.blockEnd]) outer
    else (indent, o :: outer, tokens)

def outdentTo (s : Scan) (column : Int) : Scan :=
  if s.inFlow then s
  else
    let (indent, outer, tokens) := outdent column s.indent s.tokens s.outer
    { s with indent, outer, tokens }

/-- Gives up a candidate; one that has to become a key is a fault. -/
def forget : Option KeyCandidate → Option (Option KeyCandidate)
  | none => some none
  | some k => if k.required then none else some none

def forgetKey (s : Scan) : Option Scan := do
  let candidate ← forget s.candidate
  return { s with candidate }

def forgetIfPast (p : Place) (k : Option KeyCandidate) : Option (Option KeyCandidate) :=
  if k.all (·.inReach p) then some k else forget k

/-- Gives up all candidates whose line has ended. -/
def forgetPast (s : Scan) : Option Scan := do
  let candidate ← forgetIfPast s.place s.candidate
  let brackets ← s.brackets.mapM (forgetIfPast s.place)
  return { s with candidate, brackets }

/-- Makes the token to come a candidate, where a key may stand. -/
def saveKey (s : Scan) : Option Scan :=
  if s.keyAllowed then do
    let s ← s.forgetKey
    let required := !s.inFlow && s.indent == s.place.column
    return { s with candidate := some ⟨s.tokens.length, required, s.place⟩ }
  else some s

/-- Past white space and comments. Tabs do not indent: where a key may stand in a block, they are no
white space. After a line break in a block a key may stand. A mark of the byte order at the start of
a line takes a column, but is not part of the text. -/
def gaps (flow keyAllowed comment : Bool) (line column index : Nat) : List Char → Bool × Place
  | [] => (keyAllowed, ⟨[], line, column, index⟩)
  | c :: r =>
    let past := index + c.utf8Size
    if isBreak c then gaps flow (keyAllowed || !flow) false (line + 1) 0 past r
    else if (comment && isAllowed c) || c == ' ' || (column == 0 && c == '\ufeff') ||
        ((flow || !keyAllowed) && c == '\t') then
      gaps flow keyAllowed comment line (column + 1) past r
    else if c == '#' then gaps flow keyAllowed true line (column + 1) past r
    else (keyAllowed, ⟨c :: r, line, column, index⟩)

def skipGaps (s : Scan) : Scan :=
  let p := s.place
  let (keyAllowed, place) := gaps s.inFlow s.keyAllowed false p.line p.column p.index p.rest
  { s with keyAllowed, place }

def marker (s : Scan) (t : Token) : Option Scan := do
  let s ← (s.outdentTo (-1)).forgetKey
  return ({ s with keyAllowed := false }.advance 3).emit t

def openBracket (s : Scan) (t : Token) : Option Scan := do
  let s ← s.saveKey
  let s := { s with brackets := s.candidate :: s.brackets, candidate := none, keyAllowed := true }
  return (s.advance 1).emit t

def closeBracket (s : Scan) (t : Token) : Option Scan := do
  let s ← s.forgetKey
  let s := match s.brackets with
    | [] => s
    | candidate :: brackets => { s with candidate, brackets }
  return ({ s with keyAllowed := false }.advance 1).emit t

def comma (s : Scan) : Option Scan := do
  let s ← s.forgetKey
  return ({ s with keyAllowed := true }.advance 1).emit .comma

def item (s : Scan) : Option Scan := do
  let opened ←
    if s.inFlow then some s
    else if s.keyAllowed then
      some (s.indentTo s.place.column s.tokens.length .sequenceStart)
    else none
  let s ← opened.forgetKey
  return ({ s with keyAllowed := true }.advance 1).emit .item

def explicitKey (s : Scan) : Option Scan := do
  let opened ←
    if s.inFlow then some s
    else if s.keyAllowed then some (s.indentTo s.place.column s.tokens.length .mappingStart)
    else none
  let s ← opened.forgetKey
  return ({ s with keyAllowed := !s.inFlow }.advance 1).emit .key

/-- A colon makes the candidate a key; without one it stands after an empty key. -/
def colon (s : Scan) : Option Scan := do
  let s ← match s.candidate with
    | some k =>
      let keyed := (s.emitAt k.number .key).indentTo k.place.column k.number .mappingStart
      some { keyed with candidate := none, keyAllowed := false }
    | none =>
      if s.inFlow then some { s with keyAllowed := false }
      else if s.keyAllowed then
        some { s.indentTo s.place.column s.tokens.length .mappingStart with keyAllowed := true }
      else none
  return (s.advance 1).emit .value

def scalar (s : Scan) (plain : Bool) (read : Place → Option Scanned) : Option Scan := do
  let s ← s.saveKey
  let scanned ← read s.place
  let s := { s with place := scanned.place, keyAllowed := scanned.newLine }
  return s.emit (.scalar (String.ofList scanned.text) plain)

def plainScalar (s : Scan) : Option Scan :=
  s.scalar true fun p =>
    plain s.inFlow (s.indent + 1).toNat [] .none p.line p.column p.index p.rest

def quotedScalar (s : Scan) (single : Bool) : Option Scan :=
  s.scalar false fun p => quoted single [] .none .none p.line (p.column + 1) (p.index + 1) p.rest.tail

/-- The characters that no scalar without quotes starts with. -/
def isIndicator (c : Char) : Bool :=
  "-?:,[]\x7b\x7d#&*!|>'\"%@\x60".toList.contains c

def plainNext (flow : Bool) (c : Char) (r : List Char) : Bool :=
  !isGap c && (!isIndicator c || (c == '-' && !(r.head?.any isGap)) ||
    (!flow && (c == '?' || c == ':') && !blankNext r))

/-- The next token; `none` is a fault. -/
def next (start : Scan) : Option Scan := do
  let s ← start.skipGaps.forgetPast
  let s := s.outdentTo s.place.column
  match s.place.rest with
  | [] => none
  | c :: r =>
    if ((c :: r).take 4).any (!isAllowed ·) then none
    else if s.place.column == 0 && c == '%' then none
    else if markerNext s.place.column (c :: r) then
      s.marker (if c == '-' then .documentStart else .documentEnd)
    else if c == '[' then s.openBracket .flowSequenceStart
    else if c == '\x7b' then s.openBracket .flowMappingStart
    else if c == ']' then s.closeBracket .flowSequenceEnd
    else if c == '\x7d' then s.closeBracket .flowMappingEnd
    else if c == ',' then s.comma
    else if c == '-' && blankNext r then s.item
    else if c == '?' && (s.inFlow || blankNext r) then s.explicitKey
    else if c == ':' && (s.inFlow || blankNext r) then s.colon
    else if c == '\'' then s.quotedScalar true
    else if c == '"' then s.quotedScalar false
    else if plainNext s.inFlow c r then s.plainScalar
    else none

/-- Nothing but white space and comments is left. -/
def atEnd (s : Scan) : Bool := s.skipGaps.place.rest.isEmpty

/-- Closes all blocks at the end of the text. -/
def finish (s : Scan) : Option Scan := do
  let s ← s.skipGaps.forgetPast
  let closed ← ({ s with place := s.place.freshLine }.outdentTo (-1)).forgetKey
  (closed.emit .textEnd).forgetPast

/-- The tokens that wait for nothing: the first candidate holds back its own token and those after it. -/
def released (s : Scan) : List Token :=
  let waiting := (s.candidate :: s.brackets).filterMap id
  s.tokens.take ((waiting.map (·.number)).foldl min s.tokens.length)

/-- All tokens, with at most `fuel` of them read from the text. Candidates are given up as soon as a
token ends on a later line, before that token is given out. -/
def run : Nat → Scan → List Token
  | 0, s => s.released
  | fuel + 1, s =>
    if s.atEnd then
      match s.finish with
      | none => s.released
      | some e => e.tokens
    else
      match s.next.bind forgetPast with
      | none => s.released
      | some n => run fuel n

end Scan

/-- So many bytes of a text are checked at once, before any token in them is read. -/
def blockSize : Nat := 16384

/-- The blocks before the first one with a character that is not allowed, and that character; a text
without one is kept as it is. `room` is what the current block can still take. -/
def legible (room : Nat) (block : List Char) : List Char → List Char
  | [] => block.reverse
  | c :: r =>
    if c.utf8Size ≤ room then
      if isAllowed c then legible (room - c.utf8Size) (c :: block) r else [c]
    else if isAllowed c then block.reverse ++ legible (blockSize - c.utf8Size) [c] r
    else block.reverse ++ [c]

/-- The tokens of a text that can be given out. What may turn out to be a key only at the colon after it holds
back all from there on, and this decides how much of a faulty document is read. -/
def tokens (text : String) : List Token :=
  let chars := normalBreaks (legible blockSize [] text.toList)
  Scan.run (chars.length + 1) { place := ⟨chars, 0, 0, 0⟩ }

end Wiring.Document
