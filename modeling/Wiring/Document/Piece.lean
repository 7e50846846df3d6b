import Wiring.Document.Scan

namespace Wiring.Document

/-- What a document says at its top. Collections inside are only seen to begin, since nothing in them is a
field. -/
inductive Piece where
  | scalar (text : String) (plain : Bool)
  | sequence
  | mapping
  /-- The mapping at the top is complete. -/
  | close
  /-- The text cannot be read from here on, or another document follows. -/
  | fault
  deriving DecidableEq

namespace Piece

/-- A key or value that is not written. -/
def empty : Piece := .scalar "" true

def ofToken? : Token → Option Piece
  | .scalar text plain => some (.scalar text plain)
  | .sequenceStart | .item | .flowSequenceStart => some .sequence
  | .mappingStart | .flowMappingStart => some .mapping
  | _ => none

/-- Nothing may follow the document. -/
def ending (rest : List Token) : List Piece :=
  if rest.dropWhile (· == .documentEnd) == [.textEnd] then [] else [.fault]

/-- What comes next in a mapping. -/
inductive Expecting where
  | key
  | keyNode
  | value
  | valueNode

/-- The node at the front and what follows; nothing follows the start of a collection. -/
def node (t : Token) (follow : List Piece) : List Piece :=
  match ofToken? t with
  | some (.scalar text plain) => .scalar text plain :: follow
  | some e => [e]
  | none => [.fault]

def blockFields : Expecting → List Token → List Piece
  | _, [] => [.fault]
  | .key, t :: r =>
    match t with
    | .key => blockFields .keyNode r
    | .blockEnd => .close :: ending r
    | _ => [.fault]
  | .keyNode, t :: r =>
    match t with
    | .key => empty :: empty :: blockFields .keyNode r
    | .value => empty :: blockFields .valueNode r
    | .blockEnd => empty :: empty :: .close :: ending r
    | t => node t (blockFields .value r)
  | .value, t :: r =>
    match t with
    | .key => empty :: blockFields .keyNode r
    | .value => blockFields .valueNode r
    | .blockEnd => empty :: .close :: ending r
    | _ => [empty, .fault]
  | .valueNode, t :: r =>
    match t with
    | .key => empty :: blockFields .keyNode r
    | .value => [empty, .fault]
    | .blockEnd => empty :: .close :: ending r
    | t => node t (blockFields .key r)

/-- A value that is not written is known to be missing only at the token after it. -/
def withoutValue (rest : List Token) (follow : List Piece) : List Piece :=
  if rest.isEmpty then [.fault] else empty :: follow

/-- `first` tells that no comma is needed before the next key. -/
def flowFields (first : Bool) : Expecting → List Token → List Piece
  | _, [] => [.fault]
  | .key, t :: r =>
    match t with
    | .flowMappingEnd => .close :: ending r
    | .comma => if first then [.fault] else flowFields true .key r
    | .key => if first then flowFields false .keyNode r else [.fault]
    | .item => [.fault]
    | t => if first then node t (withoutValue r (flowFields false .key r)) else [.fault]
  | .keyNode, t :: r =>
    match t with
    | .value => empty :: flowFields false .valueNode r
    | .comma => empty :: empty :: flowFields true .key r
    | .flowMappingEnd => empty :: empty :: .close :: ending r
    | .item => [.fault]
    | t => node t (flowFields false .value r)
  | .value, t :: r =>
    match t with
    | .value => flowFields false .valueNode r
    | .comma => empty :: flowFields true .key r
    | .flowMappingEnd => empty :: .close :: ending r
    | _ => [empty, .fault]
  | .valueNode, t :: r =>
    match t with
    | .comma => empty :: flowFields true .key r
    | .flowMappingEnd => empty :: .close :: ending r
    | .item => [.fault]
    | t => node t (flowFields false .key r)

def ofNode : List Token → List Piece
  | [] => [.fault]
  | .mappingStart :: r => .mapping :: blockFields .key r
  | .flowMappingStart :: r => .mapping :: flowFields true .key r
  | .item :: _ => [.fault]
  | t :: r => node t (ending r)

/-- The pieces of the first document of a text. -/
def ofTokens : List Token → List Piece
  | [.textEnd] => []
  | .documentStart :: r =>
    match r with
    | [] => [.fault]
    | .documentStart :: _ => [empty, .fault]
    | .documentEnd :: _ | .textEnd :: _ => empty :: ending r
    | _ => ofNode r
  | ts => ofNode ts

def ofText (text : String) : List Piece := ofTokens (Document.tokens text)

end Piece

end Wiring.Document
