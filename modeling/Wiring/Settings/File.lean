import Wiring.Document.Piece
import Wiring.Document.Scalar
import Wiring.Settings.Path

namespace Wiring.Settings

open Document

namespace Declaration

/-- All fields, once every entry was taken. -/
def complete (D : Declaration) (g : Given) : Except Flaw (String → Bool) :=
  match D.default with
  | some default => .ok fun key => (g key).getD (default key)
  | none =>
    match D.fields.find? fun key => (g key).isNone with
    | some key => .error (.missingField key)
    | none => .ok fun key => (g key).getD false

/-- A key is judged before its value. -/
def visit (D : Declaration) (g : Given) : List Offer → Except Flaw (String → Bool)
  | [] => D.complete g
  | ⟨.error flaw, _⟩ :: _ => .error flaw
  | ⟨.ok key, value⟩ :: rest =>
    if key ∈ D.fields then
      if (g key).isSome then .error (.duplicateField key)
      else
        match value with
        | .ok b => D.visit (g.put key b) rest
        | .error flaw => .error flaw
    else if D.denyUnknown then .error (.unknownField key D.fields)
    else D.visit g rest

def visitor (D : Declaration) : Visitor := ⟨"struct " ++ D.name, D.visit⟩

end Declaration

namespace Offer

/-- How a node is named that is not what was expected. -/
def found : Piece → Option String
  | .scalar text plain => some (Meaning.of text plain).describe
  | .sequence => some "sequence"
  | .mapping => some "map"
  | .close | .fault => none

def mismatch (field : Option String) (e : Piece) (expected : String) : Flaw :=
  match found e with
  | none => .unreadable
  | some f => .wrongType field f expected

/-- The truth value of a field. -/
def truth (key : String) (e : Piece) : Except Flaw Bool :=
  match e with
  | .scalar text true =>
    match Meaning.bool? text with
    | some b => .ok b
    | none => .error (mismatch (some key) e "a boolean")
  | e => .error (mismatch (some key) e "a boolean")

/-- A key that cannot be read; nothing is read behind it. -/
def refused (flaw : Flaw) : Offer := ⟨.error flaw, .error flaw⟩

/-- The entries of a mapping up to its end, which is that of the document. -/
def ofPieces : List Piece → List Offer
  | [.close] => []
  | .scalar key _ :: value :: rest => ⟨.ok key, truth key value⟩ :: ofPieces rest
  | e :: _ => [refused (mismatch none e "field identifier")]
  | [] => [refused .unreadable]

end Offer

namespace Reader

/-- A document is read for a visitor; an empty one has no entries. -/
def readPieces (v : Visitor) : List Piece → Except Flaw (String → Bool)
  | [] => v.visit (fun _ => none) []
  | .mapping :: rest => v.visit (fun _ => none) (Offer.ofPieces rest)
  | [.scalar "" true] => v.visit (fun _ => none) []
  | .scalar "" true :: _ => .error .unreadable
  | e :: _ => .error (Offer.mismatch none e v.expecting)

def readText (v : Visitor) (s : String) : Except Flaw (String → Bool) := readPieces v (Piece.ofText s)

/-- The reader with everything of its own. -/
def standard : Reader where
  derived := Declaration.visitor
  text := readText
  bytes v content :=
    match String.fromUTF8? ⟨content.toArray⟩ with
    | none => .error .unreadable
    | some s => readText v s
  opened := FileTree.standard.opened

end Reader

/-- The settings in a document. -/
def load : Origin → Except Failure Settings := Reader.standard.load

end Wiring.Settings
