import Wiring.Error
import Wiring.Settings

namespace Wiring.Settings

/-- What is wrong with a document. -/
inductive Flaw where
  | unreadable
  | unknownField (key : String) (known : List String)
  | duplicateField (key : String)
  | missingField (key : String)
  | wrongType (field : Option String) (found expected : String)
  deriving DecidableEq

namespace Flaw

def ticked (name : String) : String := "\x60" ++ name ++ "\x60"

/-- Which names would have been right. -/
def expectedOf : List String → String
  | [] => "there are no fields"
  | [name] => "expected " ++ ticked name
  | [first, second] => "expected " ++ ticked first ++ " or " ++ ticked second
  | names => "expected one of " ++ ", ".intercalate (names.map ticked)

/-- The report of a flaw; that of an unreadable text is not determined. -/
def text? : Flaw → Option String
  | unreadable => none
  | unknownField key known => some ("unknown field " ++ ticked key ++ ", " ++ expectedOf known)
  | duplicateField key => some ("duplicate field " ++ ticked key)
  | missingField key => some ("missing field " ++ ticked key)
  | wrongType field found expected =>
    let place := match field with
      | none => ""
      | some f => f ++ ": "
    some (place ++ "invalid type: " ++ found ++ ", expected " ++ expected)

end Flaw

/-- An entry of a document as it is offered to a visitor: the key as the name of a field, the value as a
truth value. -/
structure Offer where
  key : Except Flaw String
  value : Except Flaw Bool

/-- The fields that were given so far. -/
abbrev Given : Type := String → Option Bool

def Given.put (g : Given) (key : String) (b : Bool) : Given := fun k => if k = key then some b else g k

/-- What makes a record of truth values out of the entries of a document. -/
structure Visitor where
  expecting : String
  /-- The values of all fields, by those that were given before and the entries that follow. -/
  visit : Given → List Offer → Except Flaw (String → Bool)

/-- How a record of truth values is declared. -/
structure Declaration where
  name : String
  fields : List String
  /-- No other field may be given. -/
  denyUnknown : Bool
  /-- The values of the fields that are not given, if fields may be left out. -/
  default : Option (String → Bool)

def declaration : Declaration where
  name := "ProcessorConfig"
  fields := keys
  denyUnknown := true
  default := some ({} : Settings).value

/-- Why nothing can be opened at a path. -/
inductive Unopened where
  | noSuchFile
  /-- A part is too long, or goes on behind what is no directory, or the whole is no path at all. -/
  | impassable
  deriving DecidableEq

/-- What the settings are read with: visitors that are generated from declarations, a reader of documents
that hands their entries to a visitor, and files. -/
structure Reader where
  derived : Declaration → Visitor
  text : Visitor → String → Except Flaw (String → Bool)
  bytes : Visitor → List UInt8 → Except Flaw (String → Bool)
  /-- The bytes at a path. A directory can be opened, but has none. -/
  opened : String → Except Unopened (Option (List UInt8))

/-- Where a document comes from. -/
inductive Origin where
  | text (s : String)
  | bytes (content : List UInt8)
  | path (p : String)

/-- What goes wrong on the way to the settings. -/
inductive Failure where
  | path (reason : Unopened)
  | parse (flaw : Flaw)

/-- The report of a failure, where it is determined. -/
def Failure.text? : Failure → Option String
  | path .noSuchFile => some (Error.configRead "No such file or directory (os error 2)").message
  | path .impassable => none
  | parse flaw => flaw.text?.map fun t => (Error.configParse t).message

namespace Reader

/-- The values that were read as settings. -/
def parsed : Except Flaw (String → Bool) → Except Failure Settings
  | .ok value => .ok (ofValues value)
  | .error flaw => .error (.parse flaw)

def load (r : Reader) : Origin → Except Failure Settings
  | .text s => parsed (r.text (r.derived declaration) s)
  | .bytes content => parsed (r.bytes (r.derived declaration) content)
  | .path p =>
    match r.opened p with
    | .error reason => .error (.path reason)
    | .ok none => .error (.parse .unreadable)
    | .ok (some content) => parsed (r.bytes (r.derived declaration) content)

end Reader

end Wiring.Settings
