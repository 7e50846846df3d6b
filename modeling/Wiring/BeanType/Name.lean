import Wiring.BeanType

namespace Wiring.BeanType

/-- What follows the right-most occurrence of a separator, which is looked for from the end. -/
def afterLast? (separator : List Char) : List Char → Option (List Char)
  | [] => none
  | c :: r => (afterLast? separator r).or (separator.isPrefixOf? (c :: r))

/-- What follows the right-most occurrence of a separator, or else the whole text. -/
def afterLast (separator text : List Char) : List Char := (afterLast? separator text).getD text

/-- The last part of a path of names: what follows the last two colons, and in it what follows the last
point. -/
def lastPart (path : String) : String :=
  String.ofList (afterLast ['.'] (afterLast [':', ':'] path.toList))

def simpleName (t : BeanType) : String := lastPart t.name

end Wiring.BeanType
