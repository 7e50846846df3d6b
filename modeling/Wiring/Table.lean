namespace Wiring

/-- A finite map as the list of its entries; a key has at most one. -/
structure Table (κ ν : Type) where
  entries : List (κ × ν) := []

namespace Table

variable {κ ν : Type} [DecidableEq κ]

def get? (t : Table κ ν) (k : κ) : Option ν := t.entries.lookup k

def contains (t : Table κ ν) (k : κ) : Bool := (t.get? k).isSome

def replace (k : κ) (v : ν) : List (κ × ν) → List (κ × ν)
  | [] => [(k, v)]
  | e :: r => if e.1 = k then (k, v) :: r else e :: replace k v r

/-- Gives the key this value: in the place of its old entry, or else at the end. -/
def insert (t : Table κ ν) (k : κ) (v : ν) : Table κ ν := ⟨replace k v t.entries⟩

def erase (t : Table κ ν) (k : κ) : Table κ ν := ⟨t.entries.filter (·.1 ≠ k)⟩

def size (t : Table κ ν) : Nat := t.entries.length

end Table

end Wiring
