import Mathlib.Data.List.Basic
import Wiring.Proofs.Hierarchy
import Wiring.Proofs.Methods

namespace Wiring

namespace BeanType

/-- What is inherited is found where the name was not known before. -/
theorem find?_inherit (known more : List (Method BeanType)) (n : String) :
    (inherit known more).find? (·.name == n) =
      (known.find? (·.name == n)).or (more.find? (·.name == n)) := by
  induction more generalizing known with
  | nil => simp [inherit]
  | cons m more ih =>
    by_cases there : known.any (·.name == m.name) = true
    · have left : inherit known (m :: more) = inherit known more := by
        simp only [inherit, List.foldl_cons, there, if_true]
      rw [left, ih]
      by_cases name : m.name = n
      · obtain ⟨k, hk, same⟩ := List.any_eq_true.mp there
        have found : (known.find? (·.name == n)).isSome := by
          rw [List.find?_isSome]
          exact ⟨k, hk, name ▸ same⟩
        obtain ⟨first, found⟩ := Option.isSome_iff_exists.mp found
        rw [found, Option.some_or, Option.some_or]
      · simp [name]
    · have added : inherit known (m :: more) = inherit (known ++ [m]) more := by
        simp only [inherit, List.foldl_cons, there, if_false, Bool.false_eq_true]
      rw [added, ih, List.find?_append, Option.or_assoc]
      cases name : m.name == n <;>
        simp only [List.find?_cons, name, List.find?_nil, Option.none_or, Option.some_or]

theorem find?_inheritAll (known : List (Method BeanType)) (interfaces : List BeanType) (n : String) :
    (inheritAll known interfaces).find? (·.name == n) =
      (known.find? (·.name == n)).or (interfaces.findSome? (·.method? n)) := by
  induction interfaces generalizing known with
  | nil => simp [inheritAll]
  | cons i rest ih =>
    rw [inheritAll, ih, find?_inherit, Option.or_assoc, ← method?, List.findSome?_cons]
    cases i.method? n <;> rfl

/-- A declared method of the name comes first, and then what the interfaces have, in order. -/
theorem method?_eq_or (t : BeanType) (n : String) :
    t.method? n = (t.methods.find? (·.name == n)).or (t.interfaces.findSome? (·.method? n)) := by
  obtain ⟨name, kind, interfaces, methods⟩ := t
  rw [method?, allMethods, find?_inheritAll]

theorem isSome_method?_iff (t : BeanType) (n : String) :
    (t.method? n).isSome ↔ n ∈ t.allMethods.map (·.name) := by
  simp [method?, List.find?_isSome]

/-- A method of the name is found if a type in the hierarchy declares one. -/
theorem isSome_method?_iff_extends (t : BeanType) (n : String) :
    (t.method? n).isSome ↔ ∃ s, t.Extends s ∧ n ∈ s.methods.map (·.name) := by
  induction t using interfaces_induction with
  | step t ih =>
    have declared : (t.methods.find? (·.name == n)).isSome ↔ n ∈ t.methods.map (·.name) := by
      simp [List.find?_isSome]
    rw [method?_eq_or, Option.isSome_or, Bool.or_eq_true, declared, List.findSome?_isSome_iff]
    constructor
    · rintro (own | ⟨i, hi, found⟩)
      · exact ⟨t, .refl, own⟩
      · obtain ⟨s, above, declares⟩ := (ih i hi).mp found
        exact ⟨s, .head hi above, declares⟩
    · rintro ⟨s, above, declares⟩
      rcases Relation.ReflTransGen.cases_head above with rfl | ⟨i, hi, above⟩
      · exact .inl declares
      · exact .inr ⟨i, hi, (ih i hi).mpr ⟨s, above, declares⟩⟩

end BeanType

/-- A method that is looked up is the first one of its name that the type declares, or else what the first of
its interfaces has that has one. The list of all methods begins with those that are declared; the others have
no name that is declared and no two of them the same; and the names are those of all methods that the type or
one in the hierarchy above it declares. -/
theorem lookup_leftmost (t : BeanType) :
    (∀ n, t.method? n =
      (t.methods.find? (·.name == n)).or (t.interfaces.findSome? (·.method? n))) ∧
    (∃ inherited, t.allMethods = t.methods ++ inherited ∧ (inherited.map (·.name)).Nodup ∧
      (t.methods.map (·.name)).Disjoint (inherited.map (·.name))) ∧
    ∀ n, n ∈ t.allMethods.map (·.name) ↔ ∃ s, t.Extends s ∧ n ∈ s.methods.map (·.name) := by
  refine ⟨t.method?_eq_or, ?_, fun n => ?_⟩
  · obtain ⟨inherited, all, fresh⟩ := t.allMethods_eq
    refine ⟨inherited, all, List.pairwise_map.mpr fresh.distinct, fun n declared inherits => ?_⟩
    obtain ⟨d, hd, rfl⟩ := List.mem_map.mp declared
    obtain ⟨m, hm, same⟩ := List.mem_map.mp inherits
    exact fresh.unknown m hm d hd same.symm
  · rw [← BeanType.isSome_method?_iff, BeanType.isSome_method?_iff_extends]

end Wiring
