import Mathlib.Data.Set.Basic
import Mathlib.Logic.Relation
import Wiring.BeanType

namespace Wiring

namespace BeanType

def Implements (t i : BeanType) : Prop := i ∈ t.interfaces

/-- The second type is the first one or in the hierarchy above it. -/
abbrev Extends (t m : BeanType) : Prop := Relation.ReflTransGen Implements t m

/-- The names in the hierarchy of a type, its own among them. -/
def names (t : BeanType) : Set String := { n | ∃ m, t.Extends m ∧ m.name = n }

/-- What holds of a type if it holds of the interfaces that it implements, holds of all types. -/
@[elab_as_elim] theorem interfaces_induction {motive : BeanType → Prop}
    (step : ∀ t, (∀ i ∈ t.interfaces, motive i) → motive t) (t : BeanType) : motive t := by
  refine step t fun i hi => ?_
  have smaller : sizeOf i < sizeOf t := by
    cases t with
    | mk name kind interfaces methods =>
      have inside : sizeOf i < sizeOf interfaces := List.sizeOf_lt_of_mem hi
      simp only [mk.sizeOf_spec]
      omega
  exact interfaces_induction step i
termination_by sizeOf t

theorem anyAssignableTo_iff (types : List BeanType) (target : BeanType) :
    anyAssignableTo types target = true ↔ ∃ i ∈ types, i.isAssignableTo target = true := by
  induction types with
  | nil => simp [anyAssignableTo]
  | cons t rest ih => simp [anyAssignableTo, ih]

theorem isAssignableTo_iff (t target : BeanType) :
    t.isAssignableTo target = true ↔
      t.name = target.name ∨ ∃ i ∈ t.interfaces, i.isAssignableTo target = true := by
  cases t
  simp [isAssignableTo, anyAssignableTo_iff]

theorem isAssignableTo_of_extends {t m target : BeanType} (h : t.Extends m)
    (hm : m.isAssignableTo target = true) : t.isAssignableTo target = true := by
  induction h using Relation.ReflTransGen.head_induction_on with
  | refl => exact hm
  | head implements _ ih => exact (isAssignableTo_iff _ target).mpr (.inr ⟨_, implements, ih⟩)

/-- Assignability compares the name of the target with those in the hierarchy. -/
theorem isAssignableTo_iff_mem_names (t target : BeanType) :
    t.isAssignableTo target = true ↔ target.name ∈ t.names := by
  constructor
  · induction t using interfaces_induction with
    | step t ih =>
      intro h
      rcases (isAssignableTo_iff t target).mp h with name | ⟨i, hi, below⟩
      · exact ⟨t, .refl, name⟩
      · obtain ⟨m, above, name⟩ := ih i hi below
        exact ⟨m, .head hi above, name⟩
  · rintro ⟨m, above, name⟩
    exact isAssignableTo_of_extends above ((isAssignableTo_iff m target).mpr (.inl name))

theorem isAssignableTo_interface_iff (t : BeanType) (n : String) :
    t.isAssignableTo (.interface n) = true ↔ n ∈ t.names :=
  isAssignableTo_iff_mem_names t (.interface n)

/-- Besides the type itself, it is what is at least one step above that counts. -/
theorem mem_names_iff (t : BeanType) (n : String) :
    n ∈ t.names ↔ t.name = n ∨ ∃ m, Relation.TransGen Implements t m ∧ m.name = n := by
  constructor
  · rintro ⟨m, above, name⟩
    rcases Relation.reflTransGen_iff_eq_or_transGen.mp above with rfl | above
    · exact .inl name
    · exact .inr ⟨m, above, name⟩
  · rintro (name | ⟨m, above, name⟩)
    · exact ⟨t, .refl, name⟩
    · exact ⟨m, above.to_reflTransGen, name⟩

/-- Types among which there are the interfaces of each. -/
def Closed (U : BeanType → Prop) : Prop := ∀ t, U t → ∀ i ∈ t.interfaces, U i

theorem Closed.extends {U : BeanType → Prop} (closed : Closed U) {t m : BeanType} (ht : U t)
    (above : t.Extends m) : U m := by
  induction above with
  | refl => exact ht
  | tail _ implements ih => exact closed _ ih _ implements

/-- Where a name tells the names above a type, assignability is transitive. -/
theorem isAssignableTo_trans {U : BeanType → Prop} (closed : Closed U)
    (alike : ∀ a b, U a → U b → a.name = b.name → a.names = b.names) {a b target : BeanType} (ha : U a)
    (hb : U b) (hab : a.isAssignableTo b = true) (hbt : b.isAssignableTo target = true) :
    a.isAssignableTo target = true := by
  obtain ⟨m, above, name⟩ := (isAssignableTo_iff_mem_names a b).mp hab
  have same : m.names = b.names := alike m b (closed.extends ha above) hb name
  refine isAssignableTo_of_extends above ((isAssignableTo_iff_mem_names m target).mpr ?_)
  rw [same]
  exact (isAssignableTo_iff_mem_names b target).mp hbt

/-- Where assignability is transitive, a type has all names above one that bears its name. -/
theorem names_subset_of_trans {U : BeanType → Prop} (closed : Closed U)
    (trans : ∀ a b c, U a → U b → U c → a.isAssignableTo b = true → b.isAssignableTo c = true →
      a.isAssignableTo c = true) {a b : BeanType} (ha : U a) (hb : U b) (name : a.name = b.name) :
    b.names ⊆ a.names := by
  rintro n ⟨m, above, rfl⟩
  have first : a.isAssignableTo b = true := (isAssignableTo_iff a b).mpr (.inl name)
  have second : b.isAssignableTo m = true :=
    isAssignableTo_of_extends above ((isAssignableTo_iff m m).mpr (.inl rfl))
  exact (isAssignableTo_iff_mem_names a m).mp (trans a b m ha hb (closed.extends hb above) first second)

end BeanType

open BeanType in
/-- A type is assignable to another one exactly if it bears the name of that one or a type above it does. So
assignability is reflexive and asks for a name only, a type is assignable to all interfaces above it and to
whatever these are assignable to; and among types that are closed under interfaces it is transitive exactly
if types of one name have the same names above them. -/
theorem assignability_by_name :
    (∀ a b : BeanType, a.isAssignableTo b = true ↔
      a.name = b.name ∨ ∃ m, Relation.TransGen Implements a m ∧ m.name = b.name) ∧
    (∀ a : BeanType, a.isAssignableTo a = true) ∧
    (∀ a b b' : BeanType, b.name = b'.name → a.isAssignableTo b = a.isAssignableTo b') ∧
    (∀ a i : BeanType, Relation.TransGen Implements a i → a.isAssignableTo i = true) ∧
    (∀ a m b : BeanType, a.Extends m → m.isAssignableTo b = true → a.isAssignableTo b = true) ∧
    (∀ U : BeanType → Prop, Closed U →
      ((∀ a b, U a → U b → a.name = b.name → a.names = b.names) ↔
        ∀ a b c, U a → U b → U c → a.isAssignableTo b = true → b.isAssignableTo c = true →
          a.isAssignableTo c = true)) := by
  have self (a : BeanType) : a.isAssignableTo a = true := (isAssignableTo_iff a a).mpr (.inl rfl)
  refine ⟨fun a b => ?_, self, fun a b b' name => ?_, fun a i above => ?_,
    fun a m b above below => isAssignableTo_of_extends above below, fun U closed => ?_⟩
  · rw [isAssignableTo_iff_mem_names, mem_names_iff]
  · rw [Bool.eq_iff_iff, isAssignableTo_iff_mem_names, isAssignableTo_iff_mem_names, name]
  · exact isAssignableTo_of_extends above.to_reflTransGen (self i)
  · constructor
    · exact fun alike a b c ha hb _ hab hbc => isAssignableTo_trans closed alike ha hb hab hbc
    · intro trans a b ha hb name
      exact Set.Subset.antisymm (names_subset_of_trans closed trans hb ha name.symm)
        (names_subset_of_trans closed trans ha hb name)

/-- An interface below one of two interfaces of the same name, which differ in what they declare. -/
def belowShared (middle : BeanType) : BeanType :=
  { BeanType.interface "app::I" with interfaces := [middle] }

def sharedBare : BeanType := { BeanType.interface "app::J" with interfaces := [.interface "app::K"] }

def sharedRich : BeanType := { sharedBare with methods := [⟨"a", some (.interface "app::L")⟩] }

open BeanType in
/-- The interface is assignable to the one that it does not implement as well, and so to what is above. -/
theorem assignability_by_name_shared :
    sharedBare.methods.length ≠ sharedRich.methods.length ∧
    (belowShared sharedBare).isAssignableTo sharedRich = true ∧
    (belowShared sharedBare).isAssignableTo (.interface "app::K") = true ∧
    sharedRich.isAssignableTo (belowShared sharedBare) = false := by
  let U (t : BeanType) : Prop :=
    t ∈ [belowShared sharedBare, sharedBare, sharedRich, .interface "app::K"]
  have closed : Closed U := by
    simp [U, Closed, belowShared, sharedBare, sharedRich, BeanType.interface]
  have shared : sharedBare.names = sharedRich.names := by
    ext n
    rw [← isAssignableTo_interface_iff, ← isAssignableTo_interface_iff]
    simp [isAssignableTo, anyAssignableTo, sharedBare, sharedRich, BeanType.interface]
  have alike (a b : BeanType) (ha : U a) (hb : U b) (name : a.name = b.name) : a.names = b.names := by
    simp only [U, List.mem_cons, List.not_mem_nil, or_false] at ha hb
    rcases ha with rfl | rfl | rfl | rfl <;> rcases hb with rfl | rfl | rfl | rfl <;>
      first | rfl | exact shared | exact shared.symm | exact absurd name (by decide)
  obtain ⟨_, _, byName, above, along, transitive⟩ := assignability_by_name
  have first : (belowShared sharedBare).isAssignableTo sharedBare = true :=
    above _ _ (.single (List.mem_singleton.mpr rfl))
  have second : (belowShared sharedBare).isAssignableTo sharedRich = true :=
    (byName _ sharedBare sharedRich rfl).symm.trans first
  have third : sharedRich.isAssignableTo (.interface "app::K") = true :=
    along _ _ _ (.single (List.mem_singleton.mpr rfl)) rfl
  refine ⟨by decide, second, ?_, by decide⟩
  exact (transitive U closed).mp alike _ sharedRich _ (by simp [U]) (by simp [U]) (by simp [U])
    second third

end Wiring
