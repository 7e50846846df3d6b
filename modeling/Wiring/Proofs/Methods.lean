import Wiring.BeanType

namespace Wiring

namespace BeanType

/-- Methods that come after others: of no name that is known, and no two of one name. -/
structure Fresh (known new : List (Method BeanType)) : Prop where
  unknown : ∀ m ∈ new, ∀ k ∈ known, k.name ≠ m.name
  distinct : new.Pairwise fun m m' => m.name ≠ m'.name

theorem Fresh.nil (known : List (Method BeanType)) : Fresh known [] := ⟨nofun, .nil⟩

theorem Fresh.single {known : List (Method BeanType)} {m : Method BeanType}
    (h : ∀ k ∈ known, k.name ≠ m.name) : Fresh known [m] :=
  ⟨List.forall_mem_singleton.mpr h, List.pairwise_singleton _ m⟩

theorem Fresh.append {known new more : List (Method BeanType)} (h : Fresh known new)
    (k : Fresh (known ++ new) more) : Fresh known (new ++ more) where
  unknown m hm := by
    rcases List.mem_append.mp hm with hm | hm
    · exact h.unknown m hm
    · exact fun d hd => k.unknown m hm d (List.mem_append_left new hd)
  distinct := List.pairwise_append.mpr ⟨h.distinct, k.distinct, fun m hm m' hm' =>
    k.unknown m' hm' m (List.mem_append_right known hm)⟩

theorem inherit_eq (known more : List (Method BeanType)) :
    ∃ new, inherit known more = known ++ new ∧ Fresh known new := by
  induction more generalizing known with
  | nil => exact ⟨[], (List.append_nil known).symm, .nil known⟩
  | cons m more ih =>
    by_cases there : known.any (·.name == m.name) = true
    · obtain ⟨new, same, fresh⟩ := ih known
      refine ⟨new, ?_, fresh⟩
      rw [← same]
      simp only [inherit, List.foldl_cons, there, if_true]
    · obtain ⟨new, same, fresh⟩ := ih (known ++ [m])
      have first : Fresh known [m] := .single fun k hk e => there (by simpa using ⟨k, hk, e⟩)
      refine ⟨[m] ++ new, ?_, first.append fresh⟩
      rw [← List.append_assoc, ← same]
      simp only [inherit, List.foldl_cons, there, if_false, Bool.false_eq_true]

theorem inheritAll_eq (known : List (Method BeanType)) (interfaces : List BeanType) :
    ∃ new, inheritAll known interfaces = known ++ new ∧ Fresh known new := by
  induction interfaces generalizing known with
  | nil => exact ⟨[], by simp [inheritAll], .nil known⟩
  | cons i rest ih =>
    obtain ⟨first, own, fresh⟩ := inherit_eq known i.allMethods
    obtain ⟨others, more, fresh'⟩ := ih (known ++ first)
    refine ⟨first ++ others, ?_, fresh.append fresh'⟩
    rw [inheritAll, own, more, List.append_assoc]

theorem allMethods_eq (t : BeanType) :
    ∃ inherited, t.allMethods = t.methods ++ inherited ∧ Fresh t.methods inherited := by
  obtain ⟨name, kind, interfaces, methods⟩ := t
  obtain ⟨inherited, same, fresh⟩ := inheritAll_eq methods interfaces
  exact ⟨inherited, by rw [allMethods, same], fresh⟩

/-- The methods of a name that the type itself declares. -/
def declared (t : BeanType) (n : String) : List (Method BeanType) := t.methods.filter (·.name == n)

/-- All methods of a name. -/
def named (t : BeanType) (n : String) : List (Method BeanType) := t.allMethods.filter (·.name == n)

theorem method?_eq (t : BeanType) (n : String) : t.method? n = (t.named n).head? :=
  List.head?_filter.symm

theorem Fresh.length_named {known new : List (Method BeanType)} (h : Fresh known new) (n : String) :
    (new.filter (·.name == n)).length ≤ 1 := by
  have apart := h.distinct.filter (·.name == n)
  have named (m : Method BeanType) (hm : m ∈ new.filter (·.name == n)) : m.name = n := by
    simpa using (List.mem_filter.mp hm).2
  generalize new.filter (·.name == n) = same at apart named
  match same with
  | [] => exact Nat.zero_le 1
  | [_] => exact Nat.le_refl 1
  | m :: m' :: rest =>
    have differ := List.rel_of_pairwise_cons apart (List.mem_cons_self (l := rest))
    exact absurd ((named m (by simp)).trans (named m' (by simp)).symm) differ

/-- A name that the type declares belongs to declared methods only; of any other name there is at most one
method. -/
theorem named_cases (t : BeanType) (n : String) :
    t.named n = t.declared n ∨ t.declared n = [] ∧ (t.named n).length ≤ 1 := by
  obtain ⟨inherited, all, fresh⟩ := t.allMethods_eq
  have split : t.named n = t.declared n ++ inherited.filter (·.name == n) := by
    rw [named, all, List.filter_append, declared]
  by_cases none : t.declared n = []
  · right
    rw [split, none, List.nil_append]
    exact ⟨rfl, fresh.length_named n⟩
  · left
    obtain ⟨d, hd⟩ := List.exists_mem_of_ne_nil _ none
    obtain ⟨hd, name⟩ := List.mem_filter.mp hd
    have inherits : inherited.filter (·.name == n) = [] := by
      refine List.filter_eq_nil_iff.mpr fun m hm same => fresh.unknown m hm d hd ?_
      rw [beq_iff_eq.mp name, beq_iff_eq.mp same]
    rw [split, inherits, List.append_nil]

end BeanType

end Wiring
