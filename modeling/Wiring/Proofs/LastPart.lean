import Mathlib.Data.List.Infix
import Wiring.BeanType.Name

namespace Wiring

namespace BeanType

/-- What keeps the names of a path apart. -/
def separators : List (List Char) := [['.'], [':', ':']]

/-- The right-most separator of a path, with what is before it and what follows it: no other one begins
further to the right. -/
structure LastSeparator (path before separator after : List Char) : Prop where
  known : separator ∈ separators
  parts : path = before ++ separator ++ after
  last : ∀ b s a, s ∈ separators → path = b ++ s ++ a → b.length ≤ before.length

theorem not_infix_of_afterLast?_eq_none {separator text : List Char} (filled : separator ≠ [])
    (h : afterLast? separator text = none) : ¬ separator <:+: text := by
  induction text with
  | nil => simpa using filled
  | cons c r ih =>
    obtain ⟨later, here⟩ := Option.or_eq_none_iff.mp h
    rw [List.infix_cons_iff]
    rintro (⟨after, same⟩ | inside)
    · rw [List.isPrefixOf?_eq_some_iff_append_eq.mpr same] at here
      cases here
    · exact ih later inside

/-- No occurrence begins behind the one that is found. -/
theorem eq_append_of_afterLast?_eq_some {separator text after : List Char} (filled : separator ≠ [])
    (h : afterLast? separator text = some after) :
    ∃ before, text = before ++ separator ++ after ∧ ¬ separator <:+: (separator ++ after).tail := by
  induction text with
  | nil => cases h
  | cons c r ih =>
    cases later : afterLast? separator r with
    | some found =>
      have same : found = after := by simpa [afterLast?, later] using h
      obtain ⟨before, parts, last⟩ := ih (same ▸ later)
      exact ⟨c :: before, by rw [parts]; rfl, last⟩
    | none =>
      have here : separator.isPrefixOf? (c :: r) = some after := by simpa [afterLast?, later] using h
      have parts : separator ++ after = c :: r := List.isPrefixOf?_eq_some_iff_append_eq.mp here
      exact ⟨[], parts.symm, by rw [parts]; exact not_infix_of_afterLast?_eq_none filled later⟩

theorem afterLast_cases {separator : List Char} (filled : separator ≠ []) (text : List Char) :
    (∃ before, text = before ++ separator ++ afterLast separator text ∧
      ¬ separator <:+: (separator ++ afterLast separator text).tail) ∨
    ¬ separator <:+: text ∧ afterLast separator text = text := by
  cases found : afterLast? separator text with
  | some after => exact .inl (by simpa [afterLast, found] using eq_append_of_afterLast?_eq_some filled found)
  | none => exact .inr ⟨not_infix_of_afterLast?_eq_none filled found, by simp [afterLast, found]⟩

theorem afterLast_suffix {separator : List Char} (filled : separator ≠ []) (text : List Char) :
    afterLast separator text <:+ text := by
  rcases afterLast_cases filled text with ⟨before, parts, -⟩ | ⟨-, same⟩
  · exact ⟨before ++ separator, parts.symm⟩
  · rw [same]

theorem not_infix_afterLast {separator : List Char} (filled : separator ≠ []) (text : List Char) :
    ¬ separator <:+: afterLast separator text := by
  rcases afterLast_cases filled text with ⟨before, -, last⟩ | ⟨absent, same⟩
  · rw [List.tail_append_of_ne_nil filled] at last
    exact fun inside => last (inside.trans (List.suffix_append _ _).isInfix)
  · rwa [same]

/-- A separator is the last one if no other begins in what is left from its second character on. -/
theorem LastSeparator.of_clear {path before separator after : List Char} (known : separator ∈ separators)
    (parts : path = before ++ separator ++ after)
    (clear : ∀ s ∈ separators, ¬ s <:+: (separator ++ after).tail) :
    LastSeparator path before separator after := by
  refine ⟨known, parts, fun b s a hs other => Nat.le_of_not_lt fun further => clear s hs ?_⟩
  have whole : separator ++ after <:+ path := ⟨before, by rw [parts, List.append_assoc]⟩
  have inside : s ++ a <:+ path := ⟨b, by rw [other, List.append_assoc]⟩
  have shorter : (s ++ a).length ≤ (separator ++ after).tail.length := by
    have same := congrArg List.length (parts.symm.trans other)
    simp only [List.length_append, List.length_tail] at same ⊢
    omega
  have later : s ++ a <:+ (separator ++ after).tail :=
    List.suffix_of_suffix_length_le inside ((List.tail_suffix _).trans whole) shorter
  exact (List.prefix_append s a).isInfix.trans later.isInfix

theorem forall_separators {p : List Char → Prop} :
    (∀ s ∈ separators, p s) ↔ p ['.'] ∧ p [':', ':'] := by
  simp [separators]

theorem separator_length : ∀ s ∈ separators, 1 ≤ s.length ∧ s.length ≤ 2 := by decide

/-- No separator is the beginning of another one. -/
theorem eq_nil_of_append_mem_separators {after : List Char} :
    ∀ s ∈ separators, s ++ after ∈ separators → after = [] := by
  rw [forall_separators]
  simp [separators]

/-- Where the path ends with a separator, nothing follows the last one. -/
theorem LastSeparator.after_eq_nil {path before separator after s : List Char}
    (h : LastSeparator path before separator after) (hs : s ∈ separators) (ends : s <:+ path) :
    after = [] := by
  obtain ⟨b, same⟩ := ends
  have both : b ++ s = before ++ (separator ++ after) := by rw [same, h.parts, List.append_assoc]
  have left : b.length ≤ before.length := h.last b s [] hs (by rw [← same, List.append_nil])
  rcases left.eq_or_lt with level | behind
  · have equal : s = separator ++ after := (List.append_inj both level).2
    exact eq_nil_of_append_mem_separators separator h.known (equal ▸ hs)
  · have lengths := congrArg List.length both
    simp only [List.length_append] at lengths
    have short := (separator_length s hs).2
    have filled := (separator_length separator h.known).1
    exact List.eq_nil_of_length_eq_zero (by omega)

theorem toList_lastPart (path : String) :
    (lastPart path).toList = afterLast ['.'] (afterLast [':', ':'] path.toList) :=
  String.toList_ofList

theorem not_infix_lastPart (path : String) : ∀ s ∈ separators, ¬ s <:+: (lastPart path).toList := by
  rw [toList_lastPart, forall_separators]
  constructor
  · exact not_infix_afterLast (List.cons_ne_nil '.' []) _
  · intro inside
    have cut := afterLast_suffix (List.cons_ne_nil '.' []) (afterLast [':', ':'] path.toList)
    exact not_infix_afterLast (List.cons_ne_nil ':' [':']) path.toList (inside.trans cut.isInfix)

/-- The two cuts are one, behind the last separator. -/
theorem lastPart_cases (path : String) :
    (∃ before separator, LastSeparator path.toList before separator (lastPart path).toList) ∨
    (∀ s ∈ separators, ¬ s <:+: path.toList) ∧ lastPart path = path := by
  have clear := not_infix_lastPart path
  have cut := toList_lastPart path
  let rest := afterLast [':', ':'] path.toList
  rcases afterLast_cases (List.cons_ne_nil '.' []) rest with ⟨q, inRest, -⟩ | ⟨noPoint, same⟩
  · -- What follows the point is part of the rest, where no two colons are.
    obtain ⟨p, whole⟩ := afterLast_suffix (List.cons_ne_nil ':' [':']) path.toList
    have parts : path.toList = p ++ q ++ ['.'] ++ (lastPart path).toList := by
      calc path.toList = p ++ rest := whole.symm
        _ = p ++ (q ++ ['.'] ++ (lastPart path).toList) := by rw [cut, ← inRest]
        _ = p ++ q ++ ['.'] ++ (lastPart path).toList := by simp only [List.append_assoc]
    exact .inl ⟨p ++ q, ['.'], .of_clear (by decide) parts clear⟩
  · have all : (lastPart path).toList = rest := cut.trans same
    rw [← all] at noPoint
    rcases afterLast_cases (List.cons_ne_nil ':' [':']) path.toList
      with ⟨p, parts, last⟩ | ⟨noColons, uncut⟩
    · -- The second of the two colons is still to be looked at: a third one might follow.
      have second : ¬ ['.'] <:+: ':' :: rest := by
        rw [List.infix_cons_iff, ← all]
        simp [noPoint]
      rw [all]
      exact .inl ⟨p, [':', ':'], .of_clear (by decide) parts (forall_separators.mpr ⟨second, last⟩)⟩
    · have whole : (lastPart path).toList = path.toList := all.trans uncut
      rw [whole] at noPoint
      exact .inr ⟨forall_separators.mpr ⟨noPoint, noColons⟩, String.toList_inj.mp whole⟩

/-- A path without separators is its own last part. -/
theorem lastPart_eq_self {path : String} (clear : ∀ s ∈ separators, ¬ s <:+: path.toList) :
    lastPart path = path := by
  rcases lastPart_cases path with ⟨before, separator, last⟩ | ⟨-, same⟩
  · exact absurd ⟨before, _, last.parts.symm⟩ (clear separator last.known)
  · exact same

theorem lastPart_eq_empty_iff (path : String) :
    lastPart path = "" ↔ path = "" ∨ ∃ s ∈ separators, s <:+ path.toList := by
  rw [← String.toList_eq_nil_iff]
  rcases lastPart_cases path with ⟨before, separator, last⟩ | ⟨absent, same⟩
  · constructor
    · intro nothing
      have parts := last.parts
      rw [nothing, List.append_nil] at parts
      exact .inr ⟨separator, last.known, before, parts.symm⟩
    · rintro (rfl | ⟨s, hs, ends⟩)
      · rfl
      · exact last.after_eq_nil hs ends
  · rw [same, String.toList_eq_nil_iff]
    exact ⟨.inl, fun h => h.resolve_right fun ⟨s, hs, ends⟩ => absent s hs ends.isInfix⟩

end BeanType

open BeanType in
/-- The simple name of a type is what follows the last separator in its name, or else the whole name. So no
separator is left in it; it is empty exactly if the name is empty or ends with a separator; and a type that
bears it as its name has the same simple name. -/
theorem simpleName_follows_last_separator (t : BeanType) :
    ((∃ before separator, LastSeparator t.name.toList before separator t.simpleName.toList) ∨
      (∀ s ∈ separators, ¬ s <:+: t.name.toList) ∧ t.simpleName = t.name) ∧
    (∀ s ∈ separators, ¬ s <:+: t.simpleName.toList) ∧
    (t.simpleName = "" ↔ t.name = "" ∨ ∃ s ∈ separators, s <:+ t.name.toList) ∧
    ∀ kind interfaces methods,
      (BeanType.mk t.simpleName kind interfaces methods).simpleName = t.simpleName := by
  have clear : ∀ s ∈ separators, ¬ s <:+: t.simpleName.toList := not_infix_lastPart t.name
  refine ⟨lastPart_cases t.name, clear, lastPart_eq_empty_iff t.name, fun kind interfaces methods => ?_⟩
  exact lastPart_eq_self clear

example : (BeanType.interface "app.A:::b:c").simpleName = "b:c" := by decide

end Wiring
