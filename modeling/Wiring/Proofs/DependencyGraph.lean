import Mathlib.Logic.Relation
import Wiring.Container
import Wiring.Error

namespace Wiring

variable {C : Type} (k : Container C) (deps : String → List String)

/-- The creation of the first name looks up the second one. -/
def Needs (m j : String) : Prop :=
  k.singleton? m = none ∧ (k.definition? m).isSome ∧ j ∈ deps m

/-- The names that a look-up comes across. -/
abbrev Reaches (n m : String) : Prop := Relation.ReflTransGen (Needs k deps) n m

/-- The name comes across itself. -/
abbrev Cyclic (n : String) : Prop := Relation.TransGen (Needs k deps) n n

/-- The name is registered, or defined over sound names. -/
inductive Sound : String → Prop where
  | registered (n : String) (b : BeanId) (h : k.singleton? n = some b) : Sound n
  | defined (n : String) (d : Definition C) (h : k.definition? n = some d)
      (all : ∀ j ∈ deps n, Sound j) : Sound n

/-- The first look-up that fails in the depth-first traversal from a name, which goes through the needs
of each name in order; the path is what the traversal is in the middle of. -/
inductive FirstFailure : List String → String → Error → Prop where
  | unknown (path : List String) (n : String) (free : k.singleton? n = none)
      (undefined : k.definition? n = none) : FirstFailure path n (.noSuchBeanDefinition n)
  | cycle (path : List String) (n : String) (d : Definition C) (free : k.singleton? n = none)
      (defined : k.definition? n = some d) (closed : n ∈ path) :
      FirstFailure path n (.currentlyInCreation n)
  | inside (path : List String) (n : String) (d : Definition C) (before : List String) (j : String)
      (after : List String) (e : Error) (free : k.singleton? n = none)
      (defined : k.definition? n = some d) (new : n ∉ path) (split : deps n = before ++ j :: after)
      (sound : ∀ i ∈ before, Sound k deps i) (fails : FirstFailure (n :: path) j e) :
      FirstFailure path n e

variable {k : Container C} {deps : String → List String}

namespace Sound

theorem known {n : String} (h : Sound k deps n) : k.hasBean n = true := by
  cases h with
  | registered _ b hb => simp [Container.hasBean, Container.hasSingleton, hb]
  | defined _ d hd _ => simp [Container.hasBean, Container.hasDefinition, hd]

theorem needs {n j : String} (h : Sound k deps n) (hj : Needs k deps n j) : Sound k deps j := by
  obtain ⟨free, _, mem⟩ := hj
  cases h with
  | registered _ b hb =>
    rw [free] at hb
    cases hb
  | defined _ d _ all => exact all j mem

theorem reaches {n m : String} (h : Sound k deps n) (hm : Reaches k deps n m) :
    Sound k deps m := by
  induction hm with
  | refl => exact h
  | tail _ hj ih => exact ih.needs hj

theorem acyclic {n : String} (h : Sound k deps n) : ¬Cyclic k deps n := by
  induction h with
  | registered n b hb =>
    intro cycle
    obtain ⟨j, ⟨free, _⟩, _⟩ := Relation.TransGen.head'_iff.mp cycle
    rw [free] at hb
    cases hb
  | defined n d hd all ih =>
    intro cycle
    -- The cycle goes through a name that is needed, and so passes that one again.
    obtain ⟨j, first, rest⟩ := Relation.TransGen.head'_iff.mp cycle
    exact ih j first.2.2 (Relation.TransGen.tail' rest first)

end Sound

namespace FirstFailure

/-- A failure has a reason: an unknown name, or one that comes across itself. -/
theorem reason {path : List String} {n : String} {e : Error} (h : FirstFailure k deps path n e)
    (chain : ∀ x ∈ path, Relation.TransGen (Needs k deps) x n) :
    ∃ m, Reaches k deps n m ∧ (k.hasBean m = false ∨ Cyclic k deps m) := by
  induction h with
  | unknown path n free undefined =>
    refine ⟨n, .refl, .inl ?_⟩
    simp [Container.hasBean, Container.hasDefinition, Container.hasSingleton, free, undefined]
  | cycle path n d free defined closed => exact ⟨n, .refl, .inr (chain n closed)⟩
  | inside path n d before j after e free defined new split sound fails ih =>
    have step : Needs k deps n j := ⟨free, by simp [defined], by simp [split]⟩
    have longer (x : String) (hx : x ∈ n :: path) : Relation.TransGen (Needs k deps) x j := by
      rcases List.mem_cons.mp hx with rfl | hx
      · exact .single step
      · exact (chain x hx).tail step
    obtain ⟨m, hm, why⟩ := ih longer
    exact ⟨m, .head step hm, why⟩

theorem not_sound {path : List String} {n : String} {e : Error} (h : FirstFailure k deps path n e)
    (chain : ∀ x ∈ path, Relation.TransGen (Needs k deps) x n) : ¬Sound k deps n := by
  intro sound
  obtain ⟨m, hm, unknown | cyclic⟩ := h.reason chain
  · have known := (sound.reaches hm).known
    rw [unknown] at known
    cases known
  · exact (sound.reaches hm).acyclic cyclic

/-- The first element without a property is at one place only. -/
private theorem first_unique {p : String → Prop} {before before' after after' : List String}
    {j j' : String} (e : before ++ j :: after = before' ++ j' :: after')
    (h : ∀ i ∈ before, p i) (h' : ∀ i ∈ before', p i) (hj : ¬p j) (hj' : ¬p j') : j = j' := by
  induction before generalizing before' with
  | nil =>
    cases before' with
    | nil =>
      simp only [List.nil_append, List.cons.injEq] at e
      exact e.1
    | cons i rest =>
      simp only [List.nil_append, List.cons_append, List.cons.injEq] at e
      exact absurd (e.1 ▸ h' i List.mem_cons_self) hj
  | cons i rest ih =>
    cases before' with
    | nil =>
      simp only [List.nil_append, List.cons_append, List.cons.injEq] at e
      exact absurd (e.1 ▸ h i List.mem_cons_self) hj'
    | cons i' rest' =>
      simp only [List.cons_append, List.cons.injEq] at e
      exact ih e.2 (fun x hx => h x (List.mem_cons_of_mem i hx))
        fun x hx => h' x (List.mem_cons_of_mem i' hx)

theorem unique {path : List String} {n : String} {e e' : Error} (h : FirstFailure k deps path n e)
    (h' : FirstFailure k deps path n e')
    (chain : ∀ x ∈ path, Relation.TransGen (Needs k deps) x n) : e = e' := by
  induction h with
  | unknown path n free undefined =>
    cases h' with
    | unknown => rfl
    | cycle _ _ d _ defined | inside _ _ d _ _ _ _ _ defined =>
      rw [undefined] at defined
      cases defined
  | cycle path n d free defined closed =>
    cases h' with
    | unknown _ _ _ undefined =>
      rw [undefined] at defined
      cases defined
    | cycle => rfl
    | inside _ _ _ _ _ _ _ _ _ new => exact absurd closed new
  | inside path n d before j after e free defined new split sound fails ih =>
    cases h' with
    | unknown _ _ _ undefined =>
      rw [undefined] at defined
      cases defined
    | cycle _ _ _ _ _ closed => exact absurd closed new
    | inside _ _ _ before' j' after' _ _ _ _ split' sound' fails' =>
      have longer (i : String) (hi : i ∈ deps n) :
          ∀ x ∈ n :: path, Relation.TransGen (Needs k deps) x i := by
        have step : Needs k deps n i := ⟨free, by simp [defined], hi⟩
        intro x hx
        rcases List.mem_cons.mp hx with rfl | hx
        · exact .single step
        · exact (chain x hx).tail step
      have chain' := longer j (by simp [split])
      have chain'' := longer j' (by simp [split'])
      obtain rfl := first_unique (split.symm.trans split') sound sound' (fails.not_sound chain')
        (fails'.not_sound chain'')
      exact ih fails' chain'

end FirstFailure

end Wiring
