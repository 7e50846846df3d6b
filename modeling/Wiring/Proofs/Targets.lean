import Wiring.Proofs.Agreement

namespace Wiring

variable {C S : Type}

/-- The bean under the name is an object of the type, or some definition of the name is of the type. -/
inductive Stands (w : World C S) (c : ContainerId) (n : String) (t : BeanId) (type : BeanType) :
    Prop where
  | object (own : BeanType) (code : C) (bean : w.bean? t = some (.object own code))
      (fits : own.isAssignableTo type = true) : Stands w c n t type
  | defined (d : Definition C) (mem : d ∈ (w.container c).definitions) (name : d.name = n)
      (fits : d.type.isAssignableTo type = true) : Stands w c n t type

theorem Stands.later {w w' : World C S} {c : ContainerId} {n : String} {t : BeanId}
    {type : BeanType} (h : Stands w c n t type) (hl : Later w w') : Stands w' c n t type := by
  cases h with
  | object own code bean fits =>
    obtain ⟨v, hv, becomes⟩ := hl.beans t _ bean
    cases becomes with
    | same => exact .object own code hv fits
  | defined d mem name fits =>
    obtain ⟨d', mem', recipe, _⟩ := hl.definitions c d mem
    exact .defined d' mem' ((congrArg Recipe.name recipe).trans name)
      ((congrArg (·.type.isAssignableTo type) recipe).trans fits)

/-- What is found under the name of a candidate. -/
theorem stands_of_candidate {w₀ w : World C S} {c : ContainerId} {n : String} {t : BeanId}
    {type : BeanType} {requesting : Option String} (hl : Later w₀ w)
    (h : n ∈ (w₀.container c).candidates w₀.plainType type requesting)
    (ht : (w.container c).singleton? n = some t) : Stands w c n t type := by
  have candidate := (List.mem_filter.mp h).2
  simp only [Container.isCandidate, Container.registeredType] at candidate
  cases hd : (w₀.container c).definition? n with
  | some d =>
    simp only [hd, Option.any_some] at candidate
    have before : Stands w₀ c n t type :=
      .defined d (Container.mem_of_definition? _ n d hd) (Container.name_of_definition? _ n d hd)
        candidate
    exact before.later hl
  | none =>
    cases hs : (w₀.container c).singleton? n with
    | none => simp [hd, hs] at candidate
    | some t₀ =>
      have kept := hl.singletons c n t₀ hs
      obtain rfl : t₀ = t := Option.some.inj (kept.symm.trans ht)
      simp only [hd, hs, Option.bind_some, World.plainType] at candidate
      -- Only an object has a type here, no early reference.
      cases hb : w₀.bean? t₀ with
      | none => simp [hb] at candidate
      | some v =>
        cases v with
        | early r => simp [hb] at candidate
        | object own code =>
          simp only [hb, Option.any_some] at candidate
          have before : Stands w₀ c n t₀ type := .object own code hb candidate
          exact before.later hl

/-- How a target is bound to what was looked for, and where. -/
def Traced (w : World C S) (registry : Registry C) (target : Target) (t : BeanId) : Prop :=
  match registry, target with
  | .container c, .dependency d =>
    ∃ n, (w.container c).singleton? n = some t ∧ Stands w c n t d.type
  | .container c, .named n _ => (w.container c).singleton? n = some t
  | .custom _, _ => True

theorem Traced.later {w w' : World C S} {registry : Registry C} {target : Target} {t : BeanId}
    (h : Traced w registry target t) (hl : Later w w') : Traced w' registry target t := by
  match registry, target with
  | .container c, .dependency d =>
    obtain ⟨n, ht, stands⟩ := h
    exact ⟨n, hl.singletons c n t ht, stands.later hl⟩
  | .container c, .named n _ => exact hl.singletons c n t h
  | .custom _, _ => trivial

theorem Found.traced {w₀ w : World C S} {registry : Registry C} {target : Target} {t : BeanId}
    (h : Found w₀ w registry target t) (hl : Later w₀ w) : Traced w registry target t := by
  match registry, target with
  | .container c, .dependency d =>
    obtain ⟨n, selected, ht⟩ := h
    have candidate := Container.mem_candidates_of_select _ _ d none n selected
    exact ⟨n, ht, stands_of_candidate hl candidate ht⟩
  | .container c, .named n _ => exact h
  | .custom _, _ => trivial

/-- The targets of references in reachable worlds. -/
theorem Reachable.traced {w : World C S} (h : Reachable w) (x : BeanId) (r : EarlyReference C)
    (t : BeanId) (early : w.bean? x = some (.early r)) (target : r.resolved = some t) :
    Traced w r.creator.registry r.target t := by
  refine h.invariant (I := fun w => ∀ x r t, w.bean? x = some (.early r) → r.resolved = some t →
    Traced w r.creator.registry r.target t) ?_ ?_ ?_ x r t early target
  · intro s x r t early
    simp [World.initial, World.bean?] at early
  · intro Seen w w' hw change x r t early target
    rcases change.reference_cases x r early with early | ⟨k, target', rfl⟩ |
      ⟨r₀, t₀, rfl, _, q, w₀, _, _, _, began, found⟩
    · exact (hw x r t early target).later change.later
    · cases target
    · cases target
      exact (found.traced began).later change.later
  · intro w s hw x r t early target
    exact (hw x r t early target).later (.of_eq rfl rfl)

/-- What a reference leads to at a moment of a run. -/
theorem Moment.Reaches.traced {lang : Language C S} {Seen : Request C → World C S → Prop}
    {m : Moment C S} {x t : BeanId} {r : EarlyReference C} (h : m.Reaches x r t)
    (holds : m.Holds lang m.world) (coherent : Coherent Seen m.world)
    (reachable : Reachable m.world) : Traced m.world r.creator.registry r.target t := by
  obtain ⟨r', early, resolved, same⟩ := h.leads holds coherent
  have registry : r'.creator.registry = r.creator.registry := congrArg (·.creator.registry) same
  have target : r'.target = r.target := congrArg (·.target) same
  rw [← registry, ← target]
  exact reachable.traced x r' t early resolved

end Wiring
