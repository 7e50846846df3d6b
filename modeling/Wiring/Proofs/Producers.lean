import Mathlib.Data.List.Induction
import Wiring.Proofs.ForwardPhase

namespace Wiring

variable {C S : Type}

/-- The producer methods of a name, in the order of declaration. -/
def Configuration.named (c : Configuration C) (n : String) : List (Producer C) :=
  c.producers.filter (·.name == n)

/-- The search for the target of the reference creates it from this definition, unless there is a bean of the
name or one in creation. -/
def EarlyReference.CreatesFrom (r : EarlyReference C) (w : World C S) (c : ContainerId)
    (d : Definition C) : Prop :=
  ∀ user : UserCode C S, (w.container c).singleton? d.name = none → d.name ∉ w.marks →
    Reference.lookUp user r.creator.registry r.target w = Lookup.finish c d
      (user d.factory (.make c) ((w.record (.dereferencingByName d.name)).mark d.name))

theorem EarlyReference.createsFrom_of_named {r : EarlyReference C} {w : World C S} {c : ContainerId}
    {d : Definition C} {t : BeanType} (registry : r.creator.registry = .container c)
    (target : r.target = .named d.name t) (current : (w.container c).definition? d.name = some d)
    (uncreated : d.created = none) : r.CreatesFrom w c d := by
  intro user free unmarked
  rw [registry, target]
  have reported : Run.record (Reference.report (.named d.name t)) w =
      some (.ok (), w.record (.dereferencingByName d.name)) := rfl
  exact (Run.bind_ok _ _ _ _ () reported).trans
    (Lookup.getBean_create user c d.name d _ free current uncreated unmarked)

namespace Bootstrap

/-- Of the producer methods of a name, the last one is defined. -/
theorem definition?_defineAll (c : ContainerId) (ps : List (Producer C)) (w : World C S) (n : String) :
    match (ps.filter (·.name == n)).getLast? with
    | some p => ∃ serial, ((defineAll c ps w).container c).definition? n =
        some (p.recipe.definition serial)
    | none => ((defineAll c ps w).container c).definition? n = (w.container c).definition? n := by
  induction ps using List.reverseRecOn with
  | nil => rfl
  | append_singleton ps p ih =>
    have defined : ((defineAll c (ps ++ [p]) w).container c).definition? n =
        if p.name = n then
          some (p.recipe.definition ((defineAll c ps w).container c).definitions.length)
        else ((defineAll c ps w).container c).definition? n := by
      rw [defineAll, List.foldl_append, List.foldl_cons, List.foldl_nil, World.container_define,
        if_pos rfl, Container.definition?_define]
      rfl
    rw [defined, List.filter_append]
    by_cases name : p.name = n
    · have own : [p].filter (·.name == n) = [p] := by simp [name]
      rw [own, List.getLast?_concat, if_pos name]
      exact ⟨_, rfl⟩
    · have other : [p].filter (·.name == n) = [] := by simp [name]
      rw [other, List.append_nil, if_neg name]
      exact ih

/-- A configuration that is accepted has a name that is not taken; its producer methods are defined, and it
comes last. -/
theorem registered_of_registerConfiguration {p p' : Processor C} {c : Configuration C}
    {w w' : World C S} (h : registerConfiguration p c w = some (.ok p', w')) :
    p.configuration? c.name = none ∧ p' = { p with configurations := p.configurations ++ [c] } ∧
      w' = (defineAll p.container c.producers w).record
        (.registeredConfiguration c.name c.producers.length c.features.length) := by
  unfold registerConfiguration at h
  split at h
  · cases h
  · rename_i free
    cases h
    exact ⟨by simpa using free, rfl, rfl⟩

/-- The producer method that is found for a name is the first one. -/
theorem find?_declaringType (c : Configuration C) (n : String) :
    (c.declaringType.methods.find? fun m => m.name == n && m.isProducer) =
      (c.named n).head?.map fun p => ⟨p.name, some p.returns⟩ := by
  rw [Configuration.named, List.head?_filter, Configuration.declaringType, List.find?_map]
  congr 2
  funext p
  exact Bool.and_true _

/-- While the flag is on, a producer method with an interface yields a reference to the bean of its name. -/
theorem callProducer_forward (user : UserCode C S) {p : Processor C} {c : Configuration C} {n : String}
    {first : Producer C} {w : World C S} (declared : (c.named n).head? = some first)
    (interface : first.returns.isInterface = true) (forward : w.creatingProxies p.status = true) :
    callProducer user p c n w = Reference.make p.creator (.named first.name first.returns) w := by
  have target : producedTarget c.declaringType ⟨first.name, some first.returns⟩ =
      .ok (.named first.name first.returns) := by
    simp only [producedTarget, interface, if_true]
  rw [callProducer, find?_declaringType, declared]
  simp only [Option.map_some, Run.get_bind, forward, if_true, Reference.createMethodProxy, target]
  exact Run.bind_ok _ _ w w _ rfl

end Bootstrap

/-- Once a configuration is registered, a feature method that refers to one of its producer methods gets a
reference to the bean of that name. Its target is created from the definition that the registration has
left, which is that of the last producer method of the name; the reference has the type of the first one.
So it is of the type of its definition exactly if these two declare the same type. -/
theorem reference_promises (lang : Language C S) (depth : Nat) (p p' : Processor C)
    (c : Configuration C) (w w' v : World C S) (n : String) (first last : Producer C)
    (registered : answer lang (depth + 1) (.registerConfiguration p c) w = some (.ok p', w'))
    (declared : (c.named n).head? = some first) (defined : (c.named n).getLast? = some last)
    (interface : first.returns.isInterface = true) (since : v.containers = w'.containers)
    (forward : v.creatingProxies p.status = true) :
    ∃ d b v' r, (w'.container p.container).definition? n = some d ∧ d.toRecipe = last.recipe ∧
      d.created = none ∧ answer lang (depth + 1) (.beanMethod ⟨p', c⟩ n) v = some (.ok b, v') ∧
      v'.bean? b = some (.early r) ∧ r.CreatesFrom v' p.container d ∧ r.type = first.returns ∧
      (r.type = d.type ↔ first.returns = last.returns) := by
  obtain ⟨_, rfl, rfl⟩ := Bootstrap.registered_of_registerConfiguration registered
  have left := Bootstrap.definition?_defineAll p.container c.producers w n
  rw [Configuration.named] at defined
  rw [defined] at left
  obtain ⟨serial, left⟩ := left
  have name : last.name = n := by
    simpa using (List.mem_filter.mp (List.mem_of_getLast? defined)).2
  have same : first.name = n := by
    simpa using (List.mem_filter.mp (List.mem_of_head? declared)).2
  have current : (v.container p.container).definition? n = some (last.recipe.definition serial) := by
    rw [World.container, since]
    exact left
  let r : EarlyReference C := .make p.creator (.named first.name first.returns)
  obtain ⟨b, v', made, here, kept⟩ : ∃ b v',
      Reference.make p.creator (.named first.name first.returns) v = some (.ok b, v') ∧
      v'.bean? b = some (.early r) ∧ v'.containers = v.containers :=
    ⟨_, _, rfl, by simp [World.bean?, r], rfl⟩
  have answered := Bootstrap.callProducer_forward (lang.user (answer lang depth)) declared interface
    forward
  refine ⟨last.recipe.definition serial, b, v', r, left, rfl, rfl, answered.trans made, here, ?_, rfl,
    .rfl⟩
  refine EarlyReference.createsFrom_of_named (t := first.returns) rfl ?_ ?_ rfl
  · change Target.named first.name first.returns = Target.named last.name first.returns
    rw [name, same]
  · change (v'.container p.container).definition? last.name = _
    rw [World.container, kept, name]
    exact current

/-- A configuration that declares one producer method with a lazy bean twice, and another one in between. -/
def declaringAgain : Configuration Unit where
  name := "configuration"
  producers := [⟨"a", .interface "app::I", false, ()⟩, ⟨"b", .interface "app::J", false, ()⟩,
    ⟨"a", .interface "app::I", true, ()⟩]
  features := []

/-- The world in which it is registered, in forward-reference mode. -/
def registeredAgain : World Unit Unit :=
  ((Bootstrap.defineAll ⟨0⟩ declaringAgain.producers oneFlag).record
    (.registeredConfiguration "configuration" 3 0)).setCreatingProxies ⟨0⟩ true

theorem reference_promises_again : ∃ p' d b v' r,
    declaringAgain.producers.map (·.name) = ["a", "b", "a"] ∧ d.lazy = true ∧
    answer (chaining "a" "b") 1 (.beanMethod ⟨p', declaringAgain⟩ "a") registeredAgain =
      some (.ok b, v') ∧
    v'.bean? b = some (.early r) ∧ r.CreatesFrom v' ⟨0⟩ d ∧ r.type = d.type := by
  obtain ⟨d, b, v', r, _, recipe, _, answered, early, creates, _, promises⟩ :=
    reference_promises (chaining "a" "b") 0 (.make ⟨0⟩ ⟨0⟩ {})
      { Processor.make ⟨0⟩ ⟨0⟩ {} with configurations := [declaringAgain] } declaringAgain oneFlag
      ((Bootstrap.defineAll ⟨0⟩ declaringAgain.producers oneFlag).record
        (.registeredConfiguration "configuration" 3 0)) registeredAgain "a" _ _ rfl rfl rfl rfl rfl rfl
  have lazy : d.lazy = true := congrArg Recipe.lazy recipe
  exact ⟨_, d, b, v', r, rfl, lazy, answered, early, creates, promises.mpr rfl⟩

/-- A configuration whose producer methods of one name declare different types. -/
def declaringOtherwise : Configuration Unit where
  name := "configuration"
  producers := [⟨"a", .interface "app::I", true, ()⟩, ⟨"a", .interface "app::J", true, ()⟩]
  features := []

/-- The reference to its bean has not the type of the definition that it goes to. -/
theorem promise_broken : ∃ p' w' b v' r d,
    answer (chaining "a" "b") 1 (.registerConfiguration (.make ⟨0⟩ ⟨0⟩ {}) declaringOtherwise) oneFlag =
      some (.ok p', w') ∧
    answer (chaining "a" "b") 1 (.beanMethod ⟨p', declaringOtherwise⟩ "a")
      (w'.setCreatingProxies ⟨0⟩ true) = some (.ok b, v') ∧
    v'.bean? b = some (.early r) ∧ (w'.container ⟨0⟩).definition? "a" = some d ∧
    r.type.name = "app::I" ∧ d.type.name = "app::J" ∧ r.type ≠ d.type := by
  refine ⟨_, _, _, _, _, _, rfl, rfl, rfl, rfl, rfl, rfl, fun same => ?_⟩
  have names : "app::I" = "app::J" := congrArg BeanType.name same
  exact absurd names (by decide)

end Wiring
