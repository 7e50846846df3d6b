import Mathlib.Data.Set.Card
import Wiring.Proofs.Names

namespace Wiring

variable {C S α : Type}

/-- Whether an event tells of a definition of the name. -/
def Event.defines (n : String) : Event → Bool
  | registeredDefinition m _ _ => m == n
  | _ => false

theorem Event.defines_of_apart {e : Event} (apart : e.ofContainer = false) (n : String) :
    e.defines n = false := by
  cases e with
  | registeredDefinition => cases apart
  | _ => rfl

namespace World

/-- The containers that hold a singleton under a name. -/
def holders (w : World C S) (n : String) : Set ContainerId :=
  {c | (w.container c).hasSingleton n = true}

/-- The containers that hold a definition of a name. -/
def definers (w : World C S) (n : String) : Set ContainerId :=
  {c | (w.container c).hasDefinition n = true}

theorem holders_bind (w : World C S) (c : ContainerId) (n m : String) (b : BeanId) :
    (w.bind c n b).holders m = if m = n then insert c (w.holders m) else w.holders m := by
  ext c'
  by_cases hc : c' = c <;> by_cases hm : m = n <;> simp [holders, Container.hasSingleton, hc, hm]

theorem definers_bind (w : World C S) (c : ContainerId) (n m : String) (b : BeanId) :
    (w.bind c n b).definers m = w.definers m := by
  ext c'
  by_cases hc : c' = c <;> simp [definers, Container.hasDefinition, Container.definition?, hc]

theorem holders_define (w : World C S) (c : ContainerId) (r : Recipe C) (m : String) :
    (w.define c r).holders m = w.holders m := by
  ext c'
  by_cases hc : c' = c <;> simp [holders, container_define, Container.hasSingleton, hc]

theorem definers_define (w : World C S) (c : ContainerId) (r : Recipe C) (m : String) :
    (w.define c r).definers m = if m = r.name then insert c (w.definers m) else w.definers m := by
  ext c'
  by_cases hc : c' = c <;> by_cases hm : m = r.name <;>
    simp [definers, container_define, Container.hasDefinition_define, hc, hm]

theorem trace_define (w : World C S) (c : ContainerId) (r : Recipe C) :
    (w.define c r).trace =
      (if (w.container c).hasDefinition r.name then w.trace.push (.overridingDefinition r.name)
        else w.trace).push (.registeredDefinition r.name r.type.name r.lazy) := by
  unfold define
  split <;> rfl

theorem trace_complete (w : World C S) (c : ContainerId) (d : Definition C) (b : BeanId) :
    (w.complete c d b).trace = if (w.container c).hasSingleton d.name = true then w.trace
      else w.trace.push (.registeredSingleton d.name) := by
  have accepted : (((w.accept c d.serial b).unmark d.name).container c).hasSingleton d.name =
      (w.container c).hasSingleton d.name := by simp [Container.hasSingleton]
  simp only [complete, accepted]
  split <;> rfl

/-- For every name the reported registrations are as many as the containers that hold it. A definition that
takes the place of another one is reported twice, as overriding it and as registered. -/
structure Tallied (w : World C S) : Prop where
  singletons : ∀ n, (w.holders n).encard = w.trace.count (.registeredSingleton n)
  definitions : ∀ n, (w.definers n).encard + w.trace.count (.overridingDefinition n) =
    w.trace.countP (Event.defines n)

namespace Tallied

variable {w : World C S}

theorem record (h : w.Tallied) (e : Event) (apart : e.ofContainer = false) : (w.record e).Tallied := by
  have count (e' : Event) (he' : e'.ofContainer = true) :
      (w.record e).trace.count e' = w.trace.count e' := by
    have other : (e == e') = false := by
      refine beq_false_of_ne fun same => ?_
      rw [← same, apart] at he'
      cases he'
    simp [World.record, Array.count_push, other]
  refine ⟨fun n => ?_, fun n => ?_⟩
  · rw [count (.registeredSingleton n) rfl]
    exact h.singletons n
  · have registered : (w.record e).trace.countP (Event.defines n) =
        w.trace.countP (Event.defines n) := by
      simp [World.record, Event.defines_of_apart apart]
    rw [count (.overridingDefinition n) rfl, registered]
    exact h.definitions n

/-- A container is changed, but neither are its singletons nor the names of its definitions. -/
theorem setContainer (h : w.Tallied) (c : ContainerId) (k : Container C)
    (singleton : ∀ n, k.hasSingleton n = (w.container c).hasSingleton n)
    (definition : ∀ n, k.hasDefinition n = (w.container c).hasDefinition n) :
    (w.setContainer c k).Tallied := by
  have holders (n : String) : (w.setContainer c k).holders n = w.holders n := by
    ext c'
    by_cases hc : c' = c <;> simp [World.holders, hc, singleton]
  have definers (n : String) : (w.setContainer c k).definers n = w.definers n := by
    ext c'
    by_cases hc : c' = c <;> simp [World.definers, hc, definition]
  refine ⟨fun n => ?_, fun n => ?_⟩
  · rw [holders]
    exact h.singletons n
  · rw [definers]
    exact h.definitions n

/-- A bean is bound to a free name. -/
theorem bind (h : w.Tallied) (c : ContainerId) (n : String) (b : BeanId)
    (free : (w.container c).singleton? n = none) : (w.bind c n b).Tallied := by
  have trace : (w.bind c n b).trace = w.trace.push (.registeredSingleton n) := rfl
  refine ⟨fun m => ?_, fun m => ?_⟩
  · rw [trace, Array.count_push, holders_bind]
    by_cases hm : m = n
    · subst hm
      have absent : c ∉ w.holders m := by simp [holders, Container.hasSingleton, free]
      rw [if_pos rfl, Set.encard_insert_of_notMem absent, h.singletons]
      simp
    · rw [if_neg hm, h.singletons]
      simp [Ne.symm hm]
  · rw [trace, Array.count_push, Array.countP_push, definers_bind]
    simpa [Event.defines] using h.definitions m

theorem define (h : w.Tallied) (c : ContainerId) (r : Recipe C) : (w.define c r).Tallied := by
  refine ⟨fun m => ?_, fun m => ?_⟩
  · have count : (w.define c r).trace.count (.registeredSingleton m) =
        w.trace.count (.registeredSingleton m) := by
      rw [trace_define, Array.count_push]
      split <;> simp
    rw [holders_define, count]
    exact h.singletons m
  · have before := h.definitions m
    rw [definers_define, trace_define, Array.count_push, Array.countP_push]
    by_cases hm : m = r.name
    · subst hm
      by_cases old : (w.container c).hasDefinition r.name = true
      · have present : c ∈ w.definers r.name := old
        rw [if_pos rfl, if_pos old, Set.insert_eq_of_mem present, Array.count_push, Array.countP_push]
        simp [Event.defines, ← before, add_assoc]
      · have absent : c ∉ w.definers r.name := old
        rw [if_pos rfl, if_neg old, Set.encard_insert_of_notMem absent]
        simp [Event.defines, ← before, add_right_comm]
    · have other : r.name ≠ m := Ne.symm hm
      rw [if_neg hm]
      split <;> simpa [Event.defines, Array.count_push, other] using before

theorem remember (h : w.Tallied) (c : ContainerId) (n : String) : (w.remember c n).Tallied := by
  refine h.setContainer c _ (fun m => ?_) fun m => ?_
  · simp [Container.hasSingleton]
  · simp [Container.hasDefinition, Container.definition?]

theorem complete (h : w.Tallied) (c : ContainerId) (d : Definition C) (b : BeanId) :
    (w.complete c d b).Tallied := by
  have accepted : (w.accept c d.serial b).Tallied :=
    h.setContainer c _ (fun _ => rfl) fun m => Container.hasDefinition_accept _ _ _ m
  have unmarked : ((w.accept c d.serial b).unmark d.name).Tallied :=
    ⟨accepted.singletons, accepted.definitions⟩
  simp only [World.complete]
  split
  · exact unmarked
  · rename_i free
    exact unmarked.bind c d.name b (by simpa [Container.hasSingleton] using free)

end Tallied

theorem tallied_initial (s : S) : (World.initial s : World C S).Tallied := by
  have holders (n : String) : (World.initial s : World C S).holders n = ∅ :=
    Set.eq_empty_of_forall_notMem fun _ h => Bool.noConfusion (h : false = true)
  have definers (n : String) : (World.initial s : World C S).definers n = ∅ :=
    Set.eq_empty_of_forall_notMem fun _ h => Bool.noConfusion (h : false = true)
  refine ⟨fun n => ?_, fun n => ?_⟩
  · rw [holders, Set.encard_empty]
    rfl
  · rw [definers, Set.encard_empty, zero_add]
    rfl

end World

theorem Change.tallied {Seen : Request C → World C S → Prop} {w w' : World C S}
    (h : Change Seen w w') (hw : w.Tallied) : w'.Tallied := by
  cases h with
  | recorded _ e apart => exact hw.record e apart
  | defined _ c r => exact hw.define c r
  | registered _ c n b _ free => exact (hw.bind c n b free).remember c n
  | adopted _ c n d b _ _ free => exact hw.bind c n b free
  | completed _ _ c d b => exact hw.complete c d b
  | marked | unmarked | flagged | newStatus | object | reference | pinned =>
    exact ⟨hw.singletons, hw.definitions⟩

theorem Reachable.tallied {w : World C S} (h : Reachable w) : w.Tallied :=
  h.invariant World.tallied_initial (fun _ _ _ hw hc => hc.tallied hw)
    fun _ _ hw => ⟨hw.singletons, hw.definitions⟩

namespace Lookup

/-- What the creation of a bean that is neither registered nor kept in its definition reports beyond what its
factory does: that the bean was registered, if it fits and the name is still free, and otherwise nothing. -/
theorem trace_of_creation {user : UserCode C S} {c : ContainerId} {n : String} {d : Definition C}
    {w w' : World C S} {o : Outcome BeanId} (free : (w.container c).singleton? n = none)
    (current : (w.container c).definition? n = some d) (uncreated : d.created = none)
    (h : getBean user c n w = some (o, w')) :
    n ∈ w.marks ∧ (∀ b, o ≠ .ok b) ∧ w' = w ∨
      n ∉ w.marks ∧ ∃ made w₁, user d.factory (.make c) (w.mark n) = some (made, w₁) ∧
        ((w₁.container c).hasSingleton n = true → w'.trace = w₁.trace) ∧
        ((∀ b v, made = .ok b → w₁.bean? b = some v → v.type.isAssignableTo d.type = false) →
          (∀ b, o ≠ .ok b) ∧ w'.trace = w₁.trace) ∧
        ∀ b v, made = .ok b → w₁.bean? b = some v → v.type.isAssignableTo d.type = true →
          (w₁.container c).hasSingleton n = false →
          o = .ok b ∧ w'.trace = w₁.trace.push (.registeredSingleton n) := by
  cases getBean_cases h with
  | registered _ taken => cases free.symm.trans taken
  | unknown _ undefined => cases undefined.symm.trans current
  | adopted d' _ _ current' created =>
    cases current.symm.trans current'
    cases uncreated.symm.trans created
  | marked _ _ _ _ marked => exact .inl ⟨marked, nofun, rfl⟩
  | ran d' made w₁ _ _ name begins run finished =>
    subst name
    cases current.symm.trans begins.current
    refine .inr ⟨begins.unmarked, made, w₁, run, ?_⟩
    cases finish_cases finished with
    | accepted b v hb fits =>
      refine ⟨fun taken => ?_, fun misfit => ?_, fun _ _ hm _ _ free => ?_⟩
      · rw [World.trace_complete, if_pos taken]
      · rw [misfit b v rfl hb] at fits
        cases fits
      · cases hm
        have none : (w₁.container c).singleton? d.name = none := by
          simpa [Container.hasSingleton] using free
        rw [World.trace_complete, if_neg (by simp [free]), none]
        exact ⟨rfl, rfl⟩
    | givenUp _ fault unfit =>
      refine ⟨fun _ => rfl, fun _ => ⟨fault.ne_ok, rfl⟩, fun b v hm hb fits _ => ?_⟩
      rw [unfit b v hm hb] at fits
      cases fits

end Lookup

/-- In every run, at each of its moments and at its end, the trace tells for every name in how many containers
it has a singleton, and in how many a definition: as often as definitions of it were reported, less the
warnings that one was overridden. A creation that fails, or whose bean does not fit, or whose factory has
registered the name itself, is not reported as a registration, and no refused one is. -/
theorem trace_faithful (lang : Language C S) (depth : Nat) (p : Program C S α) (s : S)
    (w' : World C S) (o : Outcome α) (moments : List (Moment C S))
    (run : p.history lang depth (.initial s) = some (o, w', moments)) :
    (∀ w ∈ moments.map Moment.world ++ [w'], ∀ n,
      {c | (w.container c).hasSingleton n = true}.encard = w.trace.count (.registeredSingleton n) ∧
      {c | (w.container c).hasDefinition n = true}.encard + w.trace.count (.overridingDefinition n) =
        w.trace.countP (Event.defines n)) ∧
    (∀ (user : UserCode C S) c n d w o v, (w.container c).singleton? n = none →
      (w.container c).definition? n = some d → d.created = none →
      Lookup.getBean user c n w = some (o, v) →
      n ∈ w.marks ∧ (∀ b, o ≠ .ok b) ∧ v = w ∨
        n ∉ w.marks ∧ ∃ made w₁, user d.factory (.make c) (w.mark n) = some (made, w₁) ∧
          ((w₁.container c).hasSingleton n = true → v.trace = w₁.trace) ∧
          ((∀ b x, made = .ok b → w₁.bean? b = some x → x.type.isAssignableTo d.type = false) →
            (∀ b, o ≠ .ok b) ∧ v.trace = w₁.trace) ∧
          ∀ b x, made = .ok b → w₁.bean? b = some x → x.type.isAssignableTo d.type = true →
            (w₁.container c).hasSingleton n = false →
            o = .ok b ∧ v.trace = w₁.trace.push (.registeredSingleton n)) ∧
    ∀ c n b o, ∀ w v : World C S, Lookup.registerSingleton c n b w = some (o, v) →
      (∃ fault : Fault, o = fault.outcome ∧ v = w) ∨
        o = .ok () ∧ v.trace = w.trace.push (.registeredSingleton n) := by
  refine ⟨fun w hw n => ?_, ?_, fun c n b o w v h => ?_⟩
  · have tallied : w.Tallied := Reachable.tallied ⟨lang, depth, α, p, s, o, w', moments, run, hw⟩
    exact ⟨tallied.singletons n, tallied.definitions n⟩
  · intro user c n d w o v free current uncreated h
    exact Lookup.trace_of_creation free current uncreated h
  · rcases Lookup.registerSingleton_cases h with refused | ⟨ok, _, _, rfl⟩
    · exact .inl refused
    · exact .inr ⟨ok, rfl⟩

theorem trace_faithful_defineAnew : ∃ w' moments,
    (defineAnew ⟨0⟩ "b" "a").history (selfRegistering "b") 2 (.initial ()) =
      some (.ok ⟨1⟩, w', moments) ∧
    w'.trace.count (.registeredSingleton "b") = 1 ∧ w'.trace.countP (Event.defines "b") = 2 ∧
    {c | (w'.container c).hasSingleton "b" = true}.encard = 1 ∧
    {c | (w'.container c).hasDefinition "b" = true}.encard + 1 = 2 := by
  have run : ∃ w', (defineAnew ⟨0⟩ "b" "a").interpret (answer (selfRegistering "b") 2) (.initial ()) =
      some (.ok ⟨1⟩, w') ∧ w'.trace.count (.registeredSingleton "b") = 1 ∧
      w'.trace.count (.overridingDefinition "b") = 1 ∧ w'.trace.countP (Event.defines "b") = 2 :=
    ⟨_, rfl, by decide, by decide, by decide⟩
  obtain ⟨w', run, registered, overridden, defined⟩ := run
  obtain ⟨moments, run⟩ := history_of_interpret run
  obtain ⟨tallied, _⟩ := trace_faithful _ _ _ _ _ _ _ run
  obtain ⟨singletons, definitions⟩ := tallied w' (by simp) "b"
  rw [registered] at singletons
  rw [overridden, defined] at definitions
  exact ⟨w', moments, run, registered, defined, singletons, definitions⟩

end Wiring
