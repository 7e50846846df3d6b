import Mathlib.Data.List.Nodup
import Wiring.Proofs.Permanence

namespace Wiring

variable {C S α : Type}

namespace Container

/-- Every name that has a definition or a singleton is known, once. -/
structure Named (k : Container C) : Prop where
  distinct : k.names.Nodup
  known : ∀ n, n ∈ k.names ↔ k.hasBean n = true

/-- Between the two containers nothing was registered under a new name. -/
structure SameNames (k k' : Container C) : Prop where
  names : k'.names = k.names
  known : ∀ n, k'.hasBean n = true ↔ k.hasBean n = true

/-- Between the two containers one name was registered, a new one or one that was known. -/
structure Learns (n : String) (k k' : Container C) : Prop where
  names : k'.names = if n ∈ k.names then k.names else k.names ++ [n]
  known : ∀ m, k'.hasBean m = true ↔ m = n ∨ k.hasBean m = true

theorem SameNames.refl (k : Container C) : SameNames k k := ⟨rfl, fun _ => .rfl⟩

theorem SameNames.accept (k : Container C) (serial : Nat) (b : BeanId) :
    SameNames k (k.accept serial b) where
  names := rfl
  known n := by
    rw [hasBean_iff, hasBean_iff, hasDefinition_accept]
    exact .rfl

theorem SameNames.learns {n : String} {k k₁ k' : Container C} (same : SameNames k k₁)
    (h : Learns n k₁ k') : Learns n k k' where
  names := by rw [h.names, same.names]
  known m := by rw [h.known, same.known]

theorem Learns.define (k : Container C) (r : Recipe C) : Learns r.name k (k.define r) where
  names := names_remember _ _
  known m := by
    have singleton : (k.define r).hasSingleton m = k.hasSingleton m := by simp [hasSingleton]
    rw [hasBean_iff, hasBean_iff, hasDefinition_define, singleton, or_assoc]

private theorem hasBean_bind (k : Container C) (n m : String) (b : BeanId) :
    (k.bind n b).hasBean m = true ↔ m = n ∨ k.hasBean m = true := by
  have definition : (k.bind n b).hasDefinition m = k.hasDefinition m := rfl
  rw [hasBean_iff, hasBean_iff, hasSingleton_bind, definition]
  exact or_left_comm

theorem Learns.register (k : Container C) (n : String) (b : BeanId) :
    Learns n k ((k.bind n b).remember n) where
  names := names_remember _ _
  known m := by
    have same : ((k.bind n b).remember n).hasBean m = (k.bind n b).hasBean m := by
      simp [hasBean, hasDefinition, hasSingleton, definition?]
    rw [same, hasBean_bind]

/-- A singleton of a known name may be registered without a look at the names. -/
theorem Learns.bind (k : Container C) (n : String) (b : BeanId) (known : n ∈ k.names) :
    Learns n k (k.bind n b) where
  names := by rw [if_pos known]; rfl
  known m := hasBean_bind k n m b

theorem SameNames.named {k k' : Container C} (h : SameNames k k') (hk : k.Named) : k'.Named where
  distinct := by rw [h.names]; exact hk.distinct
  known n := by rw [h.names, hk.known, h.known]

theorem Learns.named {n : String} {k k' : Container C} (h : Learns n k k') (hk : k.Named) :
    k'.Named := by
  by_cases old : n ∈ k.names
  · have names : k'.names = k.names := by rw [h.names, if_pos old]
    refine ⟨names ▸ hk.distinct, fun m => ?_⟩
    rw [names, h.known, hk.known]
    have present := (hk.known n).mp old
    exact ⟨.inr, fun hm => hm.elim (fun e => e ▸ present) id⟩
  · have names : k'.names = k.names ++ [n] := by rw [h.names, if_neg old]
    refine ⟨?_, fun m => ?_⟩
    · rw [names]
      exact List.nodup_append.mpr ⟨hk.distinct, List.nodup_singleton n, fun a ha b hb e =>
        old (List.mem_singleton.mp hb ▸ e ▸ ha)⟩
    · rw [names, List.mem_append, List.mem_singleton, h.known, hk.known]
      exact or_comm

end Container

/-- The name under which an event tells that something was registered. -/
def Event.registered? : Event → Option String
  | registeredDefinition n _ _ | registeredSingleton n => some n
  | _ => none

theorem Event.registered?_of_apart {e : Event} (apart : e.ofContainer = false) :
    e.registered? = none := by
  cases e <;> first | rfl | cases apart

namespace World

/-- The names that were registered, in whatever container, as the trace tells them. -/
def registrations (w : World C S) : List String := w.trace.toList.filterMap Event.registered?

theorem registrations_record (w : World C S) (e : Event) :
    (w.record e).registrations = w.registrations ++ e.registered?.toList := by
  cases h : e.registered? <;> simp [registrations, record, h]

theorem registrations_define (w : World C S) (c : ContainerId) (r : Recipe C) :
    (w.define c r).registrations = w.registrations ++ [r.name] := by
  have recorded (v : World C S) (k : Container C) : (((v.record
      (.registeredDefinition r.name r.type.name r.lazy)).setContainer c k)).registrations =
        v.registrations ++ [r.name] := registrations_record v _
  have warned : (w.record (.overridingDefinition r.name)).registrations = w.registrations :=
    (registrations_record w _).trans (List.append_nil _)
  unfold define
  split
  · exact (recorded _ _).trans (by rw [warned])
  · exact recorded w _

theorem registrations_bind (w : World C S) (c : ContainerId) (n : String) (b : BeanId) :
    (w.bind c n b).registrations = w.registrations ++ [n] :=
  registrations_record w (.registeredSingleton n)

/-- One name is registered in one container. -/
structure Registers (c : ContainerId) (n : String) (w w' : World C S) : Prop where
  told : w'.registrations = w.registrations ++ [n]
  learns : (w.container c).Learns n (w'.container c)
  others : ∀ c', c' ≠ c → (w.container c').SameNames (w'.container c')

/-- Nothing is registered. -/
structure RegistersNothing (w w' : World C S) : Prop where
  told : w'.registrations = w.registrations
  same : ∀ c, (w.container c).SameNames (w'.container c)

theorem RegistersNothing.of_eq {w w' : World C S} (hc : w'.containers = w.containers)
    (told : w'.registrations = w.registrations) : RegistersNothing w w' := by
  refine ⟨told, fun c => ?_⟩
  have same : w'.container c = w.container c := by simp [container, hc]
  rw [same]
  exact .refl _

theorem Registers.define (w : World C S) (c : ContainerId) (r : Recipe C) :
    Registers c r.name w (w.define c r) where
  told := registrations_define w c r
  learns := by
    rw [container_define, if_pos rfl]
    exact .define _ r
  others c' hc := by
    rw [container_define, if_neg hc]
    exact .refl _

theorem Registers.register (w : World C S) (c : ContainerId) (n : String) (b : BeanId) :
    Registers c n w ((w.bind c n b).remember c n) where
  told := registrations_bind w c n b
  learns := by
    rw [container_remember, if_pos rfl, container_bind, if_pos rfl]
    exact .register _ n b
  others c' hc := by
    rw [container_remember, if_neg hc, container_bind, if_neg hc]
    exact .refl _

theorem Registers.bind (w : World C S) (c : ContainerId) (n : String) (b : BeanId)
    (known : n ∈ (w.container c).names) : Registers c n w (w.bind c n b) where
  told := registrations_bind w c n b
  learns := by
    rw [container_bind, if_pos rfl]
    exact .bind _ n b known
  others c' hc := by
    rw [container_bind, if_neg hc]
    exact .refl _

/-- What is registered under a known name leaves all names as they are. -/
theorem Registers.names_of_known {c : ContainerId} {n : String} {w w' : World C S}
    (h : Registers c n w w') (known : n ∈ (w.container c).names) (c' : ContainerId) :
    (w'.container c').names = (w.container c').names := by
  by_cases hc : c' = c
  · subst hc
    rw [h.learns.names, if_pos known]
  · exact (h.others c' hc).names

/-- The end of a creation registers its name, unless the factory has done so. -/
theorem registers_complete (w : World C S) (c : ContainerId) (d : Definition C) (b : BeanId)
    (known : d.name ∈ (w.container c).names) :
    RegistersNothing w (w.complete c d b) ∨ Registers c d.name w (w.complete c d b) := by
  let accepted := (w.accept c d.serial b).unmark d.name
  have same (c' : ContainerId) : (w.container c').SameNames (accepted.container c') := by
    rw [container_unmark, container_accept]
    split
    · rename_i e
      rw [e]
      exact .accept _ d.serial b
    · exact .refl _
  by_cases taken : (accepted.container c).hasSingleton d.name = true
  · left
    have result : w.complete c d b = accepted := if_pos taken
    rw [result]
    exact ⟨rfl, same⟩
  · right
    have result : w.complete c d b = accepted.bind c d.name b := if_neg taken
    have bound : Registers c d.name accepted (accepted.bind c d.name b) :=
      .bind accepted c d.name b (by rw [(same c).names]; exact known)
    rw [result]
    refine ⟨bound.told, (same c).learns bound.learns, fun c' hc => ?_⟩
    have other : (accepted.bind c d.name b).container c' = accepted.container c' := by
      rw [container_bind, if_neg hc]
    rw [other]
    exact same c'

end World

/-- With every container named, a change registers nothing or one name in one container. -/
theorem Change.registers {Seen : Request C → World C S → Prop} {w w' : World C S}
    (h : Change Seen w w') (named : ∀ c, (w.container c).Named) :
    w.RegistersNothing w' ∨ ∃ c n, w.Registers c n w' := by
  cases h with
  | recorded _ e apart =>
    have told : (w.record e).registrations = w.registrations := by
      rw [World.registrations_record, Event.registered?_of_apart apart]
      exact List.append_nil _
    exact .inl (.of_eq rfl told)
  | marked | unmarked | flagged | newStatus | object | reference | pinned => exact .inl (.of_eq rfl rfl)
  | defined _ c r => exact .inr ⟨c, r.name, .define w c r⟩
  | registered _ c n b => exact .inr ⟨c, n, .register w c n b⟩
  | adopted _ c n d b current =>
    have defined : (w.container c).hasDefinition n = true := by simp [Container.hasDefinition, current]
    have known := ((named c).known n).mpr ((Container.hasBean_iff _ n).mpr (.inl defined))
    exact .inr ⟨c, n, .bind w c n b known⟩
  | completed w₀ _ c d b v began _ _ _ later =>
    -- The definition is still there, if not in force.
    obtain ⟨d', hd', recipe, _⟩ := later.definitions c d (Container.mem_of_definition? _ d.name d began)
    have defined : (w.container c).hasDefinition d.name = true :=
      (Container.hasDefinition_iff _ _).mpr ⟨d', hd', congrArg Recipe.name recipe⟩
    have known := ((named c).known d.name).mpr ((Container.hasBean_iff _ _).mpr (.inl defined))
    rcases w.registers_complete c d b known with nothing | registers
    · exact .inl nothing
    · exact .inr ⟨c, d.name, registers⟩

theorem Change.named {Seen : Request C → World C S → Prop} {w w' : World C S} (h : Change Seen w w')
    (hw : ∀ c, (w.container c).Named) (c : ContainerId) : (w'.container c).Named := by
  rcases h.registers hw with nothing | ⟨c', n, registers⟩
  · exact (nothing.same c).named (hw c)
  · by_cases hc : c = c'
    · subst hc
      exact registers.learns.named (hw c)
    · exact (registers.others c hc).named (hw c)

theorem World.named_initial (s : S) (c : ContainerId) :
    ((World.initial s : World C S).container c).Named where
  distinct := .nil
  known n := by
    have empty : ((World.initial s : World C S).container c).hasBean n = false := rfl
    rw [empty]
    exact ⟨nofun, nofun⟩

theorem Reachable.named {w : World C S} (h : Reachable w) (c : ContainerId) : (w.container c).Named :=
  h.invariant (I := fun w => ∀ c, (w.container c).Named) World.named_initial
    (fun _ _ _ hw hc => hc.named hw) (fun _ _ hw => hw) c

/-- The names of an earlier world come first in a later one. -/
theorem Change.names_prefix {Seen : Request C → World C S → Prop} {w w' : World C S}
    (h : Change Seen w w') (hw : ∀ c, (w.container c).Named) (c : ContainerId) :
    (w.container c).names <+: (w'.container c).names := by
  rcases h.registers hw with nothing | ⟨c', n, registers⟩
  · simp only [(nothing.same c).names, List.prefix_rfl]
  · by_cases hc : c = c'
    · subst hc
      rw [registers.learns.names]
      split
      · exact List.prefix_rfl
      · exact List.prefix_append _ _
    · simp only [(registers.others c hc).names, List.prefix_rfl]

/-- Where the names are in order, they stay so and are only added to at the end. -/
def World.NamesKept (w w' : World C S) : Prop :=
  (∀ c, (w.container c).Named) →
    ∀ c, (w'.container c).Named ∧ (w.container c).names <+: (w'.container c).names

theorem World.NamesKept.onward : Onward (NamesKept (C := C) (S := S)) where
  refl _ hw c := ⟨hw c, List.prefix_rfl⟩
  trans _ _ _ h k hw c :=
    have first := h hw
    have rest := k fun c => (first c).1
    ⟨(rest c).1, (first c).2.trans (rest c).2⟩
  changed _ _ _ h hw c := ⟨h.named hw c, h.names_prefix hw c⟩
  poked _ _ hw c := ⟨hw c, List.prefix_rfl⟩

/-- The registrations of one container, in their order. -/
def registeredIn (ledger : List (ContainerId × String)) (c : ContainerId) : List String :=
  (ledger.filter (·.1 = c)).map (·.2)

/-- The ledger adds to the registrations that the trace tells where they were made, and each container
knows the names registered in it, in the order in which they first were. -/
structure World.Recounts (w : World C S) (ledger : List (ContainerId × String)) : Prop where
  told : ledger.map (·.2) = w.registrations
  listed : ∀ c, (w.container c).names = (registeredIn ledger c).eraseDups

private theorem eraseDups_append_singleton (l : List String) (n : String) :
    (l ++ [n]).eraseDups = if n ∈ l.eraseDups then l.eraseDups else l.eraseDups ++ [n] := by
  simp only [List.eraseDups_append, List.mem_eraseDups]
  by_cases h : n ∈ l
  · simp [List.removeAll, h]
  · have once : [n].eraseDups = [n] := by simp [List.eraseDups_cons]
    simp [List.removeAll, h, once]

namespace World.Recounts

variable {w w' : World C S} {ledger : List (ContainerId × String)}

theorem nothing (h : w.Recounts ledger) (nothing : w.RegistersNothing w') : w'.Recounts ledger where
  told := by rw [h.told, nothing.told]
  listed c := by rw [(nothing.same c).names, h.listed]

theorem registers {c : ContainerId} {n : String} (h : w.Recounts ledger)
    (registers : w.Registers c n w') : w'.Recounts (ledger ++ [(c, n)]) where
  told := by simp [h.told, registers.told]
  listed c' := by
    by_cases hc : c' = c
    · subst hc
      have added : registeredIn (ledger ++ [(c', n)]) c' = registeredIn ledger c' ++ [n] := by
        simp [registeredIn]
      rw [registers.learns.names, added, eraseDups_append_singleton, h.listed]
    · have same : registeredIn (ledger ++ [(c, n)]) c' = registeredIn ledger c' := by
        simp [registeredIn, Ne.symm hc]
      rw [(registers.others c' hc).names, same, h.listed]

end World.Recounts

/-- A ledger for the world of now, of which each moment had the beginning. -/
private def Recounted (v : World C (Noted C S)) : Prop :=
  (∀ c, (v.container c).Named) ∧ ∃ ledger, v.plain.Recounts ledger ∧
    ∀ m ∈ v.past, ∃ before, before <+: ledger ∧ m.world.Recounts before

private theorem kept_recounted (lang : Language C S) : Kept lang (Recounted (C := C) (S := S)) where
  changed v v' := by
    rintro ⟨named, ledger, now, past⟩ hp hc
    refine ⟨hc.named named, ?_⟩
    rw [hp]
    rcases hc.registers named with nothing | ⟨c, n, registers⟩
    · exact ⟨ledger, now.nothing nothing, past⟩
    · refine ⟨_, now.registers registers, fun m hm => ?_⟩
      obtain ⟨before, hb, hr⟩ := past m hm
      exact ⟨before, hb.trans (List.prefix_append _ _), hr⟩
  poked v s := by
    rintro ⟨named, ledger, now, past⟩
    exact ⟨named, ledger, ⟨now.told, now.listed⟩, past⟩
  noted v m := by
    rintro ⟨named, ledger, now, past⟩ hm
    refine ⟨named, ledger, now, fun m' hm' => ?_⟩
    rcases List.mem_cons.mp hm' with rfl | hm'
    · exact ⟨ledger, List.prefix_rfl, by rw [hm.world]; exact now⟩
    · exact past m' hm'

theorem history_recounted {lang : Language C S} {depth : Nat} {p : Program C S α} {s : S}
    {w' : World C S} {o : Outcome α} {moments : List (Moment C S)}
    (h : p.history lang depth (.initial s) = some (o, w', moments)) :
    ∃ ledger, ∀ w ∈ moments.map Moment.world ++ [w'], ∃ before, before <+: ledger ∧
      w.Recounts before := by
  have start : Recounted (World.initial s : World C S).chronicled :=
    ⟨World.named_initial s, [], ⟨rfl, fun _ => rfl⟩, fun _ hm => nomatch hm⟩
  obtain ⟨v, rfl, rfl, _, ledger, now, past⟩ := kept_of_history (kept_recounted lang) start h
  refine ⟨ledger, fun w hw => ?_⟩
  rcases List.mem_append.mp hw with hw | hw
  · obtain ⟨m, hm, rfl⟩ := List.mem_map.mp hw
    exact past m (List.mem_reverse.mp hm)
  · obtain rfl := List.mem_singleton.mp hw
    exact ⟨ledger, List.prefix_rfl, now⟩

/-- In every run each container knows each name that has a definition or a singleton there, and no other,
once, in the order of first registration; the names with a definition are listed in that order, too. From
any moment of the run to any later one, and with any request, names are only added at the end; what is
registered under a known name leaves the names as they are. -/
theorem names_chronological (lang : Language C S) (depth : Nat) (p : Program C S α) (s : S)
    (w' : World C S) (o : Outcome α) (moments : List (Moment C S))
    (run : p.history lang depth (.initial s) = some (o, w', moments)) :
    (∀ w ∈ moments.map Moment.world ++ [w'], ∀ c,
      (w.container c).names.Nodup ∧
      (∀ n, n ∈ (w.container c).names ↔
        (w.container c).hasDefinition n = true ∨ (w.container c).hasSingleton n = true) ∧
      (∀ n, n ∈ (w.container c).names ↔ (w.container c).hasBean n = true) ∧
      (w.container c).definitionNames.Sublist (w.container c).names ∧
      ∀ n, n ∈ (w.container c).definitionNames ↔ (w.container c).hasDefinition n = true) ∧
    (∃ ledger, ∀ w ∈ moments.map Moment.world ++ [w'], ∃ before, before <+: ledger ∧
      w.Recounts before) ∧
    ((.initial s :: moments.map Moment.world ++ [w']).Pairwise fun w₁ w₂ => ∀ c,
      (w₁.container c).names <+: (w₂.container c).names) ∧
    ∀ w ∈ moments.map Moment.world ++ [w'],
      (∀ lang depth q a v, answer lang depth q w = some (a, v) → ∀ c,
        (w.container c).names <+: (v.container c).names) ∧
      ∀ c n, n ∈ (w.container c).names →
        (∀ r, r.name = n → ∀ c', ((w.define c r).container c').names = (w.container c').names) ∧
        ∀ b a v, Lookup.registerSingleton c n b w = some (a, v) → ∀ c',
          (v.container c').names = (w.container c').names := by
  have named (w : World C S) (hw : w ∈ moments.map Moment.world ++ [w']) (c : ContainerId) :
      (w.container c).Named :=
    Reachable.named ⟨lang, depth, α, p, s, o, w', moments, run, hw⟩ c
  refine ⟨fun w hw c => ?_, history_recounted run, ?_, fun w hw => ⟨?_, ?_⟩⟩
  · obtain ⟨distinct, known⟩ := named w hw c
    refine ⟨distinct, fun n => (known n).trans (Container.hasBean_iff _ n), known,
      List.filter_sublist, fun n => ?_⟩
    rw [Container.definitionNames, List.mem_filter, known, Container.hasBean_iff]
    exact ⟨And.right, fun h => ⟨.inl h, h⟩⟩
  · have onward := history_onward World.NamesKept.onward run
    refine onward.imp_of_mem fun {w₁ _} hw₁ _ kept c => (kept (fun c => ?_) c).2
    rcases List.mem_cons.mp hw₁ with rfl | hw₁
    · exact World.named_initial s c
    · exact named w₁ hw₁ c
  · intro lang' depth' q a v h c
    exact (answer_onward World.NamesKept.onward h (named w hw) c).2
  · refine fun c n known => ⟨fun r hr c' => ?_, fun b a v h c' => ?_⟩
    · exact (World.Registers.define w c r).names_of_known (hr ▸ known) c'
    · rcases Lookup.registerSingleton_cases h with ⟨_, _, rfl⟩ | ⟨_, _, _, rfl⟩
      · rfl
      · exact (World.Registers.register w c n b).names_of_known known c'

/-- Defines a name, registers a bean under another one, and defines the first name anew before its bean is
made. -/
def defineAnew (c : ContainerId) (name other : String) : Program Unit Unit BeanId := do
  .request (.define c { name, type := .interface name, factory := () })
  let b ← .request (.create (.interface other) ())
  .request (.registerSingleton c other b)
  defineAndGet c name

theorem names_chronological_defineAnew : ∃ w' moments,
    (defineAnew ⟨0⟩ "b" "a").history (selfRegistering "b") 2 (.initial ()) =
      some (.ok ⟨1⟩, w', moments) ∧
    (w'.container ⟨0⟩).names = ["b", "a"] ∧ w'.registrations = ["b", "a", "b", "b"] ∧
    ∀ n, n ∈ ["b", "a"] ↔ (w'.container ⟨0⟩).hasBean n = true := by
  have run : ∃ w', (defineAnew ⟨0⟩ "b" "a").interpret (answer (selfRegistering "b") 2) (.initial ()) =
      some (.ok ⟨1⟩, w') ∧ (w'.container ⟨0⟩).names = ["b", "a"] ∧
      w'.registrations = ["b", "a", "b", "b"] := ⟨_, rfl, rfl, rfl⟩
  obtain ⟨w', run, names, told⟩ := run
  obtain ⟨moments, run⟩ := history_of_interpret run
  obtain ⟨ordered, _⟩ := names_chronological _ _ _ _ _ _ _ run
  obtain ⟨_, _, known, _⟩ := ordered w' (by simp) ⟨0⟩
  exact ⟨w', moments, run, names, told, names ▸ known⟩

end Wiring
