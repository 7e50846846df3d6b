import Wiring.Proofs.Flag
import Wiring.Proofs.Turns

namespace Wiring

variable {C S : Type}

namespace Bootstrap

/-- How a parameter is prepared: by a new early reference, or by a bean of the container, which is selected
and looked up with the flag off. -/
inductive Prepares (user : UserCode C S) (p : Processor C) (d : Dependency) : Deed C S BeanId → Prop where
  | referred (w : World C S) (lazily : p.settings.proxyFeatureParameters = true)
      (capable : capability d.type = .ok ()) : Prepares user p d ⟨w, .ok ⟨w.beans.size⟩,
        ((w.record (.creatingReference d.type.name)).addBean
          (.early (.make p.creator (.dependency d)))).2⟩
  | incapable (w : World C S) (e : Error) (lazily : p.settings.proxyFeatureParameters = true)
      (refused : capability d.type = .error e) : Prepares user p d ⟨w, .error e, w⟩
  | found (w : World C S) (n : String) (o : Outcome BeanId) (w' : World C S)
      (eager : p.settings.proxyFeatureParameters = false)
      (selected : (w.container p.container).select w.plainType d none = .ok n)
      (answered : Lookup.Answered user p.container n (w.setCreatingProxies p.status false) o w') :
      Prepares user p d ⟨w, o, w'.setCreatingProxies p.status (w.creatingProxies p.status)⟩
  | unselected (w : World C S) (e : Error) (eager : p.settings.proxyFeatureParameters = false)
      (refused : (w.container p.container).select w.plainType d none = .error e) :
      Prepares user p d ⟨w, .error e, w⟩

section Parameter

variable (user : UserCode C S) {p : Processor C} {d : Dependency} {w w' : World C S} {e : Error}

theorem parameter_referred (lazily : p.settings.proxyFeatureParameters = true)
    (capable : capability d.type = .ok ()) : parameter user p d w = some (.ok ⟨w.beans.size⟩,
      ((w.record (.creatingReference d.type.name)).addBean
        (.early (.make p.creator (.dependency d)))).2) := by
  simp only [parameter, lazily, if_true, Reference.createProxy, capable]
  rfl

theorem parameter_incapable (lazily : p.settings.proxyFeatureParameters = true)
    (refused : capability d.type = .error e) : parameter user p d w = some (.error e, w) := by
  simp only [parameter, lazily, if_true, Reference.createProxy, refused]
  rfl

theorem parameter_found {n : String} (eager : p.settings.proxyFeatureParameters = false)
    (selected : (w.container p.container).select w.plainType d none = .ok n) :
    parameter user p d w = Run.guarded p.status false (Lookup.getBean user p.container n) w := by
  have looked : Lookup.resolve user p.container d none (w.setCreatingProxies p.status false) =
      Lookup.getBean user p.container n (w.setCreatingProxies p.status false) :=
    Lookup.resolve_of_select user selected
  simp only [parameter, eager, Bool.false_eq_true, if_false, Run.guarded, Run.cleanup, looked]

theorem parameter_unselected (eager : p.settings.proxyFeatureParameters = false)
    (refused : (w.container p.container).select w.plainType d none = .error e) :
    parameter user p d w = some (.error e, w) := by
  have looked : Lookup.resolve user p.container d none (w.setCreatingProxies p.status false) =
      some (.error e, w.setCreatingProxies p.status false) :=
    Lookup.resolve_of_select_error user refused
  simp only [parameter, eager, Bool.false_eq_true, if_false, Run.guarded, Run.cleanup, looked,
    World.setCreatingProxies_twice, World.setCreatingProxies_self]

variable {user}

theorem parameter_iff {o : Outcome BeanId} :
    parameter user p d w = some (o, w') ↔ Prepares user p d ⟨w, o, w'⟩ := by
  constructor
  · intro h
    cases mode : p.settings.proxyFeatureParameters with
    | true =>
      cases capable : capability d.type with
      | ok _ =>
        cases (parameter_referred user mode capable).symm.trans h
        exact .referred w mode capable
      | error e =>
        cases (parameter_incapable user mode capable).symm.trans h
        exact .incapable w e mode capable
    | false =>
      cases selected : (w.container p.container).select w.plainType d none with
      | ok n =>
        rw [parameter_found user mode selected] at h
        obtain ⟨w₁, ran, rfl⟩ := Run.guarded_cases h
        exact .found w n o w₁ mode selected (Lookup.getBean_cases ran)
      | error e =>
        cases (parameter_unselected user mode selected).symm.trans h
        exact .unselected w e mode selected
  · intro h
    cases h with
    | referred w lazily capable => exact parameter_referred user lazily capable
    | incapable w e lazily refused => exact parameter_incapable user lazily refused
    | found w n o w' eager selected answered =>
      rw [parameter_found user eager selected]
      exact Run.cleanup_some _ _ _ _ _ (Lookup.getBean_iff.mpr answered)
    | unselected w e eager refused => exact parameter_unselected user eager refused

end Parameter

end Bootstrap

namespace Specification

/-- A specification is told where it comes from. -/
inductive Told (user : UserCode C S) (source : Source) :
    Specification C → Deed C S (Specification C) → Prop where
  | register (w : World C S) (n : String) (b : BeanId) (earlier : Option Source) :
      Told user source (.register n b earlier) ⟨w, .ok (.register n b (some source)), w⟩
  | custom (code : C) (x : Deed C S C) (entered : x.Of (user code (.setSource source))) :
      Told user source (.custom code) ⟨x.before, x.outcome.map .custom, x.after⟩

/-- A specification is checked; one that registers a bean needs a name for it. -/
inductive Validated (user : UserCode C S) : Specification C → Deed C S Unit → Prop where
  | named (w : World C S) (n : String) (b : BeanId) (source : Option Source)
      (named : Text.isBlank n = false) : Validated user (.register n b source) ⟨w, .ok (), w⟩
  | blank (w : World C S) (n : String) (b : BeanId) (source : Option Source)
      (blank : Text.isBlank n = true) : Validated user (.register n b source)
        ⟨w, .error (.invalidSpecification "a bean name is required to register a bean"), w⟩
  | custom (code : C) (x : Deed C S Unit) (entered : x.Of (user code .validate)) :
      Validated user (.custom code) x

/-- A specification is asked for the type of its executor. -/
inductive Typed (user : UserCode C S) : Specification C → Deed C S String → Prop where
  | register (w : World C S) (n : String) (b : BeanId) (source : Option Source) :
      Typed user (.register n b source) ⟨w, .ok registeringType, w⟩
  | custom (code : C) (x : Deed C S String) (entered : x.Of (user code .executorType)) :
      Typed user (.custom code) x

/-- An executor applies a specification. The one that registers beans knows only its own specifications, and
registers an existing bean under a name that no singleton has. -/
inductive Executed (lang : Language C S) (user : UserCode C S) (c : ContainerId) :
    Executor C → Specification C → Deed C S Unit → Prop where
  | custom (code : C) (s : Specification C) (x : Deed C S Unit)
      (entered : x.Of (user code (.execute s c))) : Executed lang user c (.custom code) s x
  | registered (w : World C S) (n : String) (b : BeanId) (source : Option Source)
      (there : (w.bean? b).isSome) (free : (w.container c).singleton? n = none) :
      Executed lang user c .registering (.register n b source)
        ⟨w, .ok (), (w.bind c n b).remember c n⟩
  | taken (w : World C S) (n : String) (b : BeanId) (source : Option Source) (kept : BeanId)
      (there : (w.bean? b).isSome) (taken : (w.container c).singleton? n = some kept) :
      Executed lang user c .registering (.register n b source)
        ⟨w, .error (.singletonAlreadyRegistered n), w⟩
  | missing (w : World C S) (n : String) (b : BeanId) (source : Option Source)
      (missing : w.bean? b = none) : Executed lang user c .registering (.register n b source)
        ⟨w, .panic "no such bean", w⟩
  | foreign (w : World C S) (code : C) : Executed lang user c .registering (.custom code) ⟨w,
      .error (.illegalState s!"bean-registering executor cannot process {lang.describe code}"), w⟩

variable {lang : Language C S} {user : UserCode C S} {c : ContainerId} {source : Source}
  {e : Executor C} {s : Specification C} {w w' : World C S}

theorem setSource_iff {o : Outcome (Specification C)} :
    s.setSource user source w = some (o, w') ↔ Told user source s ⟨w, o, w'⟩ := by
  constructor
  · intro h
    cases s with
    | register n b earlier =>
      cases h
      exact .register w n b earlier
    | custom code =>
      obtain ⟨told, w₁, entered, next⟩ := Run.followedBy_cases h
      cases told <;> cases next <;> exact .custom code ⟨w, _, w'⟩ entered
  · intro h
    cases h with
    | register w n b earlier => rfl
    | custom code x entered =>
      obtain ⟨w, told, w'⟩ := x
      refine (Run.followedBy_some _ _ _ _ _ entered).trans ?_
      cases told <;> rfl

theorem validate_iff {o : Outcome Unit} :
    s.validate user w = some (o, w') ↔ Validated user s ⟨w, o, w'⟩ := by
  constructor
  · intro h
    cases s with
    | register n b source =>
      rw [validate] at h
      split at h
      · rename_i blank
        cases h
        exact .blank w n b source blank
      · rename_i named
        cases h
        exact .named w n b source (by simpa using named)
    | custom code => exact .custom code _ h
  · intro h
    cases h with
    | named w n b source named => simp [validate, named]
    | blank w n b source blank => simp [validate, blank]
    | custom code x entered => exact entered

theorem executorType_iff {o : Outcome String} :
    s.executorType user w = some (o, w') ↔ Typed user s ⟨w, o, w'⟩ := by
  constructor
  · intro h
    cases s with
    | register n b source =>
      cases h
      exact .register w n b source
    | custom code => exact .custom code _ h
  · intro h
    cases h with
    | register w n b source => rfl
    | custom code x entered => exact entered

theorem applyTo_iff {o : Outcome Unit} :
    s.applyTo lang user c e w = some (o, w') ↔ Executed lang user c e s ⟨w, o, w'⟩ := by
  constructor
  · intro h
    cases e with
    | custom code => exact .custom code s _ h
    | registering =>
      cases s with
      | custom code =>
        cases h
        exact .foreign w code
      | register n b source =>
        cases there : w.bean? b with
        | none =>
          cases (Run.bind_panic _ _ _ _ _ (Run.bean_none b w there)).symm.trans h
          exact .missing w n b source there
        | some v =>
          have there : (w.bean? b).isSome := by rw [there]; rfl
          cases taken : (w.container c).singleton? n with
          | none =>
            cases (Lookup.registerSingleton_free c n b w taken there).symm.trans h
            exact .registered w n b source there taken
          | some kept =>
            cases (Lookup.registerSingleton_refused c n kept b w taken there).symm.trans h
            exact .taken w n b source kept there taken
  · intro h
    cases h with
    | custom code s x entered => exact entered
    | registered w n b source there free => exact Lookup.registerSingleton_free c n b w free there
    | taken w n b source kept there taken =>
      exact Lookup.registerSingleton_refused c n kept b w taken there
    | missing w n b source missing => exact Run.bind_panic _ _ _ _ _ (Run.bean_none b w missing)
    | foreign w code => rfl

end Specification

end Wiring
