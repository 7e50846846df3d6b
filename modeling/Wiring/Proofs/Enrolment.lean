import Wiring.Proofs.Pipeline
import Wiring.Proofs.Registration

namespace Wiring

variable {C S : Type}

/-- A bean can be registered under the name by a feature method. -/
structure Container.Takes (k : Container C) (n : String) : Prop where
  named : Text.isBlank n = false
  free : k.singleton? n = none

/-- Why a name is refused. A blank one is reported as invalid even if it has a bean. -/
def Specification.refusal (n : String) : Error :=
  if Text.isBlank n then .invalidSpecification "a bean name is required to register a bean"
  else .singletonAlreadyRegistered n

section Methods

variable (lang : Language C S) (depth : Nat) (p : Processor C)

/-- The body of a feature method is run and hands over a bean to be registered under the name. Containers
stay as they are, and nothing is taken back. -/
structure Returns (m : Configuration C × Feature C) (n : String) (v : World C S) (b : BeanId)
    (v' : World C S) : Prop where
  run : ∃ source, lang.user (answer lang depth) m.2.body (.body ⟨p, m.1⟩ []) v =
    some (.ok (.register n b source), v')
  containers : v'.containers = v.containers
  later : Later v v'
  present : (v'.bean? b).isSome

/-- A feature method without parameters that, from this world on, hands over a bean to be registered under
the name. -/
structure Offers (w : World C S) (m : Configuration C × Feature C) (n : String) : Prop where
  parameters : m.2.parameters = []
  body : ∀ v, Later w v → ∃ b v', Returns lang depth p m n v b v'

variable (name : Configuration C × Feature C → String) (w : World C S)

/-- The way of a pass: these feature methods were run in this order, and each of these beans was registered
once it was handed over. In between, nothing changes but the flag and the trace. -/
inductive Passed : List ((Configuration C × Feature C) × BeanId) → World C S → Prop where
  | start : Passed [] w
  | aside {done : List ((Configuration C × Feature C) × BeanId)} {v v' : World C S}
      (before : Passed done v) (aside : v.Aside p.status v') : Passed done v'
  | next {done : List ((Configuration C × Feature C) × BeanId)} {v v' u : World C S}
      (m : Configuration C × Feature C) (b : BeanId) (before : Passed done v)
      (returns : Returns lang depth p m (name m) v b v') (aside : v'.Aside p.status u)
      (takes : (u.container p.container).Takes (name m)) :
      Passed (done ++ [(m, b)]) ((u.bind p.container (name m) b).remember p.container (name m))

/-- The feature methods that are left after those that are done: none, or the next one was run and its bean
not registered. -/
inductive Leaves (done : List ((Configuration C × Feature C) × BeanId)) :
    List (Configuration C × Feature C) → World C S → Prop where
  | nothing {v : World C S} (passed : Passed lang depth p name w done v) : Leaves done [] v
  | refused {v v' u : World C S} (m : Configuration C × Feature C) (b : BeanId)
      (rest : List (Configuration C × Feature C)) (passed : Passed lang depth p name w done v)
      (returns : Returns lang depth p m (name m) v b v') (aside : v'.Aside p.status u) :
      Leaves done (m :: rest) u

/-- These beans were registered under the names of these feature methods, in this order; all else in
containers is as before. -/
structure Enrolled (done : List ((Configuration C × Feature C) × BeanId)) (w' : World C S) : Prop where
  distinct : (done.map fun e => name e.1).Nodup
  valid : ∀ e ∈ done, (w.container p.container).Takes (name e.1)
  container : w'.container p.container = (done.map fun e => Registration.singleton (name e.1) e.2).foldl
    Registration.add (w.container p.container)
  registered : ∀ e ∈ done, (w'.container p.container).singleton? (name e.1) = some e.2
  others : ∀ n, n ∉ done.map (fun e => name e.1) →
    (w'.container p.container).singleton? n = (w.container p.container).singleton? n
  elsewhere : ∀ c, c ≠ p.container → w'.container c = w.container c
  definitions : ∀ c, (w'.container c).definitions = (w.container c).definitions
  later : Later w w'

/-- How a pass ends: nothing is left, or the next feature method fails, since its name is blank, was taken
before, or has been taken by a feature method. -/
inductive Ends (done : List ((Configuration C × Feature C) × BeanId)) :
    List (Configuration C × Feature C) → Outcome Unit → Prop where
  | complete : Ends done [] (.ok ())
  | refused (m : Configuration C × Feature C) (rest : List (Configuration C × Feature C))
      (unfit : Text.isBlank (name m) = true ∨
        ((w.container p.container).singleton? (name m)).isSome ∨ ∃ e ∈ done, name e.1 = name m) :
      Ends done (m :: rest) (.error (.featureMethodExecution
        (Source.mk m.1.name m.2.name).display (Specification.refusal (name m))))

end Methods

namespace World.Aside

variable {s : StatusId} {w w' : World C S}

theorem containers (h : w.Aside s w') : w'.containers = w.containers := by
  obtain ⟨value, events, rfl⟩ := h
  rfl

theorem beans (h : w.Aside s w') : w'.beans = w.beans := by
  obtain ⟨value, events, rfl⟩ := h
  rfl

theorem later (h : w.Aside s w') : Later w w' := .of_eq h.containers h.beans

end World.Aside

variable {lang : Language C S} {depth : Nat} {p : Processor C}
  {name : Configuration C × Feature C → String} {w v v' u : World C S}
  {done : List ((Configuration C × Feature C) × BeanId)}

namespace Enrolled

theorem start (p : Processor C) (name : Configuration C × Feature C → String) (w : World C S) :
    Enrolled p name w [] w where
  distinct := .nil
  valid _ h := absurd h List.not_mem_nil
  container := rfl
  registered _ h := absurd h List.not_mem_nil
  others _ _ := rfl
  elsewhere _ _ := rfl
  definitions _ := rfl
  later := .refl w

/-- What leaves the containers alone changes nothing. -/
theorem aside (h : Enrolled p name w done v) (containers : v'.containers = v.containers)
    (later : Later v v') : Enrolled p name w done v' := by
  have same (c : ContainerId) : v'.container c = v.container c := by
    simp only [World.container, containers]
  exact {
    distinct := h.distinct
    valid := h.valid
    container := (same p.container).trans h.container
    registered := fun e he => by rw [same, h.registered e he]
    others := fun n hn => by rw [same, h.others n hn]
    elsewhere := fun c hc => (same c).trans (h.elsewhere c hc)
    definitions := fun c => by rw [same, h.definitions c]
    later := h.later.trans later }

/-- A name that can be taken by now is new, and could be taken before. -/
theorem new (h : Enrolled p name w done v) {n : String}
    (takes : (v.container p.container).Takes n) :
    (w.container p.container).Takes n ∧ n ∉ done.map fun e => name e.1 := by
  have unused : n ∉ done.map fun e => name e.1 := by
    intro used
    obtain ⟨e, he, rfl⟩ := List.mem_map.mp used
    cases takes.free.symm.trans (h.registered e he)
  exact ⟨⟨takes.named, (h.others n unused).symm.trans takes.free⟩, unused⟩

/-- A name that has a bean by now had one before, or a feature method has taken it. -/
theorem taken (h : Enrolled p name w done v) {n : String} {b : BeanId}
    (found : (v.container p.container).singleton? n = some b) :
    ((w.container p.container).singleton? n).isSome ∨ ∃ e ∈ done, name e.1 = n := by
  by_cases used : n ∈ done.map fun e => name e.1
  · exact .inr (List.mem_map.mp used)
  · left
    rw [← h.others n used, found]
    rfl

theorem next (h : Enrolled p name w done v) (m : Configuration C × Feature C) (b : BeanId)
    (takes : (v.container p.container).Takes (name m)) :
    Enrolled p name w (done ++ [(m, b)])
      ((v.bind p.container (name m) b).remember p.container (name m)) := by
  obtain ⟨before, unused⟩ := h.new takes
  have own : ((v.bind p.container (name m) b).remember p.container (name m)).container p.container =
      Registration.add (v.container p.container) (.singleton (name m) b) :=
    Registration.container_enter p.container v (.singleton (name m) b)
  have later : Later v ((v.bind p.container (name m) b).remember p.container (name m)) :=
    (Later.bind v p.container (name m) b takes.free).trans (.remember _ _ _)
  refine ⟨?_, ?_, ?_, ?_, ?_, ?_, ?_, h.later.trans later⟩
  · rw [List.map_append]
    refine List.nodup_append.mpr ⟨h.distinct, by simp, ?_⟩
    rintro n hn _ hm rfl
    rw [List.mem_singleton.mp hm] at hn
    exact unused hn
  · intro e he
    rcases List.mem_append.mp he with he | he
    · exact h.valid e he
    · exact List.mem_singleton.mp he ▸ before
  · rw [own, h.container, List.map_append, List.foldl_append]
    rfl
  · intro e he
    rcases List.mem_append.mp he with he | he
    · exact later.singletons _ _ _ (h.registered e he)
    · rw [List.mem_singleton.mp he, own]
      simp [Registration.add]
  · intro n hn
    rw [List.map_append, List.mem_append, not_or] at hn
    have apart : n ≠ name m := fun same => hn.2 (same ▸ List.mem_singleton.mpr rfl)
    rw [own, Registration.singleton?_add _ (.singleton (name m) b) n apart, h.others n hn.1]
  · intro c hc
    simp [hc, h.elsewhere c hc]
  · intro c
    rw [← h.definitions c]
    by_cases hc : c = p.container <;> simp [hc]

end Enrolled

/-- A bean that is handed over is not registered by that. -/
theorem Enrolled.handed (h : Enrolled p name w done v) {m : Configuration C × Feature C} {n : String}
    {b : BeanId} (returns : Returns lang depth p m n v b v') (aside : v'.Aside p.status u) :
    Enrolled p name w done u :=
  (h.aside returns.containers returns.later).aside aside.containers aside.later

theorem Passed.enrolled (h : Passed lang depth p name w done v) : Enrolled p name w done v := by
  induction h with
  | start => exact .start p name w
  | aside before aside ih => exact ih.aside aside.containers aside.later
  | next m b before returns aside takes ih => exact (ih.handed returns aside).next m b takes

theorem Leaves.enrolled {rest : List (Configuration C × Feature C)}
    (h : Leaves lang depth p name w done rest v) : Enrolled p name w done v := by
  cases h with
  | nothing passed => exact passed.enrolled
  | refused m b rest passed returns aside => exact passed.enrolled.handed returns aside

namespace Bootstrap

section Feature

variable (user : UserCode C S) {c : Configuration C} {f : Feature C} {n : String} {b : BeanId}
  {source : Option Source}

/-- A specification to register a bean that is handed over is told its source and applied, once the flag
is as it was. -/
theorem runFeature_register (parameters : f.parameters = [])
    (returned : user f.body (.body ⟨p, c⟩ []) (v.setCreatingProxies p.status true) =
      some (.ok (.register n b source), v')) :
    runFeature lang user p c f v = (do
      (Specification.register n b (some ⟨c.name, f.name⟩)).validate user
      dispatch lang user p (.register n b (some ⟨c.name, f.name⟩)))
        (v'.setCreatingProxies p.status (v.creatingProxies p.status)) := by
  have specified : specification user p c f v = some (.ok (.register n b source),
      v'.setCreatingProxies p.status (v.creatingProxies p.status)) := by
    refine Run.cleanup_some _ _ _ _ _ ?_
    rw [parameters]
    exact (Run.bind_ok _ _ _ _ [] rfl).trans returned
  exact (Run.bind_ok _ _ _ _ _ specified).trans (Run.bind_ok _ _ _ _ _ rfl)

/-- A blank name is refused before anything else. -/
theorem runFeature_blank (parameters : f.parameters = [])
    (returned : user f.body (.body ⟨p, c⟩ []) (v.setCreatingProxies p.status true) =
      some (.ok (.register n b source), v')) (blank : Text.isBlank n = true) :
    ∃ u, v'.Aside p.status u ∧
      runFeature lang user p c f v = some (.error (Specification.refusal n), u) := by
  refine ⟨_, .flag p.status v' (v.creatingProxies p.status), ?_⟩
  rw [runFeature_register user parameters returned]
  refine Run.bind_error _ _ _ _ _ ?_
  simp [Specification.validate, Specification.refusal, blank]

/-- Any other name is given to the container. -/
theorem runFeature_named (parameters : f.parameters = [])
    (returned : user f.body (.body ⟨p, c⟩ []) (v.setCreatingProxies p.status true) =
      some (.ok (.register n b source), v')) (named : Text.isBlank n = false)
    (builtin : p.executors.get? registeringType = some .registering) :
    ∃ u, v'.Aside p.status u ∧
      runFeature lang user p c f v = Lookup.registerSingleton p.container n b u := by
  let told : Specification C := .register n b (some ⟨c.name, f.name⟩)
  let x := v'.setCreatingProxies p.status (v.creatingProxies p.status)
  have valid : told.validate user x = some (.ok (), x) := by
    simp [told, Specification.validate, named]
  have dispatched : dispatch lang user p told x = Lookup.registerSingleton p.container n b
      (x.record (.executing registeringType (told.describe lang x))) := by
    refine (Run.bind_ok _ _ x x registeringType rfl).trans ?_
    simp only [builtin]
    rfl
  refine ⟨_, ?_, (runFeature_register user parameters returned).trans
    ((Run.bind_ok _ _ _ _ _ valid).trans dispatched)⟩
  exact .trans (.flag p.status v' _) (.record p.status x _)

theorem processFeature_ok (ran : runFeature lang user p c f
    (v.record (.processing (Source.mk c.name f.name).display)) = some (.ok (), v')) :
    processFeature lang user p c f v = some (.ok (), v') :=
  Run.followedBy_some _ _ _ _ _ ran

/-- A failure is reported as that of the feature method. -/
theorem processFeature_error {e : Error} (ran : runFeature lang user p c f
    (v.record (.processing (Source.mk c.name f.name).display)) = some (.error e, v')) :
    processFeature lang user p c f v =
      some (.error (.featureMethodExecution (Source.mk c.name f.name).display e),
        v'.record (.featureFailed (Source.mk c.name f.name).display e.message)) :=
  Run.followedBy_some _ _ _ _ _ ran

end Feature

variable (lang depth p name w) in
/-- The computation goes on with these feature methods, after those that are done. -/
def Enrols (done : List ((Configuration C × Feature C) × BeanId))
    (methods : List (Configuration C × Feature C)) (r : Run C S Unit) (v : World C S) : Prop :=
  ∃ more rest o v', r v = some (o, v') ∧ methods = more.map (·.1) ++ rest ∧
    Leaves lang depth p name w (done ++ more) rest v' ∧ Ends p name w (done ++ more) rest o

namespace Enrols

theorem nothing {r : Run C S Unit} (ran : r v = some (.ok (), v'))
    (h : Passed lang depth p name w done v') : Enrols lang depth p name w done [] r v := by
  refine ⟨[], [], _, _, ran, rfl, .nothing ?_, .complete⟩
  rwa [List.append_nil]

/-- What follows is reached if all feature methods before it have registered their beans. -/
theorem bind {methods methods' : List (Configuration C × Feature C)} {r : Run C S Unit}
    {f : Unit → Run C S Unit} (h : Enrols lang depth p name w done methods r v)
    (next : ∀ done v, Passed lang depth p name w done v →
      Enrols lang depth p name w done methods' (f ()) v) :
    Enrols lang depth p name w done (methods ++ methods') (r >>= f) v := by
  obtain ⟨more, rest, o, v', ran, rfl, leaves, ends⟩ := h
  cases ends with
  | complete =>
    cases leaves with
    | nothing passed =>
      obtain ⟨more', rest', o', v'', ran', rfl, leaves', ends'⟩ := next _ v' passed
      refine ⟨more ++ more', rest', o', v'', (Run.bind_ok _ _ _ _ _ ran).trans ran', ?_, ?_, ?_⟩
      · simp
      · rwa [List.append_assoc] at leaves'
      · rwa [List.append_assoc] at ends'
  | refused m rest unfit =>
    cases leaves with
    | refused m b rest passed returns aside =>
      refine ⟨more, m :: rest ++ methods', _, v', Run.bind_error _ _ _ _ _ ran, ?_,
        .refused m b _ passed returns aside, .refused m _ unfit⟩
      rw [List.append_assoc]

end Enrols

section Pass

variable (builtin : p.executors.get? registeringType = some .registering)

include builtin

/-- One feature method registers its bean, or is refused. -/
theorem processFeature_enrols {m : Configuration C × Feature C}
    (offers : Offers lang depth p w m (name m)) (h : Passed lang depth p name w done v) :
    Enrols lang depth p name w done [m]
      (processFeature lang (lang.user (answer lang depth)) p m.1 m.2) v := by
  let user := lang.user (answer lang depth)
  let method := (Source.mk m.1.name m.2.name).display
  -- The body begins with the flag set.
  have begun : Passed lang depth p name w done
      ((v.record (.processing method)).setCreatingProxies p.status true) :=
    h.aside (.trans (.record p.status v _) (.flag p.status _ true))
  obtain ⟨b, v', returns⟩ := offers.body _ begun.enrolled.later
  obtain ⟨source, returned⟩ := returns.run
  have refused {u : World C S} (aside : v'.Aside p.status u)
      (ran : runFeature lang user p m.1 m.2 (v.record (.processing method)) =
        some (.error (Specification.refusal (name m)), u))
      (unfit : Text.isBlank (name m) = true ∨
        ((w.container p.container).singleton? (name m)).isSome ∨ ∃ e ∈ done, name e.1 = name m) :
      Enrols lang depth p name w done [m] (processFeature lang user p m.1 m.2) v := by
    refine ⟨[], [m], _, _, processFeature_error user ran, rfl, ?_, ?_⟩
    · rw [List.append_nil]
      exact .refused m b [] begun returns (aside.trans (.record p.status u _))
    · rw [List.append_nil]
      exact .refused m [] unfit
  cases blank : Text.isBlank (name m) with
  | true =>
    obtain ⟨u, aside, ran⟩ := runFeature_blank user offers.parameters returned blank
    exact refused aside ran (.inl blank)
  | false =>
    obtain ⟨u, aside, named⟩ := runFeature_named user offers.parameters returned blank builtin
    have there : Enrolled p name w done u := begun.enrolled.handed returns aside
    have present : (u.bean? b).isSome := by
      rw [World.bean?, aside.beans]
      exact returns.present
    cases found : (u.container p.container).singleton? (name m) with
    | some x =>
      refine refused aside (named.trans ?_) (.inr (there.taken found))
      simp only [Specification.refusal, blank, Bool.false_eq_true, if_false]
      exact Lookup.registerSingleton_refused p.container (name m) x b u found present
    | none =>
      have ran := named.trans (Lookup.registerSingleton_free p.container (name m) b u found present)
      exact ⟨[(m, b)], [], _, _, processFeature_ok user ran, rfl,
        .nothing (.next m b begun returns aside ⟨blank, found⟩), .complete⟩

theorem processFeatures_enrols (c : Configuration C) (fs : List (Feature C))
    (offers : ∀ f ∈ fs, Offers lang depth p w (c, f) (name (c, f)))
    (h : Passed lang depth p name w done v) :
    Enrols lang depth p name w done (fs.map fun f => (c, f))
      (processFeatures lang (lang.user (answer lang depth)) p c fs) v := by
  induction fs generalizing done v with
  | nil => exact .nothing rfl h
  | cons f rest ih =>
    have first : Enrols lang depth p name w done [(c, f)]
        (processFeature lang (lang.user (answer lang depth)) p c f) v :=
      processFeature_enrols builtin (m := (c, f)) (offers f List.mem_cons_self) h
    exact first.bind fun _ _ => ih fun f hf => offers f (List.mem_cons_of_mem _ hf)

theorem processConfigurations_enrols (cs : List (Configuration C))
    (offers : ∀ c ∈ cs, ∀ f ∈ c.features, Offers lang depth p w (c, f) (name (c, f)))
    (h : Passed lang depth p name w done v) :
    Enrols lang depth p name w done (cs.flatMap fun c => c.features.map fun f => (c, f))
      (processConfigurations lang (lang.user (answer lang depth)) p cs) v := by
  induction cs generalizing done v with
  | nil => exact .nothing rfl h
  | cons c rest ih =>
    have more {done : List ((Configuration C × Feature C) × BeanId)} {v : World C S}
        (h : Passed lang depth p name w done v) : Enrols lang depth p name w done
          (rest.flatMap fun c => c.features.map fun f => (c, f))
          (processConfigurations lang (lang.user (answer lang depth)) p rest) v :=
      ih (fun c hc => offers c (List.mem_cons_of_mem _ hc)) h
    rw [List.flatMap_cons, processConfigurations]
    split
    · rename_i none
      rw [List.isEmpty_iff.mp none]
      exact .bind (.nothing rfl (h.aside (.record p.status v _))) fun _ _ => more
    · refine .bind ?_ fun _ _ => more
      exact processFeatures_enrols builtin c c.features (offers c List.mem_cons_self) h

end Pass

end Bootstrap

/-- A pass over feature methods that register beans registers those before the first one whose name is
blank or has a bean by then, be it from before or from a feature method. That one is refused, which is the
failure of the pass. -/
theorem process_enrols (lang : Language C S) (depth : Nat) (p : Processor C) (w : World C S)
    (name : Configuration C × Feature C → String)
    (offers : ∀ m ∈ p.methods, Offers lang depth p w m (name m))
    (builtin : p.executors.get? registeringType = some .registering)
    (alone : p.settings.preinstantiateSingletons = false) :
    ∃ done rest o v, answer lang (depth + 1) (.process p) w = some (o, v.record .left) ∧
      p.methods = done.map (·.1) ++ rest ∧ Leaves lang depth p name w done rest v ∧
      Enrolled p name w done (v.record .left) ∧ Ends p name w done rest o := by
  have each (c : Configuration C) (hc : c ∈ p.configurations) (f : Feature C) (hf : f ∈ c.features) :
      Offers lang depth p w (c, f) (name (c, f)) :=
    offers (c, f) (List.mem_flatMap.mpr ⟨c, hc, List.mem_map_of_mem hf⟩)
  have entered : Passed lang depth p name w [] (w.record .entered) :=
    .aside .start (.record p.status w _)
  -- Nothing is registered after the feature methods.
  have whole : Bootstrap.Enrols lang depth p name w [] (p.methods ++ [])
      (do
        Bootstrap.processConfigurations lang (lang.user (answer lang depth)) p p.configurations
        if p.settings.preinstantiateSingletons then
          Lookup.preinstantiate (lang.user (answer lang depth)) p.container
        else return ()) (w.record .entered) := by
    refine .bind (Bootstrap.processConfigurations_enrols builtin _ each entered) fun done v h => ?_
    rw [alone]
    exact .nothing rfl h
  obtain ⟨done, rest, o, v, ran, all, leaves, ends⟩ := whole
  rw [List.append_nil] at all
  refine ⟨done, rest, o, v, Run.cleanup_some _ _ _ _ _ ran, all, leaves, ?_, ends⟩
  exact leaves.enrolled.aside rfl (.of_eq rfl rfl)

/-- User code whose bodies make a bean that is to be registered under their own code. -/
def enrolling : Language String Unit where
  run name
    | .body _ _ => do
      let b ← .request (.create (.interface name) name)
      .done (.ok (.register name b none))
    | _ => .fail (.illegalState name)
  describe name := name

/-- The third of its four feature methods has a name that the first one has taken. -/
def enrollingAgain : Processor String :=
  { Processor.make ⟨0⟩ ⟨0⟩ { preinstantiateSingletons := false } with
    configurations := [⟨"first", [], [⟨"f", [], "a"⟩, ⟨"g", [], " b "⟩]⟩, ⟨"second", [], []⟩,
      ⟨"third", [], [⟨"h", [], "a"⟩, ⟨"i", [], "c"⟩]⟩] }

theorem enrolling_offers (p : Processor String) (w : World String Unit)
    (m : Configuration String × Feature String) (parameters : m.2.parameters = []) :
    Offers enrolling 1 p w m m.2.body where
  parameters := parameters
  body v _ := by
    refine ⟨⟨v.beans.size⟩, (v.addBean (.object (.interface m.2.body) m.2.body)).2, ?_⟩
    refine ⟨⟨none, rfl⟩, rfl, .addBean v _, ?_⟩
    rw [World.bean?_addBean, if_pos rfl]
    rfl

theorem process_enrols_again : ∃ done m rest w',
    answer enrolling 2 (.process enrollingAgain) (World.initial ()) =
      some (.error (.featureMethodExecution "third::h()" (.singletonAlreadyRegistered "a")), w') ∧
    enrollingAgain.methods = done.map (·.1) ++ m :: rest ∧
    (Source.mk m.1.name m.2.name).display = "third::h()" ∧ (∃ e ∈ done, e.1.2.body = m.2.body) ∧
    Enrolled enrollingAgain (·.2.body) (World.initial ()) done w' := by
  have offers : ∀ m ∈ enrollingAgain.methods,
      Offers enrolling 1 enrollingAgain (World.initial ()) m m.2.body := by
    intro m hm
    refine enrolling_offers _ _ m ?_
    revert m
    simp [Processor.methods, enrollingAgain]
  obtain ⟨done, rest, o, v, ran, methods, _, enrolled, ends⟩ :=
    process_enrols enrolling 1 enrollingAgain (World.initial ()) (·.2.body) offers rfl rfl
  obtain ⟨w', ran'⟩ : ∃ w', answer enrolling 2 (.process enrollingAgain) (World.initial ()) =
      some (.error (.featureMethodExecution "third::h()" (.singletonAlreadyRegistered "a")), w') :=
    ⟨_, rfl⟩
  have outcome := (Prod.mk.inj (Option.some.inj (ran.symm.trans ran'))).1
  cases ends with
  | complete => cases outcome
  | refused m rest unfit =>
    obtain ⟨blamed, why⟩ := Error.featureMethodExecution.inj (Outcome.error.inj outcome)
    have earlier : ∃ e ∈ done, e.1.2.body = m.2.body := by
      rcases unfit with blank | before | since
      · rw [Specification.refusal, if_pos blank] at why
        cases why
      · cases before
      · exact since
    exact ⟨done, m, rest, v.record .left, ran.trans (by rw [outcome]), methods, blamed, earlier, enrolled⟩

end Wiring
