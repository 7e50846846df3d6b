import Wiring.Proofs.Acceptance

namespace Wiring

variable {C S : Type}

namespace Lookup

/-- The ways in which a look-up by name fails. What it does itself is to set the mark and take it away. -/
inductive Fails (user : UserCode C S) (c : ContainerId) (n : String) (w : World C S) :
    Fault → World C S → Prop where
  | unknown (undefined : (w.container c).definition? n = none) :
      Fails user c n w (.error (.noSuchBeanDefinition n)) w
  | circular (defined : (w.container c).hasDefinition n = true) (marked : n ∈ w.marks) :
      Fails user c n w (.error (.currentlyInCreation n)) w
  | factory (d : Definition C) (fault : Fault) (w₁ : World C S) (name : d.name = n)
      (begins : Begins w c d) (run : user d.factory (.make c) (w.mark n) = some (fault.outcome, w₁)) :
      Fails user c n w fault (w₁.unmark n)
  /-- The factory hands over a bean that does not exist. -/
  | missing (d : Definition C) (b : BeanId) (w₁ : World C S) (name : d.name = n)
      (begins : Begins w c d) (run : user d.factory (.make c) (w.mark n) = some (.ok b, w₁))
      (absent : w₁.bean? b = none) : Fails user c n w (.panic "no such bean") (w₁.unmark n)
  | rejected (d : Definition C) (b : BeanId) (v : Bean C) (w₁ : World C S) (name : d.name = n)
      (begins : Begins w c d) (run : user d.factory (.make c) (w.mark n) = some (.ok b, w₁))
      (made : w₁.bean? b = some v) (unfit : v.type.isAssignableTo d.type = false) :
      Fails user c n w (.error (.beanCreation n
        s!"factory produced a {v.type.name} where a {d.type.name} was declared")) (w₁.unmark n)

theorem fails_of_getBean {user : UserCode C S} {c : ContainerId} {n : String} {w w' : World C S}
    {fault : Fault} (h : getBean user c n w = some (fault.outcome, w')) : Fails user c n w fault w' := by
  obtain ⟨o, ho⟩ : ∃ o : Outcome BeanId, o = fault.outcome := ⟨_, rfl⟩
  rw [← ho] at h
  cases getBean_cases h with
  | registered | adopted => exact absurd ho.symm (fault.ne_ok _)
  | unknown free undefined =>
    obtain rfl := Fault.outcome_inj (f := .error _) ho
    exact .unknown undefined
  | marked d free current uncreated marked =>
    obtain rfl := Fault.outcome_inj (f := .error _) ho
    exact .circular (by simp [Container.hasDefinition, current]) marked
  | ran d made w₁ _ _ name begins run finished =>
    subst name ho
    rcases made.ok_or_fault with ⟨b, rfl⟩ | ⟨inner, rfl⟩
    · cases hb : w₁.bean? b with
      | none =>
        obtain ⟨rfl, rfl⟩ :=
          Fault.ended_inj (f := .panic _) ((finish_missing c d b w₁ hb).symm.trans finished)
        exact .missing d b w₁ rfl begins run hb
      | some v =>
        cases fits : v.type.isAssignableTo d.type with
        | true =>
          obtain ⟨ok, _⟩ := Prod.mk.inj
            (Option.some.inj ((finish_ok c d b v w₁ hb fits).symm.trans finished))
          exact absurd ok.symm (fault.ne_ok _)
        | false =>
          obtain ⟨rfl, rfl⟩ :=
            Fault.ended_inj (f := .error _) ((finish_unfit c d b v w₁ hb fits).symm.trans finished)
          exact .rejected d b v w₁ rfl begins run hb fits
    · obtain ⟨rfl, rfl⟩ := Fault.ended_inj ((finish_fault c d inner w₁).symm.trans finished)
      exact .factory d inner w₁ rfl begins run

end Lookup

/-- A look-up of the name runs the factory of the definition in force, or reports that there is none. -/
def Language.Retries (lang : Language C S) (c : ContainerId) (n : String) (w : World C S) : Prop :=
  ∀ depth, answer lang (depth + 1) (.getBean c n) w =
    match (w.container c).definition? n with
    | none => some (.error (.noSuchBeanDefinition n), w)
    | some d => Lookup.finish c d (lang.user (answer lang depth) d.factory (.make c) (w.mark n))

theorem Container.Orderly.retries {w : World C S} {c : ContainerId} {n : String}
    (orderly : (w.container c).Orderly) (lang : Language C S)
    (free : (w.container c).singleton? n = none) (unmarked : n ∉ w.marks) : lang.Retries c n w := by
  intro depth
  cases hd : (w.container c).definition? n with
  | none => exact Lookup.getBean_unknown _ c n w free hd
  | some d => exact Lookup.getBean_create _ c n d w free hd (orderly.uncreated n d free hd) unmarked

/-- Where a singleton comes from in a single change that concerns no creation. -/
theorem Step.singleton_cases {Ordered : ContainerId → String → BeanId → Prop} {w w' : World C S}
    (h : Step Ordered w w') (orderly : ∀ c, (w.container c).Orderly) {c : ContainerId} {n : String}
    {b : BeanId} (hb : (w'.container c).singleton? n = some b) :
    (w.container c).singleton? n = some b ∨ (w.container c).singleton? n = none ∧ Ordered c n b := by
  cases h with
  | recorded | flagged | newStatus | object | reference => exact .inl hb
  | defined c' r =>
    left
    rw [World.container_define] at hb
    split at hb
    · rename_i e
      rwa [Container.singleton?_define, ← e] at hb
    · exact hb
  | registered c' n' b' ordered present free =>
    rw [World.container_remember, World.container_bind] at hb
    by_cases hc : c = c' <;> by_cases hn : n = n'
    · subst hc hn
      obtain rfl : b' = b := by simpa using hb
      exact .inr ⟨free, ordered⟩
    · exact .inl (by simpa [hc, hn] using hb)
    · exact .inl (by simpa [hc] using hb)
    · exact .inl (by simpa [hc] using hb)
  | adopted c' n' d b' current created free =>
    cases created.symm.trans ((orderly c').uncreated n' d free current)

/-- The end of a creation concerns no name but its own. -/
theorem World.singleton?_complete (w : World C S) (c c' : ContainerId) (d : Definition C) (b : BeanId)
    (n : String) (other : n ≠ d.name) :
    ((w.complete c d b).container c').singleton? n = (w.container c').singleton? n := by
  rw [container_complete]
  by_cases hc : c' = c <;> by_cases taken : (w.container c).hasSingleton d.name = true <;>
    simp [hc, taken, other]

/-- A bean came under its name directly: once it was about to be registered there, the name was free then,
and from the next moment on the name had the bean. -/
def World.Placed (v : World C (Noted C S)) (c : ContainerId) (n : String) (b : BeanId) : Prop :=
  ∃ newer m older, v.past = newer ++ m :: older ∧ m.Orders c n b ∧
    (m.world.container c).singleton? n = none ∧
    ∀ m' ∈ newer, (m'.world.container c).singleton? n = some b

theorem World.Placed.onward {v v' : World C (Noted C S)} {c : ContainerId} {n : String} {b : BeanId}
    (h : v.Placed c n b) (new : List (Moment C S)) (past : v'.past = new ++ v.past)
    (kept : ∀ m ∈ new, (m.world.container c).singleton? n = some b) : v'.Placed c n b := by
  obtain ⟨newer, m, older, split, orders, free, bound⟩ := h
  refine ⟨new ++ newer, m, older, by rw [past, split, List.append_assoc], orders, free, fun m' hm' => ?_⟩
  rcases List.mem_append.mp hm' with hm' | hm'
  · exact kept m' hm'
  · exact bound m' hm'

/-- A part of a run in which beans come under marked names only directly. -/
structure Placing (v v' : World C (Noted C S)) : Prop where
  accepting : ∃ new, Accepting new v v'
  placed : ∀ c n b, n ∈ v.marks → (v.container c).singleton? n = none →
    (v'.container c).singleton? n = some b → v'.Placed c n b

namespace Placing

variable {v v' : World C (Noted C S)}

/-- A part in which nothing is registered. -/
theorem quiet (accepting : ∃ new, Accepting new v v') (same : v'.containers = v.containers) :
    Placing v v' where
  accepting := accepting
  placed c n b _ free bound := by
    have hc : v'.container c = v.container c := by simp only [World.container, same]
    rw [hc, free] at bound
    cases bound

theorem trans {v₁ v₂ v₃ : World C (Noted C S)} (h : Placing v₁ v₂) (k : Placing v₂ v₃) :
    Placing v₁ v₃ := by
  obtain ⟨new₁, first⟩ := h.accepting
  obtain ⟨new₂, second⟩ := k.accepting
  refine ⟨⟨_, first.trans second⟩, fun c n b marked free bound => ?_⟩
  cases between : (v₂.container c).singleton? n with
  | none => exact k.placed c n b (first.marks.symm ▸ marked) between bound
  | some b' =>
    -- What stands under the name in between is still there in the end.
    obtain rfl : b' = b := by
      have kept := second.lasting.later.singletons c n b' between
      exact Option.some.inj (kept.symm.trans bound)
    exact (h.placed c n b' marked free between).onward new₂ second.past fun m hm =>
      (second.moments m hm).later.singletons c n b' between

/-- A creation, from the run of its factory. -/
theorem create {v₁ : World C (Noted C S)} {c : ContainerId} {d : Definition C} {o : Outcome BeanId}
    (begins : Begins v.plain c d) (h : Placing (v.enter c d) v₁) (accepting : ∃ new, Accepting new v v')
    (past : v'.past = (v₁.leave v c d o).past)
    (ended : ∀ c' n b, n ≠ d.name → (v'.container c').singleton? n = some b →
      (v₁.container c').singleton? n = some b) : Placing v v' where
  accepting := accepting
  placed c' n b marked free bound := by
    have other : n ≠ d.name := by
      rintro rfl
      exact begins.unmarked marked
    have inside := ended c' n b other bound
    have placed := h.placed c' n b (List.mem_cons_of_mem _ marked) free inside
    refine placed.onward [_] past fun m hm => ?_
    rw [List.mem_singleton.mp hm]
    exact inside

theorem steady (lang : Language C S) :
    Steady lang fun v v' => (∀ c, (v.container c).Orderly) → Placing (C := C) v v' where
  refl v orderly := quiet ((Accepting.steady lang).refl v orderly) rfl
  trans v₁ v₂ v₃ h k orderly := by
    obtain ⟨_, first⟩ := (h orderly).accepting
    exact (h orderly).trans (k first.orderly)
  step v v' past h orderly := by
    refine ⟨(Accepting.steady lang).step v v' past h orderly, fun c n b _ free bound => ?_⟩
    rcases h.singleton_cases orderly bound with before | ⟨_, m, older, latest, orders, same⟩
    · cases free.symm.trans before
    · refine ⟨[], m, older, past.trans latest, orders, ?_, fun _ hm' => absurd hm' List.not_mem_nil⟩
      simpa only [World.container, same] using free
  pinned v v₁ b r t called hr hres h free found orderly := by
    have accepting := (Accepting.steady lang).pinned v v₁ b r t called hr hres
      (fun orderly => (h orderly).accepting) free found orderly
    exact ⟨accepting, (h orderly).placed⟩
  poked v s orderly := quiet ((Accepting.steady lang).poked v s orderly) rfl
  noted v m holds plainly orderly := quiet ((Accepting.steady lang).noted v m holds plainly orderly) rfl
  created v c d o v₁ o' v' begins h left finished orderly := by
    have accepting := (Accepting.steady lang).created v c d o v₁ o' v' begins
      (fun orderly => (h orderly).accepting) left finished orderly
    cases Lookup.finish_cases finished with
    | accepted b _ _ _ =>
      refine (h orderly).create begins accepting (World.past_complete _ c d b) fun c' n a other bound => ?_
      rwa [World.singleton?_complete _ c c' d b n other] at bound
    | givenUp => exact (h orderly).create begins accepting rfl fun _ _ _ _ bound => bound

end Placing

/-- A look-up that fails, beside its chronicle: it has no more moments than its own two, or the factory of
the definition in force has run, and its bean, if there is one, does not fit. -/
private theorem failed_of_chronicle {lang : Language C S} {depth : Nat} {c : ContainerId} {n : String}
    {v v' : World C (Noted C S)} {fault : Fault} (orderly : ∀ c, (v.container c).Orderly)
    (h : chronicle lang (depth + 1) (.getBean c n) v = some (fault.outcome, v')) :
    let v₀ := v.note (.asked (.getBean c n) v.plain)
    (v.container c).singleton? n = none ∧ ∃ v₁,
      v' = v₁.note (.answered (.getBean c n) v.plain fault.outcome v₁.plain) ∧
      (v₁ = v₀ ∨ ∃ d made v₂, d.name = n ∧ Begins v.plain c d ∧ Placing (v₀.enter c d) v₂ ∧
        (∀ b x, made = .ok b → v₂.bean? b = some x → x.type.isAssignableTo d.type = false) ∧
        v₁ = (v₂.leave v₀ c d made).unmark n) := by
  obtain ⟨v₁, served, rfl⟩ := Run.noting_cases h
  obtain ⟨o, ho⟩ : ∃ o : Outcome BeanId, o = fault.outcome := ⟨_, rfl⟩
  rw [← ho] at served
  cases Lookup.getBean_cases served with
  | registered | adopted => exact absurd ho.symm (fault.ne_ok _)
  | unknown free | marked _ free => exact ⟨free, _, rfl, .inl rfl⟩
  | ran d made v₂ _ _ name begins run finished =>
    subst name
    refine ⟨begins.free, v₁, rfl, .inr ⟨d, made, ?_⟩⟩
    obtain ⟨v₃, rfl, _, placing⟩ := (calls_parallel (Placing.steady lang) depth).ended run
    refine ⟨v₃, rfl, ⟨begins.current, begins.uncreated, begins.free, begins.unmarked⟩, placing orderly, ?_⟩
    cases Lookup.finish_cases finished with
    | accepted => exact absurd ho.symm (fault.ne_ok _)
    | givenUp _ _ unfit => exact ⟨unfit, rfl⟩

/-- What a look-up that fails leaves of the name: what it has by then came under it directly, its definition
is there without a bean, and no creation of the name has been accepted. -/
structure Unmade (c : ContainerId) (n : String) (w : World C S) (v : World C (Noted C S)) : Prop where
  free : (w.container c).singleton? n = none
  placed : ∀ b, (v.container c).singleton? n = some b → v.Placed c n b
  pending : ∀ d, (w.container c).definition? n = some d → d ∈ (v.container c).definitions
  others : ∀ m ∈ v.past, ∀ c' d b, m.Accepts c' d b → d.name ≠ n

theorem unmade_of_chronicle {lang : Language C S} {depth : Nat} {c : ContainerId} {n : String}
    {w : World C S} {v : World C (Noted C S)} {fault : Fault} (orderly : ∀ c, (w.container c).Orderly)
    (h : chronicle lang (depth + 1) (.getBean c n) w.chronicled = some (fault.outcome, v)) :
    Unmade c n w v := by
  let v₀ := w.chronicled.note (.asked (.getBean c n) w)
  obtain ⟨free, v₁, rfl, rfl | ⟨d, made, v₂, rfl, begins, placing, no, rfl⟩⟩ :=
    failed_of_chronicle orderly h
  · refine ⟨free, fun b bound => ?_, fun d hd => Container.mem_of_definition? _ n d hd, fun m hm => ?_⟩
    · cases free.symm.trans bound
    · have plainly : m.ofFactory = false := by
        rcases List.mem_pair.mp hm with rfl | rfl <;> rfl
      exact fun c' d b ha => absurd ha (m.not_accepts_of_plainly plainly c' d b)
  · obtain ⟨new, accepting⟩ := placing.accepting
    have marked : d.name ∈ (v₀.enter c d).marks := List.mem_cons_self
    have past : v₂.past = new ++ (v₀.enter c d).past := accepting.past
    refine ⟨free, fun b bound => ?_, fun d' hd' => ?_, fun m hm c' d' b ha => ?_⟩
    · refine (placing.placed c d.name b marked free bound).onward [_, _] rfl fun m hm => ?_
      rcases List.mem_pair.mp hm with rfl | rfl <;> exact bound
    · obtain rfl : d = d' := Option.some.inj (begins.current.symm.trans hd')
      exact accepting.pending c d (Container.mem_of_definition? _ _ d hd') marked
    · rcases List.mem_cons.mp hm with rfl | hm
      · cases ha
      rcases List.mem_cons.mp hm with rfl | hm
      · -- The factory of the definition itself is left, with nothing that fits.
        obtain ⟨_, _, ok, x, bean, fits⟩ := Accepting.accepted_of_left begins ha
        rw [no b x ok bean] at fits
        cases fits
      have inside : m ∈ new ++ (v₀.enter c d).past := by
        rw [← past]
        exact hm
      rcases List.mem_append.mp inside with hm | hm
      · intro name
        exact (accepting.accepted m hm c' d' b ha).1 (name ▸ marked)
      · rcases List.mem_pair.mp hm with rfl | rfl <;> cases ha

/-- A look-up by name that fails, in whatever way, leaves the name as it was: itself it only sets the mark and
takes it away, and a bean that stands under the name by then was registered directly by code that it ran.
The definition that it tried stays on record without a bean. Whatever was registered at a moment on the way
stays so, and so do the beans of the creations accepted on the way, none of them of the name. From then on,
whatever runs, a look-up in a world where the name is free and not in creation runs the factory of the
definition in force there, or reports that there is none. -/
theorem failure_retryable (lang : Language C S) (depth : Nat) (w : World C S) (reachable : Reachable w)
    (c : ContainerId) (n : String) (fault : Fault) (w' : World C S) (moments : List (Moment C S))
    (run : (Program.request (.getBean c n)).history lang (depth + 1) w =
      some (fault.outcome, w', moments)) :
    Lookup.Fails (lang.user (answer lang depth)) c n w fault w' ∧ w'.marks = w.marks ∧
    (∀ b, (w'.container c).singleton? n = some b → ∃ past m future, moments = past ++ m :: future ∧
      m.Orders c n b ∧ (m.world.container c).singleton? n = none ∧
      ∀ m' ∈ future, (m'.world.container c).singleton? n = some b) ∧
    (∀ d, (w.container c).definition? n = some d →
      d.created = none ∧ d ∈ (w'.container c).definitions) ∧
    (∀ m ∈ moments, (∀ c' n' b, (m.world.container c').singleton? n' = some b →
        (w'.container c').singleton? n' = some b) ∧
      ∀ c' d b, m.Accepts c' d b → d.name ≠ n ∧ Stored c' d b w') ∧
    ∀ (lang' : Language C S) (depth' : Nat) (α : Type) (p : Program C S α) (o : Outcome α)
      (final : World C S) (further : List (Moment C S)),
      p.history lang' depth' w' = some (o, final, further) →
      ∀ u ∈ w' :: further.map Moment.world ++ [final], (u.container c).singleton? n = none →
        n ∉ u.marks → lang'.Retries c n u := by
  have orderly := reachable.orderly
  obtain ⟨v, chronicled, rfl, rfl⟩ := chronicle_of_history run
  have fails := Lookup.fails_of_getBean (history_of_chronicle chronicled).1
  have unmade := unmade_of_chronicle orderly chronicled
  obtain ⟨new, accepting⟩ := steady_of_chronicle (Accepting.steady lang) chronicled orderly
  have past : v.past = new := accepting.past.trans (List.append_nil _)
  refine ⟨fails, accepting.marks, fun b bound => ?_, fun d hd => ?_, fun m hm =>
    ⟨(history_later_moment run hm).singletons, fun c' d b ha => ?_⟩, ?_⟩
  · obtain ⟨newer, m, older, split, orders, free, since⟩ := unmade.placed b bound
    refine ⟨older.reverse, m, newer.reverse, by simp [split], orders, free, fun m' hm' => ?_⟩
    exact since m' (List.mem_reverse.mp hm')
  · exact ⟨(orderly c).uncreated n d unmade.free hd, unmade.pending d hd⟩
  · have mem := List.mem_reverse.mp hm
    exact ⟨unmade.others m mem c' d b ha, (accepting.accepted m (past ▸ mem) c' d b ha).2.2⟩
  · intro lang' _ _ _ _ _ _ onward u hu free unmarked
    exact (history_orderly (w := v.plain) accepting.orderly onward u hu c).retries lang' free unmarked

/-- User code whose factory makes a bean of another type when it runs first, and of the right one then. -/
def recovering (name other : String) : Language Unit Bool where
  run _
    | .make _ => do
      let again ← .read
      .modify fun _ => true
      .request (.create (.interface (if again then name else other)) ())
    | _ => .fail (.illegalState name)
  describe _ := name

theorem failure_retryable_recovering : ∃ w e w' moments w'', Reachable w ∧
    (Program.request (.getBean ⟨0⟩ "a")).history (recovering "a" "b") 2 w = some (.error e, w', moments) ∧
    w'.marks = [] ∧ (recovering "a" "b").Retries ⟨0⟩ "a" w' ∧
    answer (recovering "a" "b") 2 (.getBean ⟨0⟩ "a") w' = some (.ok ⟨1⟩, w'') := by
  let lang := recovering "a" "b"
  let r : Recipe Unit := { name := "a", type := .interface "a", factory := () }
  let w : World Unit Bool := (World.initial false).define ⟨0⟩ r
  have defined : (Program.request (.define ⟨0⟩ r)).interpret (answer lang 1) (.initial false) =
      some (.ok (), w) := rfl
  have reachable : Reachable w := .of_interpret defined
  have run : ∃ e w' moments, (Program.request (.getBean ⟨0⟩ "a")).history lang 2 w =
        some (.error e, w', moments) ∧
      answer lang 2 (.getBean ⟨0⟩ "a") w = some (.error e, w') ∧
      (w'.container ⟨0⟩).singleton? "a" = none := ⟨_, _, _, rfl, rfl, rfl⟩
  have twice : ∃ w'', ((answer lang 2 (.getBean ⟨0⟩ "a") w).map (·.2)).bind
      (answer lang 2 (.getBean ⟨0⟩ "a")) = some (.ok ⟨1⟩, w'') := ⟨_, rfl⟩
  obtain ⟨e, w', moments, run, first, free⟩ := run
  obtain ⟨w'', second⟩ := twice
  rw [first] at second
  obtain ⟨_, marks, _, _, _, onward⟩ :=
    failure_retryable lang 1 w reachable ⟨0⟩ "a" (.error e) w' moments run
  have unmarked : "a" ∉ w'.marks := marks ▸ List.not_mem_nil
  have retries := onward lang 0 Unit (.done (.ok ())) (.ok ()) w' [] rfl w' List.mem_cons_self free unmarked
  exact ⟨w, e, w', moments, w'', reachable, run, marks, retries, second⟩

end Wiring
