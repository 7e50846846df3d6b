import Wiring.Proofs.Producers

namespace Wiring

variable {C S : Type}

/-- What the definition of these producer methods leaves: in front of the definitions that were there, those
in force under the names of producer methods, which are those of the last ones. All else in all containers
and the rest of the world but the trace is as it was. -/
structure Defines (c : ContainerId) (ps : List (Producer C)) (w w' : World C S) : Prop where
  fresh : ∃ new, (w'.container c).definitions = new ++ (w.container c).definitions ∧
    (∀ d ∈ new, d.created = none) ∧ ∀ n, match (ps.filter (·.name == n)).getLast? with
      | some p => ∃ d ∈ new, (w'.container c).definition? n = some d ∧ d.toRecipe = p.recipe
      | none => (w'.container c).definition? n = (w.container c).definition? n
  singletons : ∀ c', (w'.container c').singletons = (w.container c').singletons
  elsewhere : ∀ c', c' ≠ c → w'.container c' = w.container c'
  beans : w'.beans = w.beans
  statuses : w'.statuses = w.statuses
  marks : w'.marks = w.marks
  user : w'.user = w.user

/-- The configurations that are accepted where these names are taken. -/
def acceptedAfter (taken : List String) : List (Configuration C) → List (Configuration C)
  | [] => []
  | c :: rest =>
    if c.name ∈ taken then acceptedAfter taken rest
    else c :: acceptedAfter (taken ++ [c.name]) rest

/-- The first ones of the names that are not taken, in their order. -/
structure Accepts (taken : List String) (cs accepted : List (Configuration C)) : Prop where
  ordered : accepted.Sublist cs
  distinct : (accepted.map (·.name)).Nodup
  new : ∀ c ∈ accepted, c.name ∉ taken
  first : ∀ n, n ∉ taken → accepted.find? (·.name == n) = cs.find? (·.name == n)

/-- Calls to register configurations, each made however the one before ended; one that fails leaves the
processor to the next one as it was. -/
def registerEach (lang : Language C S) (depth : Nat) :
    List (Configuration C) → Processor C → Run C S (Processor C)
  | [], p => return p
  | c :: rest, p => (answer lang (depth + 1) (.registerConfiguration p c)).followedBy fun o =>
    registerEach lang depth rest (o.result?.getD p)

def Processor.with (p : Processor C) (cs : List (Configuration C)) : Processor C :=
  { p with configurations := p.configurations ++ cs }

/-- Those of these configurations that the processor accepts. -/
def Processor.accepted (p : Processor C) (cs : List (Configuration C)) : List (Configuration C) :=
  acceptedAfter (p.configurations.map (·.name)) cs

namespace Defines

variable {c : ContainerId} {ps qs : List (Producer C)} {w v u : World C S}

theorem nothing (c : ContainerId) (w : World C S) : Defines c [] w w where
  fresh := ⟨[], rfl, nofun, fun _ => rfl⟩
  singletons _ := rfl
  elsewhere _ _ := rfl
  beans := rfl
  statuses := rfl
  marks := rfl
  user := rfl

theorem recorded (h : Defines c ps w v) (e : Event) : Defines c ps w (v.record e) :=
  ⟨h.fresh, h.singletons, h.elsewhere, h.beans, h.statuses, h.marks, h.user⟩

theorem one (c : ContainerId) (p : Producer C) (w : World C S) :
    Defines c [p] w (w.define c p.recipe) where
  fresh := by
    have own : (w.define c p.recipe).container c = (w.container c).define p.recipe := by
      rw [World.container_define, if_pos rfl]
    rw [own]
    refine ⟨[p.recipe.definition (w.container c).definitions.length], by simp, by
      simp [Recipe.definition], fun n => ?_⟩
    rw [Container.definition?_define, List.filter_cons, List.filter_nil]
    by_cases name : p.name = n
    · simp [name, Producer.recipe, Recipe.definition]
    · simp [name, Producer.recipe]
  singletons c' := by
    rw [World.container_define]
    split
    · rename_i same
      rw [Container.define, Container.remember, same]
      split <;> rfl
    · rfl
  elsewhere c' other := by rw [World.container_define, if_neg other]
  beans := by unfold World.define; split <;> rfl
  statuses := by unfold World.define; split <;> rfl
  marks := by unfold World.define; split <;> rfl
  user := by unfold World.define; split <;> rfl

/-- Of two producer methods of one name, that of the later ones is the one that counts. -/
theorem trans (h : Defines c ps w v) (k : Defines c qs v u) : Defines c (ps ++ qs) w u where
  fresh := by
    obtain ⟨new, added, uncreated, current⟩ := h.fresh
    obtain ⟨new', added', uncreated', current'⟩ := k.fresh
    refine ⟨new' ++ new, ?_, ?_, fun n => ?_⟩
    · rw [added', added, List.append_assoc]
    · intro d hd
      exact (List.mem_append.mp hd).elim (uncreated' d) (uncreated d)
    · have before := current n
      have after := current' n
      rw [List.filter_append, List.getLast?_append]
      cases later : (qs.filter (·.name == n)).getLast? with
      | some q =>
        rw [later] at after
        obtain ⟨d, hd, found, recipe⟩ := after
        exact ⟨d, List.mem_append_left _ hd, found, recipe⟩
      | none =>
        rw [later] at after
        cases earlier : (ps.filter (·.name == n)).getLast? with
        | some p =>
          rw [earlier] at before
          obtain ⟨d, hd, found, recipe⟩ := before
          exact ⟨d, List.mem_append_right _ hd, after.trans found, recipe⟩
        | none =>
          rw [earlier] at before
          exact after.trans before
  singletons c' := (k.singletons c').trans (h.singletons c')
  elsewhere c' other := (k.elsewhere c' other).trans (h.elsewhere c' other)
  beans := k.beans.trans h.beans
  statuses := k.statuses.trans h.statuses
  marks := k.marks.trans h.marks
  user := k.user.trans h.user

theorem all (c : ContainerId) (ps : List (Producer C)) (w : World C S) :
    Defines c ps w (Bootstrap.defineAll c ps w) := by
  induction ps generalizing w with
  | nil => exact .nothing c w
  | cons p ps ih => exact (Defines.one c p w).trans (ih (w.define c p.recipe))

end Defines

theorem acceptedAfter_accepts (taken : List String) (cs : List (Configuration C)) :
    Accepts taken cs (acceptedAfter taken cs) := by
  induction cs generalizing taken with
  | nil => exact ⟨.slnil, .nil, nofun, fun _ _ => rfl⟩
  | cons c rest ih =>
    by_cases refused : c.name ∈ taken
    · have same : acceptedAfter taken (c :: rest) = acceptedAfter taken rest := if_pos refused
      rw [same]
      refine ⟨(ih taken).ordered.cons c, (ih taken).distinct, (ih taken).new, fun n free => ?_⟩
      have other : c.name ≠ n := fun e => free (e ▸ refused)
      rw [(ih taken).first n free, List.find?_cons, beq_false_of_ne other]
    · have kept : acceptedAfter taken (c :: rest) = c :: acceptedAfter (taken ++ [c.name]) rest :=
        if_neg refused
      have more := ih (taken ++ [c.name])
      have apart (c' : Configuration C) (h : c' ∈ acceptedAfter (taken ++ [c.name]) rest) :
          c'.name ∉ taken ∧ c'.name ≠ c.name := by
        simpa using more.new c' h
      rw [kept]
      refine ⟨more.ordered.cons_cons c, ?_, ?_, fun n free => ?_⟩
      · refine List.nodup_cons.mpr ⟨fun h => ?_, more.distinct⟩
        obtain ⟨c', hc, name⟩ := List.mem_map.mp h
        exact (apart c' hc).2 name
      · exact List.forall_mem_cons.mpr ⟨refused, fun c' hc => (apart c' hc).1⟩
      · rw [List.find?_cons, List.find?_cons]
        by_cases name : c.name = n
        · simp [name]
        · have free' : n ∉ taken ++ [c.name] := by simpa using ⟨free, Ne.symm name⟩
          rw [beq_false_of_ne name, more.first n free']

namespace Bootstrap

variable (lang : Language C S) (depth : Nat) (p : Processor C) (c : Configuration C) (w : World C S)

theorem configuration?_isSome_iff (n : String) :
    (p.configuration? n).isSome = true ↔ n ∈ p.configurations.map (·.name) := by
  simp [Processor.configuration?, List.find?_isSome]

theorem registerConfiguration_taken (taken : c.name ∈ p.configurations.map (·.name)) :
    answer lang (depth + 1) (.registerConfiguration p c) w =
      some (.error (.illegalState s!"a configuration named '{c.name}' is already registered"), w) := by
  have known := (configuration?_isSome_iff p c.name).mpr taken
  simp only [answer, serve, registerConfiguration, known, if_true, Run.fail_apply]

theorem registerConfiguration_free (free : c.name ∉ p.configurations.map (·.name)) :
    answer lang (depth + 1) (.registerConfiguration p c) w = some (.ok (p.with [c]),
      (defineAll p.container c.producers w).record
        (.registeredConfiguration c.name c.producers.length c.features.length)) := by
  have unknown : ¬(p.configuration? c.name).isSome = true :=
    fun h => free ((configuration?_isSome_iff p c.name).mp h)
  simp only [answer, serve, registerConfiguration, if_neg unknown]
  rfl

end Bootstrap

theorem registerEach_cons (lang : Language C S) (depth : Nat) {p : Processor C} {c : Configuration C}
    {rest : List (Configuration C)} {w w' : World C S} {o : Outcome (Processor C)}
    (called : answer lang (depth + 1) (.registerConfiguration p c) w = some (o, w')) :
    registerEach lang depth (c :: rest) p w = registerEach lang depth rest (o.result?.getD p) w' :=
  Run.followedBy_some _ _ _ _ _ called

theorem registerEach_defines (cs : List (Configuration C)) (p : Processor C) (w : World C S) :
    ∃ w', (∀ (lang : Language C S) (depth : Nat),
        registerEach lang depth cs p w = some (.ok (p.with (p.accepted cs)), w')) ∧
      Defines p.container ((p.accepted cs).flatMap (·.producers)) w w' := by
  induction cs generalizing p w with
  | nil =>
    have same : p.with [] = p := by simp [Processor.with]
    exact ⟨w, fun _ _ => by rw [Processor.accepted, acceptedAfter, same]; rfl,
      .nothing p.container w⟩
  | cons c rest ih =>
    by_cases taken : c.name ∈ p.configurations.map (·.name)
    · obtain ⟨w', ran, defines⟩ := ih p w
      rw [Processor.accepted, acceptedAfter, if_pos taken]
      refine ⟨w', fun lang depth => ?_, defines⟩
      exact (registerEach_cons lang depth
        (Bootstrap.registerConfiguration_taken lang depth p c w taken)).trans (ran lang depth)
    · have names : (p.with [c]).configurations.map (·.name) =
          p.configurations.map (·.name) ++ [c.name] := by simp [Processor.with]
      have both (more : List (Configuration C)) : (p.with [c]).with more = p.with (c :: more) := by
        simp [Processor.with]
      obtain ⟨w', ran, defines⟩ := ih (p.with [c])
        ((Bootstrap.defineAll p.container c.producers w).record
          (.registeredConfiguration c.name c.producers.length c.features.length))
      rw [Processor.accepted, names, both] at ran
      rw [Processor.accepted, names] at defines
      rw [Processor.accepted, acceptedAfter, if_neg taken]
      refine ⟨w', fun lang depth => ?_, ?_⟩
      · exact (registerEach_cons lang depth
          (Bootstrap.registerConfiguration_free lang depth p c w taken)).trans (ran lang depth)
      · exact ((Defines.all p.container c.producers w).recorded _).trans defines

/-- A configuration whose name is taken is refused, and nothing has changed. Any other one is accepted, and
its producer methods are defined. So of configurations that are registered one after the other, the first
ones of each name are kept in their order, and what is defined under a name comes from the last producer
method of that name among these. User code has no part in it. -/
theorem configurations_first_wins (p : Processor C) (w : World C S) :
    (∀ c : Configuration C, c.name ∈ p.configurations.map (·.name) →
      ∀ (lang : Language C S) (depth : Nat), answer lang (depth + 1) (.registerConfiguration p c) w =
        some (.error (.illegalState s!"a configuration named '{c.name}' is already registered"), w)) ∧
    (∀ c : Configuration C, c.name ∉ p.configurations.map (·.name) →
      ∃ w', (∀ (lang : Language C S) (depth : Nat),
          answer lang (depth + 1) (.registerConfiguration p c) w = some (.ok (p.with [c]), w')) ∧
        Defines p.container c.producers w w') ∧
    ∀ cs : List (Configuration C),
      Accepts (p.configurations.map (·.name)) cs (p.accepted cs) ∧
      ∃ w', (∀ (lang : Language C S) (depth : Nat),
          registerEach lang depth cs p w = some (.ok (p.with (p.accepted cs)), w')) ∧
        Defines p.container ((p.accepted cs).flatMap (·.producers)) w w' := by
  refine ⟨fun c taken lang depth => Bootstrap.registerConfiguration_taken lang depth p c w taken,
    fun c free => ?_, fun cs => ⟨acceptedAfter_accepts _ cs, registerEach_defines cs p w⟩⟩
  exact ⟨_, fun lang depth => Bootstrap.registerConfiguration_free lang depth p c w free,
    (Defines.all p.container c.producers w).recorded _⟩

/-- The second one is refused, since its name is that of the first one; the third one defines anew what the
first one has defined. -/
def registeringTwice : List (Configuration Unit) :=
  [declaringAgain, declaringOtherwise, ⟨"other", [⟨"b", .interface "app::K", true, ()⟩], []⟩]

theorem configurations_first_wins_twice : ∃ p' w' d,
    (∀ (lang : Language Unit Unit) (depth : Nat),
      registerEach lang depth registeringTwice (.make ⟨0⟩ ⟨0⟩ {}) (World.initial ()) =
        some (.ok p', w')) ∧
    p'.configurations.map (·.name) = ["configuration", "other"] ∧
    (w'.container ⟨0⟩).definition? "b" = some d ∧ d.type.name = "app::K" ∧ d.lazy = true ∧
    (∀ (lang : Language Unit Unit) (depth : Nat),
      answer lang (depth + 1) (.registerConfiguration p' declaringOtherwise) w' = some (.error
        (.illegalState "a configuration named 'configuration' is already registered"), w')) ∧
    ∃ v, Defines ⟨0⟩ declaringOtherwise.producers (World.initial () : World Unit Unit) v := by
  let p : Processor Unit := .make ⟨0⟩ ⟨0⟩ {}
  obtain ⟨_, single, several⟩ := configurations_first_wins p (World.initial ())
  obtain ⟨_, w', ran, defines⟩ := several registeringTwice
  obtain ⟨v, _, alone⟩ := single declaringOtherwise List.not_mem_nil
  obtain ⟨new, _, _, current⟩ := defines.fresh
  obtain ⟨d, _, found, recipe⟩ := current "b"
  refine ⟨_, w', d, ran, rfl, found, ?_, ?_, fun lang depth => ?_, v, alone⟩
  · exact congrArg (·.type.name) recipe
  · exact congrArg (·.lazy) recipe
  · exact (configurations_first_wins _ w').1 declaringOtherwise List.mem_cons_self lang depth

end Wiring
