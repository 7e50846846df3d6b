import Wiring.Proofs.Marks

namespace Wiring

variable {C S α : Type}

namespace Moment

/-- The factory of a definition, entered for the sake of its name, is left with a bean of a type that
fits. -/
inductive Accepts (c : ContainerId) (d : Definition C) (b : BeanId) : Moment C S → Prop where
  | intro (before after : World C S) (x : Bean C)
      (current : (before.container c).definition? d.name = some d)
      (marked : before.marks.head? = some d.name) (made : after.bean? b = some x)
      (fits : x.type.isAssignableTo d.type = true) :
      Accepts c d b (.left d.factory (.make c) before (.ok b) after)

theorem not_accepts_of_plainly {m : Moment C S} (h : m.ofFactory = false) (c : ContainerId)
    (d : Definition C) (b : BeanId) : ¬m.Accepts c d b := by
  rintro ⟨before, after, x⟩
  cases h

end Moment

/-- Nothing is lost, and a definition that has its bean stays as it is. -/
structure Lasting (w w' : World C S) : Prop where
  later : Later w w'
  created : ∀ c, ∀ d ∈ (w.container c).definitions, d.created.isSome →
    d ∈ (w'.container c).definitions

theorem Lasting.of_eq {w w' : World C S} (hc : w'.containers = w.containers)
    (hb : w'.beans = w.beans) : Lasting w w' where
  later := .of_eq hc hb
  created c d hd _ := by simpa [World.container, hc] using hd

theorem Lasting.trans {w₁ w₂ w₃ : World C S} (h : Lasting w₁ w₂) (k : Lasting w₂ w₃) :
    Lasting w₁ w₃ where
  later := h.later.trans k.later
  created c d hd made := k.created c d (h.created c d hd made) made

/-- The name of a definition is registered, and the definition, overridden or not, has the bean. -/
structure Stored (c : ContainerId) (d : Definition C) (b : BeanId) (w : World C S) : Prop where
  registered : (w.container c).hasSingleton d.name = true
  created : { d with created := some b } ∈ (w.container c).definitions

theorem Stored.lasting {c : ContainerId} {d : Definition C} {b : BeanId} {w w' : World C S}
    (h : Stored c d b w) (hl : Lasting w w') : Stored c d b w' where
  registered := by
    obtain ⟨a, ha⟩ := (Container.hasSingleton_iff _ _).mp h.registered
    exact (Container.hasSingleton_iff _ _).mpr ⟨a, hl.later.singletons c d.name a ha⟩
  created := hl.created c _ h.created rfl

namespace World

theorem definitions_complete (w : World C S) (c : ContainerId) (d : Definition C) (b : BeanId) :
    ((w.complete c d b).container c).definitions =
      ((w.container c).accept d.serial b).definitions := by
  rw [container_complete, if_pos rfl]
  split
  · rfl
  · exact Container.definitions_bind _ _ _

/-- The end of a creation changes no definition but its own. -/
theorem mem_definitions_complete (w : World C S) (c c' : ContainerId) (d e : Definition C) (b : BeanId)
    (mem : e ∈ (w.container c').definitions) (other : c' = c → e.serial ≠ d.serial) :
    e ∈ ((w.complete c d b).container c').definitions := by
  by_cases hc : c' = c
  · subst hc
    rw [definitions_complete]
    exact List.mem_map.mpr ⟨e, mem, if_neg (other rfl)⟩
  · rwa [container_complete, if_neg hc]

theorem stored_complete (w : World C S) (c : ContainerId) (d : Definition C) (b : BeanId)
    (mem : d ∈ (w.container c).definitions) : Stored c d b (w.complete c d b) where
  registered := by
    rw [container_complete, if_pos rfl]
    split
    · rename_i taken
      simpa [Container.hasSingleton] using taken
    · simp [Container.hasSingleton]
  created := by
    rw [definitions_complete]
    exact List.mem_map.mpr ⟨d, mem, if_pos rfl⟩

end World

theorem Step.definitions {Ordered : ContainerId → String → BeanId → Prop} {w w' : World C S}
    (h : Step Ordered w w') (c : ContainerId) (d : Definition C)
    (hd : d ∈ (w.container c).definitions) : d ∈ (w'.container c).definitions := by
  cases h with
  | recorded | flagged | newStatus | object | reference => exact hd
  | defined c' r =>
    rw [World.container_define]
    split
    · rename_i e
      rw [Container.definitions_define, ← e]
      exact List.mem_cons_of_mem _ hd
    · exact hd
  | registered c' n b | adopted c' n _ b =>
    by_cases hc : c = c'
    · subst hc
      simpa using hd
    · simpa [hc] using hd

theorem Step.lasting {Ordered : ContainerId → String → BeanId → Prop} {w w' : World C S}
    (h : Step Ordered w w') : Lasting w w' :=
  ⟨h.later, fun c d hd _ => h.definitions c d hd⟩

/-- A part of a run, by its moments, of which the latest is the first: names for which a bean was accepted
in it were free and unmarked before it, and from then on the bean is stored and no other accepted. The
definitions of marked names stay as they are. -/
structure Accepting (new : List (Moment C S)) (v v' : World C (Noted C S)) : Prop where
  past : v'.past = new ++ v.past
  marks : v'.marks = v.marks
  orderly : ∀ c, (v'.container c).Orderly
  lasting : Lasting v.plain v'.plain
  pending : ∀ c, ∀ d ∈ (v.container c).definitions, d.name ∈ v.marks →
    d ∈ (v'.container c).definitions
  moments : ∀ m ∈ new, Lasting v.plain m.world
  accepted : ∀ m ∈ new, ∀ c d b, m.Accepts c d b →
    d.name ∉ v.marks ∧ (v.container c).singleton? d.name = none ∧ Stored c d b v'.plain
  once : new.Pairwise fun m' m => ∀ c d b, m.Accepts c d b →
    Stored c d b m'.world ∧ ∀ d' b', d'.name = d.name → ¬m'.Accepts c d' b'

/-- A name that is free was so before. -/
theorem Later.free {w w' : World C S} (h : Later w w') (c : ContainerId) (n : String)
    (free : (w'.container c).singleton? n = none) : (w.container c).singleton? n = none := by
  cases hs : (w.container c).singleton? n with
  | none => rfl
  | some b =>
    have kept := h.singletons c n b hs
    rw [free] at kept
    cases kept

namespace Accepting

variable {v v' : World C (Noted C S)}

/-- A part without moments. -/
theorem silent (past : v'.past = v.past) (marks : v'.marks = v.marks)
    (orderly : ∀ c, (v'.container c).Orderly) (lasting : Lasting v.plain v'.plain)
    (pending : ∀ c, ∀ d ∈ (v.container c).definitions, d ∈ (v'.container c).definitions) :
    Accepting [] v v' where
  past := past
  marks := marks
  orderly := orderly
  lasting := lasting
  pending c d hd _ := pending c d hd
  moments _ h := absurd h List.not_mem_nil
  accepted _ h := absurd h List.not_mem_nil
  once := .nil

theorem trans {v₁ v₂ v₃ : World C (Noted C S)} {new₁ new₂ : List (Moment C S)}
    (h : Accepting new₁ v₁ v₂) (k : Accepting new₂ v₂ v₃) : Accepting (new₂ ++ new₁) v₁ v₃ where
  past := by rw [k.past, h.past, List.append_assoc]
  marks := k.marks.trans h.marks
  orderly := k.orderly
  lasting := h.lasting.trans k.lasting
  pending c d hd hm := k.pending c d (h.pending c d hd hm) (h.marks.symm ▸ hm)
  moments m hm := by
    rcases List.mem_append.mp hm with hm | hm
    · exact h.lasting.trans (k.moments m hm)
    · exact h.moments m hm
  accepted m hm c d b ha := by
    rcases List.mem_append.mp hm with hm | hm
    · obtain ⟨unmarked, free, stored⟩ := k.accepted m hm c d b ha
      exact ⟨h.marks ▸ unmarked, h.lasting.later.free c d.name free, stored⟩
    · obtain ⟨unmarked, free, stored⟩ := h.accepted m hm c d b ha
      exact ⟨unmarked, free, stored.lasting k.lasting⟩
  once := by
    refine List.pairwise_append.mpr ⟨k.once, h.once, fun m' hm' m hm c d b ha => ?_⟩
    -- Between the two parts the name is registered, which it must not be for a second acceptance.
    have stored := (h.accepted m hm c d b ha).2.2
    refine ⟨stored.lasting (k.moments m' hm'), fun d' b' name ha' => ?_⟩
    have free := (k.accepted m' hm' c d' b' ha').2.1
    have registered := stored.registered
    simp only [Container.hasSingleton, World.plain_container, ← name, free] at registered
    cases registered

theorem note {lang : Language C S} (v : World C (Noted C S)) (m : Moment C S)
    (orderly : ∀ c, (v.container c).Orderly) (holds : m.Holds lang v.plain)
    (plainly : m.ofFactory = false) : Accepting [m] v (v.note m) where
  past := rfl
  marks := rfl
  orderly := orderly
  lasting := .of_eq rfl rfl
  pending _ _ hd _ := hd
  moments m' hm' := by
    rw [List.mem_singleton.mp hm', holds.world]
    exact .of_eq rfl rfl
  accepted m' hm' c d b ha := by
    rw [List.mem_singleton.mp hm'] at ha
    exact absurd ha (Moment.not_accepts_of_plainly plainly c d b)
  once := List.pairwise_singleton _ m

/-- What is accepted when the factory of a definition is left. -/
theorem accepted_of_left {c c' : ContainerId} {d d' : Definition C} {b : BeanId}
    {o : Outcome BeanId} {after : World C S} (begins : Begins v.plain c d)
    (h : Moment.Accepts c' d' b (.left d.factory (.make c) (v.mark d.name).plain o after)) :
    c' = c ∧ d' = d ∧ o = .ok b ∧
      ∃ x, after.bean? b = some x ∧ x.type.isAssignableTo d.type = true := by
  obtain ⟨code, hcode⟩ : ∃ code, d.factory = code := ⟨_, rfl⟩
  rw [hcode] at h
  cases h with
  | intro _ _ x current marked made fits =>
    have name : d.name = d'.name := Option.some.inj marked
    have same : some d' = some d := by
      rw [← current, ← name]
      exact begins.current
    cases same
    exact ⟨rfl, rfl, rfl, x, made, fits⟩

private theorem entering (v : World C (Noted C S)) (c : ContainerId) (d : Definition C) :
    Lasting v.plain (v.enter c d).plain := .of_eq rfl rfl

/-- A creation, from the run of its factory, to an end at which it is not accepted or the bean is
stored. -/
theorem create {v₁ : World C (Noted C S)} {new : List (Moment C S)} {c : ContainerId}
    {d : Definition C} {o : Outcome BeanId} (begins : Begins v.plain c d)
    (h : Accepting new (v.enter c d) v₁) (past : v'.past = (v₁.leave v c d o).past)
    (marks : v'.marks = v₁.marks.erase d.name) (orderly : ∀ c, (v'.container c).Orderly)
    (lasting : Lasting v₁.plain v'.plain)
    (pending : ∀ c, ∀ e ∈ (v₁.container c).definitions, e.name ∈ v.marks →
      e ∈ (v'.container c).definitions)
    (ended : ∀ b x, o = .ok b → v₁.bean? b = some x → x.type.isAssignableTo d.type = true →
      Stored c d b v'.plain) :
    Accepting (.left d.factory (.make c) (v.mark d.name).plain o v₁.plain ::
      (new ++ [.entered d.factory (.make c) (v.mark d.name).plain])) v v' where
  past := by
    rw [past, List.cons_append, List.append_assoc]
    exact congrArg (_ :: ·) h.past
  marks := by
    rw [marks, h.marks]
    exact List.erase_cons_head d.name v.marks
  orderly := orderly
  lasting := (entering v c d).trans (h.lasting.trans lasting)
  pending c' e he hm := pending c' e (h.pending c' e he (List.mem_cons_of_mem _ hm)) hm
  moments m hm := by
    rcases List.mem_cons.mp hm with rfl | hm
    · exact (entering v c d).trans h.lasting
    rcases List.mem_append.mp hm with hm | hm
    · exact (entering v c d).trans (h.moments m hm)
    · rw [List.mem_singleton.mp hm]
      exact .of_eq rfl rfl
  accepted m hm c' d' b ha := by
    rcases List.mem_cons.mp hm with rfl | hm
    · obtain ⟨rfl, rfl, ok, x, made, fits⟩ := accepted_of_left begins ha
      exact ⟨begins.unmarked, begins.free, ended b x ok made fits⟩
    rcases List.mem_append.mp hm with hm | hm
    · obtain ⟨unmarked, free, stored⟩ := h.accepted m hm c' d' b ha
      exact ⟨fun mem => unmarked (List.mem_cons_of_mem _ mem), free, stored.lasting lasting⟩
    · rw [List.mem_singleton.mp hm] at ha
      cases ha
  once := by
    refine List.pairwise_cons.mpr ⟨fun m hm c' d' b ha => ?_, List.pairwise_append.mpr
      ⟨h.once, List.pairwise_singleton _ _, fun m' _ m hm c' d' b ha => ?_⟩⟩
    · rcases List.mem_append.mp hm with hm | hm
      · obtain ⟨unmarked, _, stored⟩ := h.accepted m hm c' d' b ha
        refine ⟨stored, fun d'' b' name ha' => ?_⟩
        -- While the factory ran, the mark of its own name was set.
        obtain ⟨_, rfl, _⟩ := accepted_of_left begins ha'
        exact unmarked (name ▸ List.mem_cons_self)
      · rw [List.mem_singleton.mp hm] at ha
        cases ha
    · rw [List.mem_singleton.mp hm] at ha
      cases ha

/-- A creation whose bean is accepted. -/
theorem complete {v₁ : World C (Noted C S)} {new : List (Moment C S)} {c : ContainerId}
    {d : Definition C} {b : BeanId} {x : Bean C} (begins : Begins v.plain c d)
    (h : Accepting new (v.enter c d) v₁) (made : v₁.bean? b = some x)
    (fits : x.type.isAssignableTo d.type = true) :
    Accepting (.left d.factory (.make c) (v.mark d.name).plain (.ok b) v₁.plain ::
      (new ++ [.entered d.factory (.make c) (v.mark d.name).plain])) v
      ((v₁.leave v c d (.ok b)).complete c d b) := by
  have current : d ∈ (v.container c).definitions := Container.mem_of_definition? _ _ d begins.current
  -- The definition is still the one that the creation began with, since its name was marked.
  have same : d ∈ (v₁.container c).definitions := h.pending c d current List.mem_cons_self
  have only (e : Definition C) (he : e ∈ (v₁.container c).definitions) (serial : e.serial = d.serial) :
      e = d := (h.orderly c).unique e d he same serial
  have change : Change (fun _ _ => False) v₁.plain (v₁.plain.complete c d b) :=
    .completed v.plain v₁.plain c d b x begins.current begins.uncreated begins.free begins.unmarked
      ((entering v c d).trans h.lasting).later made fits
  refine h.create begins (World.past_complete _ c d b) ?_ ?_ ⟨?_, ?_⟩ ?_ ?_
  · simp only [World.complete]
    split <;> rfl
  · intro c'
    have orderly := change.orderly h.orderly c'
    rw [World.container_complete] at orderly ⊢
    exact orderly
  · rw [World.plain_complete]
    exact change.later
  · intro c' e he created
    rw [World.plain_complete]
    refine World.mem_definitions_complete _ c c' d e b he fun hc serial => ?_
    subst hc
    rw [only e he serial, begins.uncreated] at created
    cases created
  · intro c' e he marked
    refine World.mem_definitions_complete _ c c' d e b he fun hc serial => ?_
    subst hc
    rw [only e he serial] at marked
    exact begins.unmarked marked
  · rintro b' _ ⟨⟩ _ _
    rw [World.plain_complete]
    exact World.stored_complete _ c d b same

theorem steady (lang : Language C S) :
    Steady lang fun v v' => (∀ c, (v.container c).Orderly) → ∃ new, Accepting (C := C) new v v' where
  refl v orderly := ⟨[], silent rfl rfl orderly (.of_eq rfl rfl) fun _ _ hd => hd⟩
  trans _ _ _ h k orderly := by
    obtain ⟨new₁, h⟩ := h orderly
    obtain ⟨new₂, k⟩ := k h.orderly
    exact ⟨_, h.trans k⟩
  step v v' past h orderly := by
    have change : Change (fun _ _ => False) v.plain v'.plain := h.change
    exact ⟨[], silent past h.marks (change.orderly orderly) h.lasting h.definitions⟩
  pinned v v₁ b r t called hr hres h free found orderly := by
    obtain ⟨new, h⟩ := h orderly
    have current := h.lasting.later.unresolved b r hr free
    have later : Later v₁.plain (v₁.pin b t).plain := .pin v₁.plain b t r current hres
    exact ⟨_, h.trans (silent rfl rfl h.orderly ⟨later, fun _ _ hd _ => hd⟩ fun _ _ hd => hd)⟩
  poked v s orderly := ⟨[], silent rfl rfl orderly (.of_eq rfl rfl) fun _ _ hd => hd⟩
  noted v m holds plainly orderly := ⟨[m], .note v m orderly holds plainly⟩
  created v c d o v₁ o' v' begins h _ finished orderly := by
    obtain ⟨new, h⟩ := h orderly
    cases Lookup.finish_cases finished with
    | accepted b x made fits => exact ⟨_, h.complete begins made fits⟩
    | givenUp _ _ unfit =>
      refine ⟨_, h.create begins rfl rfl h.orderly (.of_eq rfl rfl) (fun _ _ he _ => he)
        fun b x ho hx fits => ?_⟩
      rw [unfit b x ho hx] at fits
      cases fits

end Accepting

/-- In every run of a single thread at most one bean of a factory is accepted for a name, whatever becomes of
its definitions meanwhile; its definition has it from then on, and the name is registered. A factory is
entered only for a definition in force that has no bean and whose name is free. Whenever user code runs, a
definition that has its bean has its name registered, so that a look-up finds no bean in the definition of a
free name. -/
theorem accepted_once (lang : Language C S) (depth : Nat) (p : Program C S α) (s : S) (w' : World C S)
    (o : Outcome α) (moments : List (Moment C S))
    (run : p.history lang depth (.initial s) = some (o, w', moments)) :
    (∀ past m future, moments = past ++ m :: future → ∀ c d b, m.Accepts c d b →
      (∀ m' ∈ future, ∀ d' b', d'.name = d.name → ¬m'.Accepts c d' b') ∧
      ∀ w ∈ future.map Moment.world ++ [w'], Stored c d b w) ∧
    (∀ code c w, .entered code (.make c) w ∈ moments → ∃ d,
      Creates (.entered code (.make c) w) d ∧ (w.container c).singleton? d.name = none) ∧
    ∀ w ∈ moments.map Moment.world ++ [w'], ∀ c,
      (∀ d ∈ (w.container c).definitions, d.created.isSome →
        (w.container c).hasSingleton d.name = true) ∧
      ∀ n d, (w.container c).singleton? n = none → (w.container c).definition? n = some d →
        d.created = none := by
  refine ⟨fun past m future split c d b ha => ?_, fun code c w mem => ?_, fun w mem c => ?_⟩
  · obtain ⟨v, rfl, rfl, h⟩ := steady_of_history (Accepting.steady lang) run
    obtain ⟨new, h⟩ := h (World.orderly_initial s)
    have latest : new = future.reverse ++ m :: past.reverse := by
      have all : v.past = new := by rw [h.past, World.past_chronicled, List.append_nil]
      simpa [all] using congrArg List.reverse split
    obtain ⟨_, _, apart⟩ := List.pairwise_append.mp (latest ▸ h.once)
    have since (m' : Moment C S) (hm' : m' ∈ future) :=
      apart m' (List.mem_reverse.mpr hm') m List.mem_cons_self c d b ha
    refine ⟨fun m' hm' => (since m' hm').2, fun w hw => ?_⟩
    rcases List.mem_append.mp hw with hw | hw
    · obtain ⟨m', hm', rfl⟩ := List.mem_map.mp hw
      exact (since m' hm').1
    · obtain rfl := List.mem_singleton.mp hw
      exact (h.accepted m (by simp [latest]) c d b ha).2.2
  · obtain ⟨v, rfl, rfl, h⟩ := steady_of_history (Bracketed.steady lang) run
    have tracked : AllTracked v.past := h.tracked [] ⟨.nil, rfl, .nil⟩ .intro
    obtain ⟨d, creates⟩ := tracked.creates (List.mem_reverse.mp mem)
    refine ⟨d, creates, ?_⟩
    cases creates with
    | intro _ _ _ _ _ free => exact free
  · have orderly : (w.container c).Orderly :=
      Reachable.orderly ⟨lang, depth, α, p, s, o, w', moments, run, mem⟩ c
    exact ⟨orderly.registered, orderly.uncreated⟩

/-- User code whose only factory defines its own name anew before it makes a bean. -/
def redefining (name : String) : Language Unit Unit where
  run _
    | .make c => do
      .request (.define c { name, type := .interface name, factory := () })
      .request (.create (.interface name) ())
    | _ => .fail (.illegalState name)
  describe _ := name

theorem accepted_once_redefining : ∃ w' past m future d,
    (defineAndGet ⟨0⟩ "a").history (redefining "a") 2 (.initial ()) =
      some (.ok ⟨0⟩, w', past ++ m :: future) ∧
    m.Accepts ⟨0⟩ d ⟨0⟩ ∧ Stored ⟨0⟩ d ⟨0⟩ w' ∧
    ∃ d', (w'.container ⟨0⟩).definition? d.name = some d' ∧ d'.serial ≠ d.serial := by
  let d : Definition Unit := { name := "a", type := .interface "a", factory := (), serial := 0 }
  have run : ∃ w' m₁ m₂ m₃ m₄ m₅ m₆ m₇ m₈ m future,
      (defineAndGet ⟨0⟩ "a").history (redefining "a") 2 (.initial ()) =
        some (.ok ⟨0⟩, w', [m₁, m₂, m₃, m₄, m₅, m₆, m₇, m₈] ++ m :: future) ∧
      m.Accepts ⟨0⟩ d ⟨0⟩ ∧
      ∃ d', (w'.container ⟨0⟩).definition? d.name = some d' ∧ d'.serial ≠ d.serial :=
    ⟨_, _, _, _, _, _, _, _, _, _, _, rfl, .intro _ _ _ rfl rfl rfl rfl, _, rfl, by decide⟩
  obtain ⟨w', m₁, m₂, m₃, m₄, m₅, m₆, m₇, m₈, m, future, run, accepts, other⟩ := run
  obtain ⟨accepted, _⟩ := accepted_once _ _ _ _ _ _ _ run
  have stored := (accepted _ m future rfl ⟨0⟩ d ⟨0⟩ accepts).2 w' (by simp)
  exact ⟨w', _, m, future, d, run, accepts, stored, other⟩

end Wiring
