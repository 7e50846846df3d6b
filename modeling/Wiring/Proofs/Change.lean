import Wiring.Proofs.Container

namespace Wiring

/-- What can become of a bean: a reference without a target may be given one. -/
inductive Bean.Becomes {C : Type} : Bean C → Bean C → Prop where
  | same (v : Bean C) : Becomes v v
  | pinned (r : EarlyReference C) (t : BeanId) (h : r.resolved = none) :
      Becomes (.early r) (.early { r with resolved := some t })

theorem Bean.Becomes.trans {C : Type} {u v x : Bean C} (h : u.Becomes v) (k : v.Becomes x) :
    u.Becomes x := by
  cases h with
  | same => exact k
  | pinned r t hr =>
    cases k with
    | same => exact .pinned r t hr
    | pinned _ t' hr' => simp at hr'

variable {C S : Type}

/-- A definition is never lost; it may come to have its bean. -/
def Definition.Becomes (d d' : Definition C) : Prop :=
  d'.toRecipe = d.toRecipe ∧ d'.serial = d.serial ∧ (d.created.isSome → d'.created.isSome)

/-- What no change undoes. -/
structure Later (w w' : World C S) : Prop where
  singletons : ∀ c n b, (w.container c).singleton? n = some b →
    (w'.container c).singleton? n = some b
  definitions : ∀ c, ∀ d ∈ (w.container c).definitions,
    ∃ d' ∈ (w'.container c).definitions, d.Becomes d'
  beans : ∀ b v, w.bean? b = some v → ∃ v', w'.bean? b = some v' ∧ v.Becomes v'

namespace Later

theorem refl (w : World C S) : Later w w where
  singletons _ _ _ h := h
  definitions _ d h := ⟨d, h, rfl, rfl, id⟩
  beans _ v h := ⟨v, h, .same v⟩

theorem trans {w₁ w₂ w₃ : World C S} (h : Later w₁ w₂) (k : Later w₂ w₃) : Later w₁ w₃ where
  singletons c n b hb := k.singletons c n b (h.singletons c n b hb)
  definitions c d hd := by
    obtain ⟨d', hd', e, s, m⟩ := h.definitions c d hd
    obtain ⟨d'', hd'', e', s', m'⟩ := k.definitions c d' hd'
    exact ⟨d'', hd'', e'.trans e, s'.trans s, m' ∘ m⟩
  beans b v hv := by
    obtain ⟨v', hv', h'⟩ := h.beans b v hv
    obtain ⟨v'', hv'', h''⟩ := k.beans b v' hv'
    exact ⟨v'', hv'', h'.trans h''⟩

/-- Nothing is lost where containers and beans stay. -/
theorem of_eq {w w' : World C S} (hc : w'.containers = w.containers) (hb : w'.beans = w.beans) :
    Later w w' := by
  have container (c : ContainerId) : w'.container c = w.container c := by
    simp [World.container, hc]
  have bean (b : BeanId) : w'.bean? b = w.bean? b := by simp [World.bean?, hb]
  refine ⟨fun c n b h => by rwa [container], fun c d h => ⟨d, by rwa [container], rfl, rfl, id⟩,
    fun b v h => ⟨v, by rwa [bean], .same v⟩⟩

/-- A change of one container that keeps its singletons and definitions. -/
theorem of_container {w w' : World C S} (c : ContainerId) (hb : w'.beans = w.beans)
    (other : ∀ c', c' ≠ c → w'.container c' = w.container c')
    (singletons : ∀ n b, (w.container c).singleton? n = some b →
      (w'.container c).singleton? n = some b)
    (definitions : ∀ d ∈ (w.container c).definitions,
      ∃ d' ∈ (w'.container c).definitions, d.Becomes d') : Later w w' := by
  have bean (b : BeanId) : w'.bean? b = w.bean? b := by simp [World.bean?, hb]
  refine ⟨?_, ?_, fun b v h => ⟨v, by rwa [bean], .same v⟩⟩
  · intro c' n b h
    by_cases hc : c' = c
    · subst hc
      exact singletons n b h
    · rwa [other c' hc]
  · intro c' d h
    by_cases hc : c' = c
    · subst hc
      exact definitions d h
    · exact ⟨d, by rwa [other c' hc], rfl, rfl, id⟩

/-- A reference without a target that is still without one is the same reference. -/
theorem unresolved {w w' : World C S} (h : Later w w') (b : BeanId) (r : EarlyReference C)
    (hr : w.bean? b = some (.early r))
    (hn : ((w'.bean? b).bind fun v => v.early?.bind (·.resolved)) = none) :
    w'.bean? b = some (.early r) := by
  obtain ⟨v, hv, hbecome⟩ := h.beans b _ hr
  cases hbecome with
  | same => exact hv
  | pinned _ t _ => simp [hv, Bean.early?] at hn

end Later

/-- The bean that a request calls. -/
def Request.callee : Request C → Option BeanId
  | invoke b _ | describe b | equals b _ | hashCode b | dereference b => some b
  | _ => none

/-- What the search for the target of a reference, begun in one world, has found by another. -/
def Found (w₀ w : World C S) (registry : Registry C) (target : Target) (t : BeanId) : Prop :=
  match registry, target with
  | .container c, .dependency d => ∃ n,
    (w₀.container c).select w₀.plainType d none = .ok n ∧ (w.container c).singleton? n = some t
  | .container c, .named n _ => (w.container c).singleton? n = some t
  | .custom _, _ => (w.bean? t).isSome

/-- The end of a creation: the bean goes into its definition, the mark goes, and the bean is registered
unless its factory has registered one itself. -/
def World.complete (w : World C S) (c : ContainerId) (d : Definition C) (b : BeanId) : World C S :=
  let w' := (w.accept c d.serial b).unmark d.name
  if (w'.container c).hasSingleton d.name then w' else w'.bind c d.name b

/-- Whether an event tells of a container: that something was registered there, or defined anew. -/
def Event.ofContainer : Event → Bool
  | overridingDefinition _ | registeredDefinition _ _ _ | registeredSingleton _ => true
  | _ => false

/-- The single changes that the library makes; `Seen` tells what user code has asked for before, and in
which worlds. -/
inductive Change (Seen : Request C → World C S → Prop) : World C S → World C S → Prop where
  | recorded (w : World C S) (e : Event) (apart : e.ofContainer = false) : Change Seen w (w.record e)
  | defined (w : World C S) (c : ContainerId) (r : Recipe C) : Change Seen w (w.define c r)
  | registered (w : World C S) (c : ContainerId) (n : String) (b : BeanId)
      (present : (w.bean? b).isSome) (free : (w.container c).singleton? n = none) :
      Change Seen w ((w.bind c n b).remember c n)
  /-- The bean that a definition has already is registered. -/
  | adopted (w : World C S) (c : ContainerId) (n : String) (d : Definition C) (b : BeanId)
      (current : (w.container c).definition? n = some d) (created : d.created = some b)
      (free : (w.container c).singleton? n = none) : Change Seen w (w.bind c n b)
  | marked (w : World C S) (n : String) (free : n ∉ w.marks) : Change Seen w (w.mark n)
  /-- A creation is given up. -/
  | unmarked (w : World C S) (n : String) : Change Seen w (w.unmark n)
  /-- A creation that began in an earlier world succeeds. -/
  | completed (w₀ w : World C S) (c : ContainerId) (d : Definition C) (b : BeanId) (v : Bean C)
      (began : (w₀.container c).definition? d.name = some d) (uncreated : d.created = none)
      (free : (w₀.container c).singleton? d.name = none) (unmarked : d.name ∉ w₀.marks)
      (later : Later w₀ w) (made : w.bean? b = some v) (fits : v.type.isAssignableTo d.type) :
      Change Seen w (w.complete c d b)
  | flagged (w : World C S) (s : StatusId) (value : Bool) :
      Change Seen w (w.setCreatingProxies s value)
  | newStatus (w : World C S) : Change Seen w { w with statuses := w.statuses.push {} }
  | object (w : World C S) (t : BeanType) (code : C) : Change Seen w (w.addBean (.object t code)).2
  | reference (w : World C S) (k : Creator C) (target : Target) :
      Change Seen w (w.addBean (.early (.make k target))).2
  /-- A target is pinned that was looked for from an earlier world on, in which the reference was
  called. -/
  | pinned (q : Request C) (w₀ w : World C S) (b : BeanId) (r : EarlyReference C) (t : BeanId)
      (callee : q.callee = some b) (seen : Seen q w₀) (began : w₀.bean? b = some (.early r))
      (later : Later w₀ w) (current : w.bean? b = some (.early r)) (free : r.resolved = none)
      (found : Found w₀ w r.creator.registry r.target t) : Change Seen w (w.pin b t)

/-- The single changes that concern no creation and no target; `Ordered` tells which beans are just to be
registered, and under which names. -/
inductive Step (Ordered : ContainerId → String → BeanId → Prop) : World C S → World C S → Prop where
  | recorded (w : World C S) (e : Event) (apart : e.ofContainer = false) : Step Ordered w (w.record e)
  | defined (w : World C S) (c : ContainerId) (r : Recipe C) : Step Ordered w (w.define c r)
  | registered (w : World C S) (c : ContainerId) (n : String) (b : BeanId)
      (ordered : Ordered c n b) (present : (w.bean? b).isSome)
      (free : (w.container c).singleton? n = none) : Step Ordered w ((w.bind c n b).remember c n)
  | adopted (w : World C S) (c : ContainerId) (n : String) (d : Definition C) (b : BeanId)
      (current : (w.container c).definition? n = some d) (created : d.created = some b)
      (free : (w.container c).singleton? n = none) : Step Ordered w (w.bind c n b)
  | flagged (w : World C S) (s : StatusId) (value : Bool) :
      Step Ordered w (w.setCreatingProxies s value)
  | newStatus (w : World C S) : Step Ordered w { w with statuses := w.statuses.push {} }
  | object (w : World C S) (t : BeanType) (code : C) :
      Step Ordered w (w.addBean (.object t code)).2
  | reference (w : World C S) (k : Creator C) (target : Target) :
      Step Ordered w (w.addBean (.early (.make k target))).2

theorem Step.change {Ordered : ContainerId → String → BeanId → Prop}
    {Seen : Request C → World C S → Prop} {w w' : World C S} (h : Step Ordered w w') : Change Seen w w' := by
  cases h with
  | recorded e apart => exact .recorded w e apart
  | defined c r => exact .defined w c r
  | registered c n b _ present free => exact .registered w c n b present free
  | adopted c n d b current created free => exact .adopted w c n d b current created free
  | flagged s value => exact .flagged w s value
  | newStatus => exact .newStatus w
  | object t code => exact .object w t code
  | reference k target => exact .reference w k target

theorem Step.marks {Ordered : ContainerId → String → BeanId → Prop} {w w' : World C S}
    (h : Step Ordered w w') : w'.marks = w.marks := by
  cases h with
  | defined c r =>
    unfold World.define
    split <;> rfl
  | _ => rfl

/-- In this world the factory of a definition is run: it is the one in force, its name is free, and no
creation under that name is under way. -/
structure Begins (w : World C S) (c : ContainerId) (d : Definition C) : Prop where
  current : (w.container c).definition? d.name = some d
  uncreated : d.created = none
  free : (w.container c).singleton? d.name = none
  unmarked : d.name ∉ w.marks

namespace World

@[simp] theorem container_complete (w : World C S) (c c' : ContainerId) (d : Definition C)
    (b : BeanId) : (w.complete c d b).container c' =
      if c' = c then
        if (w.container c).hasSingleton d.name then (w.container c).accept d.serial b
        else ((w.container c).accept d.serial b).bind d.name b
      else w.container c' := by
  unfold complete
  by_cases hc : c' = c
  · by_cases h : (w.container c).hasSingleton d.name = true <;>
      simp_all [Container.hasSingleton]
  · by_cases h : (w.container c).hasSingleton d.name = true <;>
      simp_all [Container.hasSingleton]

theorem beans_define (w : World C S) (c : ContainerId) (r : Recipe C) :
    (w.define c r).beans = w.beans := by
  unfold define
  split <;> rfl

theorem beans_complete (w : World C S) (c : ContainerId) (d : Definition C) (b : BeanId) :
    (w.complete c d b).beans = w.beans := by
  simp only [complete]
  split <;> rfl

theorem bean?_addBean (w : World C S) (v : Bean C) (b : BeanId) :
    (w.addBean v).2.bean? b = if b.index = w.beans.size then some v else w.bean? b := by
  simp only [addBean, bean?, Array.getElem?_push]

theorem bean?_addBean_of_some (w : World C S) (v : Bean C) (b : BeanId) (x : Bean C)
    (h : w.bean? b = some x) : (w.addBean v).2.bean? b = some x := by
  have hb : b.index ≠ w.beans.size := by
    intro e
    simp [bean?, e] at h
  rw [bean?_addBean, if_neg hb]
  exact h

theorem bean?_pin (w : World C S) (b t b' : BeanId) (r : EarlyReference C)
    (h : w.bean? b = some (.early r)) :
    (w.pin b t).bean? b' =
      if b' = b then some (.early { r with resolved := some t }) else w.bean? b' := by
  have hi : b' = b ↔ b.index = b'.index := by
    obtain ⟨i⟩ := b
    obtain ⟨j⟩ := b'
    simp [eq_comm]
  have hr : w.beans[b.index]? = some (.early r) := h
  simp only [pin, bean?, Array.getElem?_modify, hi]
  split
  · rename_i e
    rw [← e, hr]
    rfl
  · rfl

end World

private theorem becomes_accept (c : Container C) (serial : Nat) (b : BeanId) (d : Definition C)
    (h : d ∈ c.definitions) : ∃ d' ∈ (c.accept serial b).definitions, d.Becomes d' := by
  refine ⟨_, List.mem_map.mpr ⟨d, h, rfl⟩, ?_⟩
  split <;> simp [Definition.Becomes]

namespace Later

theorem define (w : World C S) (c : ContainerId) (r : Recipe C) : Later w (w.define c r) := by
  refine .of_container c (World.beans_define w c r)
    (fun c' hc => by simp [World.container_define, hc]) (fun n b hb => ?_) fun d hd => ?_
  · simpa [World.container_define] using hb
  · exact ⟨d, by simp [World.container_define, hd], rfl, rfl, id⟩

theorem bind (w : World C S) (c : ContainerId) (n : String) (b : BeanId)
    (free : (w.container c).singleton? n = none) : Later w (w.bind c n b) := by
  refine .of_container c rfl (fun c' hc => by simp [hc]) (fun n' b' hb => ?_) fun d hd => ?_
  · have hn : n' ≠ n := by
      rintro rfl
      rw [free] at hb
      cases hb
    simpa [hn] using hb
  · exact ⟨d, by simpa using hd, rfl, rfl, id⟩

theorem remember (w : World C S) (c : ContainerId) (n : String) : Later w (w.remember c n) := by
  refine .of_container c rfl (fun c' hc => by simp [hc]) (fun n' b hb => ?_) fun d hd => ?_
  · simpa using hb
  · exact ⟨d, by simpa using hd, rfl, rfl, id⟩

theorem complete (w : World C S) (c : ContainerId) (d : Definition C) (b : BeanId) :
    Later w (w.complete c d b) := by
  refine .of_container c (World.beans_complete w c d b) (fun c' hc => by simp [hc])
    (fun n a ha => ?_) fun d' hd => ?_
  · by_cases hs : (w.container c).hasSingleton d.name = true
    · simpa [hs] using ha
    · have hn : n ≠ d.name := by
        rintro rfl
        exact hs ((Container.hasSingleton_iff _ _).mpr ⟨a, ha⟩)
      simpa [hs, hn] using ha
  · by_cases hs : (w.container c).hasSingleton d.name = true <;>
      simpa [hs] using becomes_accept _ d.serial b d' hd

theorem addBean (w : World C S) (v : Bean C) : Later w (w.addBean v).2 :=
  ⟨fun _ _ _ h => h, fun _ d h => ⟨d, h, rfl, rfl, id⟩,
    fun b x h => ⟨x, World.bean?_addBean_of_some w v b x h, .same x⟩⟩

theorem pin (w : World C S) (b t : BeanId) (r : EarlyReference C)
    (current : w.bean? b = some (.early r)) (free : r.resolved = none) : Later w (w.pin b t) := by
  refine ⟨fun _ _ _ h => h, fun _ d h => ⟨d, h, rfl, rfl, id⟩, fun b' v h => ?_⟩
  by_cases hb : b' = b
  · subst hb
    obtain rfl : Bean.early r = v := by simpa [current] using h
    exact ⟨_, by simp [World.bean?_pin w _ t _ r current], .pinned r t free⟩
  · exact ⟨v, by simpa [World.bean?_pin w _ t _ r current, hb] using h, .same v⟩

end Later

theorem Change.later {Seen : Request C → World C S → Prop} {w w' : World C S}
    (h : Change Seen w w') : Later w w' := by
  cases h with
  | recorded | marked | unmarked | flagged | newStatus => exact .of_eq rfl rfl
  | defined _ c r => exact .define w c r
  | registered _ c n b _ free => exact (Later.bind w c n b free).trans (.remember _ c n)
  | adopted _ c n d b _ _ free => exact .bind w c n b free
  | completed _ _ c d b v => exact .complete w c d b
  | object _ t code => exact .addBean w (.object t code)
  | reference _ k target => exact .addBean w (.early (.make k target))
  | pinned _ _ _ b r t _ _ _ _ current free => exact .pin w b t r current free

theorem Step.later {Ordered : ContainerId → String → BeanId → Prop} {w w' : World C S}
    (h : Step Ordered w w') : Later w w' :=
  (h.change : Change (fun _ _ => False) w w').later

end Wiring
