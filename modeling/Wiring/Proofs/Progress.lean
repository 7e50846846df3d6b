import Wiring.Proofs.DependencyGraph
import Wiring.Proofs.Orderly

namespace Wiring

variable {C S : Type} {start : Container C} {deps : String → List String} {c : ContainerId}

/-- The container since the start: what is registered is sound, and definitions of other names are as
they were. -/
structure Advanced (start : Container C) (deps : String → List String) (k : Container C) : Prop where
  orderly : k.Orderly
  kept : ∀ n b, start.singleton? n = some b → k.singleton? n = some b
  sound : ∀ n b, k.singleton? n = some b → Sound start deps n
  definitions : ∀ n, k.singleton? n = none → k.definition? n = start.definition? n

namespace Advanced

theorem refl {k : Container C} (deps : String → List String) (h : k.Orderly) :
    Advanced k deps k :=
  ⟨h, fun _ _ h => h, fun n b hb => .registered n b hb, fun _ _ => rfl⟩

theorem free {k : Container C} (h : Advanced start deps k) {n : String}
    (hn : k.singleton? n = none) : start.singleton? n = none := by
  cases hs : start.singleton? n with
  | none => rfl
  | some b =>
    rw [h.kept n b hs] at hn
    cases hn

/-- A bean is made whose needs are registered. -/
theorem create {k : Container C} (h : Advanced start deps k) (d : Definition C) (b : BeanId)
    (free : k.singleton? d.name = none) (hd : k.definition? d.name = some d)
    (needs : ∀ j ∈ deps d.name, k.hasSingleton j = true) :
    Advanced start deps ((k.accept d.serial b).bind d.name b) where
  orderly := by
    have stays : ∃ d' ∈ k.definitions, d.Becomes d' :=
      ⟨d, Container.mem_of_definition? k d.name d hd, rfl, rfl, id⟩
    exact (h.orderly.bind d.name b).accept d b stays (by simp [Container.hasSingleton])
  kept n a ha := by
    have hn : n ≠ d.name := by
      rintro rfl
      rw [h.kept _ a ha] at free
      cases free
    simpa [hn] using h.kept n a ha
  sound n a ha := by
    by_cases hn : n = d.name
    · subst hn
      refine .defined d.name d ((h.definitions d.name free).symm.trans hd) fun j hj => ?_
      obtain ⟨x, hx⟩ := (Container.hasSingleton_iff k j).mp (needs j hj)
      exact h.sound j x hx
    · exact h.sound n a (by simpa [hn] using ha)
  definitions n hn := by
    have other : n ≠ d.name := by
      rintro rfl
      simp at hn
    have hn' : k.singleton? n = none := by simpa [other] using hn
    have accepted : ((k.accept d.serial b).bind d.name b).definition? n =
        (k.accept d.serial b).definition? n := rfl
    rw [accepted, Container.definition?_accept, ← h.definitions n hn']
    cases he : k.definition? n with
    | none => rfl
    | some d' =>
      have distinct : d'.serial ≠ d.serial := by
        intro e
        have mem := Container.mem_of_definition? k n d' he
        have mem' := Container.mem_of_definition? k d.name d hd
        obtain rfl := h.orderly.unique d' d mem mem' e
        exact other (Container.name_of_definition? k n d' he).symm
      simp [distinct]

end Advanced

/-- A run of a factory: the container, the name in creation and the factory. -/
def Moment.creation? : Moment C S → Option (ContainerId × Option String × C)
  | entered code (.make c) w => some (c, w.marks.head?, code)
  | _ => none

/-- The run of a factory that makes the bean of a name. -/
def Container.creation (k : Container C) (c : ContainerId) (n : String) :
    Option (ContainerId × Option String × C) :=
  (k.definition? n).map fun d => (c, some n, d.factory)

/-- From one world to a later one, these names were registered in this order, each after its needs and
by one run of its factory. -/
structure Made (start : Container C) (deps : String → List String) (c : ContainerId)
    (v v' : World C (Noted C S)) (order : List String) : Prop where
  marks : v'.marks = v.marks
  others : ∀ c', c' ≠ c → v'.container c' = v.container c'
  rest : ∀ n, n ∉ order → (v'.container c).singleton? n = (v.container c).singleton? n
  fresh : ∀ n ∈ order, (v.container c).singleton? n = none ∧
    (v'.container c).hasSingleton n = true ∧ n ∉ v.marks
  nodup : order.Nodup
  before : ∀ pre n post, order = pre ++ n :: post →
    ∀ j ∈ deps n, (v.container c).hasSingleton j = true ∨ j ∈ pre
  trace : v'.trace = v.trace ++ (order.map Event.registeredSingleton).toArray
  runs : ∃ new, v'.past = new ++ v.past ∧
    (new.filterMap Moment.creation?).Perm (order.filterMap (start.creation c))

namespace Made

private theorem split_append {o₁ o₂ pre post : List String} {n : String}
    (h : o₁ ++ o₂ = pre ++ n :: post) :
    (∃ post', o₁ = pre ++ n :: post') ∨ ∃ pre', pre = o₁ ++ pre' ∧ o₂ = pre' ++ n :: post := by
  rcases List.append_eq_append_iff.mp h with ⟨pre', hp, ho⟩ | ⟨rest, hp, ho⟩
  · exact .inr ⟨pre', hp, ho⟩
  · cases rest with
    | nil => exact .inr ⟨[], by simpa using hp.symm, by simpa using ho.symm⟩
    | cons x post' =>
      simp only [List.cons_append, List.cons.injEq] at ho
      obtain ⟨rfl, _⟩ := ho
      exact .inl ⟨post', hp⟩

/-- Nothing is made. -/
theorem quiet {v v' : World C (Noted C S)} (new : List (Moment C S)) (hm : v'.marks = v.marks)
    (hc : v'.containers = v.containers) (ht : v'.trace = v.trace) (hp : v'.past = new ++ v.past)
    (hn : new.filterMap Moment.creation? = []) : Made start deps c v v' [] := by
  have container (c' : ContainerId) : v'.container c' = v.container c' := by
    simp [World.container, hc]
  refine ⟨hm, fun c' _ => container c', fun n _ => by rw [container],
    fun _ hn => absurd hn List.not_mem_nil, .nil, ?_, by simp [ht], new, hp, by simp [hn]⟩
  intro pre n post h
  cases pre <;> cases h

theorem trans {v v₁ v₂ : World C (Noted C S)} {o₁ o₂ : List String}
    (h : Made start deps c v v₁ o₁) (k : Made start deps c v₁ v₂ o₂) :
    Made start deps c v v₂ (o₁ ++ o₂) where
  marks := k.marks.trans h.marks
  others c' hc := (k.others c' hc).trans (h.others c' hc)
  rest n hn := by
    rw [List.mem_append, not_or] at hn
    exact (k.rest n hn.2).trans (h.rest n hn.1)
  fresh n hn := by
    rcases List.mem_append.mp hn with hn | hn
    · obtain ⟨free, taken, unmarked⟩ := h.fresh n hn
      have later : n ∉ o₂ := by
        intro hn₂
        have free' := (k.fresh n hn₂).1
        simp [Container.hasSingleton, free'] at taken
      refine ⟨free, ?_, unmarked⟩
      rwa [Container.hasSingleton, k.rest n later]
    · obtain ⟨free, taken, unmarked⟩ := k.fresh n hn
      have earlier : n ∉ o₁ := by
        intro hn₁
        have taken' := (h.fresh n hn₁).2.1
        simp [Container.hasSingleton, free] at taken'
      rw [h.rest n earlier] at free
      rw [h.marks] at unmarked
      exact ⟨free, taken, unmarked⟩
  nodup := by
    refine List.nodup_append.mpr ⟨h.nodup, k.nodup, fun n hn₁ m hn₂ e => ?_⟩
    subst e
    have taken := (h.fresh n hn₁).2.1
    simp [Container.hasSingleton, (k.fresh n hn₂).1] at taken
  before pre n post split j hj := by
    rcases split_append split with ⟨post', hp⟩ | ⟨pre', rfl, hp⟩
    · exact h.before pre n post' hp j hj
    · rcases k.before pre' n post hp j hj with taken | mem
      · by_cases hj' : j ∈ o₁
        · exact .inr (List.mem_append_left _ hj')
        · rw [Container.hasSingleton, h.rest j hj'] at taken
          exact .inl taken
      · exact .inr (List.mem_append_right _ mem)
  trace := by
    rw [k.trace, h.trace]
    simp
  runs := by
    obtain ⟨new₁, hp₁, hr₁⟩ := h.runs
    obtain ⟨new₂, hp₂, hr₂⟩ := k.runs
    refine ⟨new₂ ++ new₁, by rw [hp₂, hp₁, List.append_assoc], ?_⟩
    rw [List.filterMap_append, List.filterMap_append]
    exact List.perm_append_comm.trans (hr₁.append hr₂)

/-- What was registered stays. -/
theorem keeps {v v' : World C (Noted C S)} {order : List String} (h : Made start deps c v v' order)
    {n : String} {b : BeanId} (hn : (v.container c).singleton? n = some b) :
    (v'.container c).singleton? n = some b := by
  have old : n ∉ order := by
    intro mem
    rw [(h.fresh n mem).1] at hn
    cases hn
  rwa [h.rest n old]

/-- A moment before that is no creation. -/
theorem asked {v v' : World C (Noted C S)} {order : List String} (m : Moment C S)
    (hm : m.creation? = none) (h : Made start deps c (v.note m) v' order) :
    Made start deps c v v' order := by
  have first : Made start deps c v (v.note m) [] :=
    quiet [m] rfl rfl rfl rfl (List.filterMap_cons_none hm)
  exact first.trans h

/-- A moment after that is no creation. -/
theorem noted {v v' : World C (Noted C S)} {order : List String} (m : Moment C S)
    (hm : m.creation? = none) (h : Made start deps c v v' order) :
    Made start deps c v (v'.note m) order := by
  have last : Made start deps c v' (v'.note m) [] :=
    quiet [m] rfl rfl rfl rfl (List.filterMap_cons_none hm)
  have both := h.trans last
  rwa [List.append_nil] at both

end Made

/-- The end of a creation where nothing was registered meanwhile. -/
theorem World.complete_free (w : World C S) (c : ContainerId) (d : Definition C) (b : BeanId)
    (free : (w.container c).singleton? d.name = none) :
    w.complete c d b = ((w.accept c d.serial b).unmark d.name).bind c d.name b := by
  have untaken : (((w.accept c d.serial b).unmark d.name).container c).hasSingleton d.name = false := by
    simp [Container.hasSingleton, free]
  simp only [complete, untaken, Bool.false_eq_true, if_false]

theorem World.container_complete_free (w : World C S) (c : ContainerId) (d : Definition C)
    (b : BeanId) (free : (w.container c).singleton? d.name = none) :
    (w.complete c d b).container c = ((w.container c).accept d.serial b).bind d.name b := by
  rw [complete_free w c d b free]
  simp

/-- The creation of a bean: what its factory made, and then the bean itself. -/
theorem Made.create {v v' : World C (Noted C S)} {order : List String} {d : Definition C}
    (h : Made start deps c ((v.mark d.name).note
      (.entered d.factory (.make c) (v.mark d.name).plain)) v' order)
    (free : (v.container c).singleton? d.name = none) (unmarked : d.name ∉ v.marks)
    (hd : start.definition? d.name = some d)
    (needs : ∀ j ∈ deps d.name, (v'.container c).hasSingleton j = true) (b : BeanId) :
    Made start deps c v (v'.complete c d b) (order ++ [d.name]) := by
  have absent : d.name ∉ order := fun mem => (h.fresh d.name mem).2.2 List.mem_cons_self
  have free' : (v'.container c).singleton? d.name = none := (h.rest d.name absent).trans free
  have singleton (n : String) : ((v'.complete c d b).container c).singleton? n =
      if n = d.name then some b else (v'.container c).singleton? n := by
    rw [World.container_complete_free v' c d b free']
    simp
  refine ⟨?_, fun c' hc => ?_, fun n hn => ?_, fun n hn => ?_, ?_, ?_, ?_, ?_⟩
  · have marks : v'.marks = d.name :: v.marks := h.marks
    rw [World.complete_free v' c d b free']
    change v'.marks.erase d.name = v.marks
    rw [marks, List.erase_cons_head]
  · rw [World.container_complete, if_neg hc]
    exact h.others c' hc
  · rw [List.mem_append, List.mem_singleton, not_or] at hn
    rw [singleton, if_neg hn.2]
    exact h.rest n hn.1
  · rw [Container.hasSingleton, singleton]
    rcases List.mem_append.mp hn with hn | hn
    · obtain ⟨free₁, taken, unmarked₁⟩ := h.fresh n hn
      have other : n ≠ d.name := by
        rintro rfl
        exact absent hn
      rw [if_neg other]
      exact ⟨free₁, taken, fun mem => unmarked₁ (List.mem_cons_of_mem d.name mem)⟩
    · obtain rfl := List.mem_singleton.mp hn
      exact ⟨free, by simp, unmarked⟩
  · refine List.nodup_append.mpr ⟨h.nodup, List.nodup_singleton d.name, fun n hn m hm e => ?_⟩
    obtain rfl := List.mem_singleton.mp hm
    exact absent (e ▸ hn)
  · intro pre n post split j hj
    rcases Made.split_append split with ⟨post', hp⟩ | ⟨pre', rfl, hp⟩
    · exact h.before pre n post' hp j hj
    · cases pre' with
      | nil =>
        obtain rfl : d.name = n := by simpa using (List.cons.inj hp).1
        have taken := needs j hj
        by_cases mem : j ∈ order
        · exact .inr (List.mem_append_left _ mem)
        · rw [Container.hasSingleton, h.rest j mem] at taken
          exact .inl taken
      | cons x rest => simp at hp
  · rw [World.complete_free v' c d b free']
    change v'.trace.push (.registeredSingleton d.name) = _
    rw [h.trace]
    simp [World.note, World.mark]
  · obtain ⟨new, hp, hr⟩ := h.runs
    have made : start.creation c d.name = some (c, some d.name, d.factory) := by
      rw [Container.creation, hd]
      rfl
    refine ⟨new ++ [.entered d.factory (.make c) (v.mark d.name).plain], ?_, ?_⟩
    · rw [World.past_complete, hp, List.append_assoc]
      rfl
    · rw [List.filterMap_append, List.filterMap_append, List.filterMap_cons_some made]
      exact hr.append_right _

end Wiring
