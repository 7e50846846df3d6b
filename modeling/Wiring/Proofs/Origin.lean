import Wiring.Bootstrap
import Wiring.Proofs.Lookup

namespace Wiring

variable {C S : Type}

/-- A bean is a reference of this creator. -/
def World.Bound (w : World C S) (k : Creator C) (b : BeanId) : Prop :=
  ∃ r, w.bean? b = some (.early r) ∧ r.creator = k

/-- A reference keeps its creator, and had no other one before. -/
theorem Later.bound_iff {w w' : World C S} (h : Later w w') {k : Creator C} {b : BeanId} {v : Bean C}
    (hb : w.bean? b = some v) : w'.Bound k b ↔ w.Bound k b := by
  obtain ⟨v', hv', becomes⟩ := h.beans b v hb
  unfold World.Bound
  rw [hb, hv']
  cases becomes with
  | same => exact .rfl
  | pinned r t _ =>
    constructor
    · rintro ⟨_, ⟨⟩, rfl⟩
      exact ⟨r, rfl, rfl⟩
    · rintro ⟨_, ⟨⟩, rfl⟩
      exact ⟨_, rfl, rfl⟩

theorem World.Bound.later {w w' : World C S} {k : Creator C} {b : BeanId} (h : w.Bound k b)
    (later : Later w w') : w'.Bound k b := by
  obtain ⟨r, early, own⟩ := h
  exact (later.bound_iff early).mpr ⟨r, early, own⟩

/-- The creator that a reference had before is the one it has. -/
theorem World.Bound.creator {w w' : World C S} {k : Creator C} {b : BeanId} (h : w'.Bound k b)
    (later : Later w w') {r : EarlyReference C} (early : w.bean? b = some (.early r)) : r.creator = k := by
  obtain ⟨r', early', own⟩ := (later.bound_iff early).mp h
  cases early.symm.trans early'
  exact own

namespace Reference

variable {k : Creator C} {w w' : World C S} {b : BeanId}

theorem later_of_make {target : Target} {o : Outcome BeanId} (h : make k target w = some (o, w')) :
    Later w w' := by
  cases h
  have recorded : Later w (w.record (.creatingReference target.type.name)) := .of_eq rfl rfl
  exact recorded.trans (.addBean _ _)

theorem bound_of_make {target : Target} (h : make k target w = some (.ok b, w')) : w'.Bound k b := by
  cases h
  exact ⟨.make k target, by simp [World.bean?], rfl⟩

theorem made_of_createProxy {d : Dependency} (h : createProxy k d w = some (.ok b, w')) :
    make k (.dependency d) w = some (.ok b, w') := by
  cases able : capability d.type with
  | error e =>
    rw [createProxy, able] at h
    cases h
  | ok _ =>
    rw [createProxy, able] at h
    exact h

theorem bound_of_createProxy {d : Dependency} (h : createProxy k d w = some (.ok b, w')) :
    w'.Bound k b := bound_of_make (made_of_createProxy h)

theorem bound_of_createMethodProxy {declaring : BeanType} {m : Method BeanType}
    (h : createMethodProxy k declaring m w = some (.ok b, w')) : w'.Bound k b := by
  obtain ⟨_, _, _, made⟩ := Run.ok_of_bind _ _ _ _ _ h
  exact bound_of_make made

/-- What a producer call yields comes from the creator of the reference. -/
theorem bound_of_produce {r : EarlyReference C} {m : Method BeanType}
    (h : produce r m w = some (.ok (.bean b), w')) : w'.Bound r.creator b := by
  rw [produce, Run.get_bind] at h
  split at h
  · obtain ⟨b', _, made, same⟩ := Run.ok_of_bind _ _ _ _ _ h
    cases same
    exact bound_of_createMethodProxy made
  · cases h

end Reference

namespace Bootstrap

variable {user : UserCode C S} {p : Processor C} {w w' : World C S}

theorem bound_of_callProducer {c : Configuration C} {name : String} {b : BeanId}
    (forward : w.creatingProxies p.status = true)
    (h : callProducer user p c name w = some (.ok b, w')) : w'.Bound p.creator b := by
  cases found : c.declaringType.methods.find? fun m => m.name == name && m.isProducer with
  | none =>
    simp only [callProducer, found] at h
    cases h
  | some m =>
    simp only [callProducer, found, Run.get_bind, forward, if_true] at h
    exact Reference.bound_of_createMethodProxy h

theorem bound_of_callProducerOn {configuration name : String} {b : BeanId}
    (forward : w.creatingProxies p.status = true)
    (h : callProducerOn user p configuration name w = some (.ok b, w')) : w'.Bound p.creator b := by
  cases found : p.configuration? configuration with
  | none =>
    simp only [callProducerOn, found] at h
    cases h
  | some c =>
    simp only [callProducerOn, found] at h
    exact bound_of_callProducer forward h

/-- With proxied parameters a feature method gets references of its processor's creator. -/
theorem bound_of_parameters {source : Source} {index : Nat} {types : List BeanType}
    {args : List BeanId} (proxied : p.settings.proxyFeatureParameters = true)
    (h : parameters user p source index types w = some (.ok args, w')) :
    Later w w' ∧ ∀ b ∈ args, w'.Bound p.creator b := by
  induction types generalizing index w args with
  | nil =>
    cases h
    exact ⟨.refl _, nofun⟩
  | cons t rest ih =>
    obtain ⟨b, w₁, first, h⟩ := Run.ok_of_bind _ _ _ _ _ h
    obtain ⟨more, w₂, others, h⟩ := Run.ok_of_bind _ _ _ _ _ h
    cases h
    rw [parameter, if_pos proxied] at first
    have made := Reference.made_of_createProxy first
    obtain ⟨later, bound⟩ := ih others
    refine ⟨(Reference.later_of_make made).trans later, fun b' hb' => ?_⟩
    rcases List.mem_cons.mp hb' with rfl | hb'
    · exact (Reference.bound_of_make made).later later
    · exact bound b' hb'

end Bootstrap

/-- What is known of what user code is given: the proxied parameters of a feature body are references of its
processor's creator. -/
def Entry.Given : Entry C → World C S → Prop
  | .body ctx args, w => ctx.processor.settings.proxyFeatureParameters = true →
    ∀ b ∈ args, w.Bound ctx.processor.creator b
  | _, _ => True

end Wiring
