import Wiring.Proofs.Dereference
import Wiring.Proofs.Pipeline

namespace Wiring

variable {C S α : Type}

/-- Factories run one after the other; in between no flag is touched. -/
inductive Factories (user : UserCode C S) (c : ContainerId) :
    World C S → List (Deed C S BeanId) → World C S → Prop where
  | none {w w' : World C S} (same : w'.statuses = w.statuses) : Factories user c w [] w'
  | run {w w' : World C S} {x : Deed C S BeanId} {rest : List (Deed C S BeanId)} (d : Definition C)
      (made : x.Of (user d.factory (.make c))) (same : x.before.statuses = w.statuses)
      (more : Factories user c x.after rest w') : Factories user c w (x :: rest) w'

namespace World

end World

namespace Factories

variable {user : UserCode C S} {c : ContainerId} {w w₁ w₂ : World C S}
  {calls calls' : List (Deed C S BeanId)}

theorem before (same : w₁.statuses = w.statuses) (h : Factories user c w₁ calls w₂) :
    Factories user c w calls w₂ := by
  cases h with
  | none same' => exact .none (same'.trans same)
  | run d made same' more => exact .run d made (same'.trans same) more

theorem append (h : Factories user c w calls w₁) (k : Factories user c w₁ calls' w₂) :
    Factories user c w (calls ++ calls') w₂ := by
  induction h with
  | none same => exact k.before same
  | run d made same _ ih => exact .run d made same (ih k)

end Factories

namespace Lookup

variable {user : UserCode C S} {c : ContainerId} {w w' : World C S}

end Lookup

theorem Prepared.guarded {source : Source} {i : Nat} {types : List BeanType}
    {log : List (Stage C S)} {o : Outcome (List BeanId)} (h : Prepared source i types log o) :
    ∀ x ∈ log, x.guarded = true := by
  induction h with
  | all => exact fun _ hx => absurd hx List.not_mem_nil
  | next _ _ _ _ ih => exact List.forall_mem_cons.mpr ⟨rfl, ih⟩
  | failed => exact List.forall_mem_singleton.mpr rfl

theorem Specified.guarded {p : Processor C} {c : Configuration C} {f : Feature C}
    {log : List (Stage C S)} {o : Outcome (Specification C)} (h : Specified p c f log o) :
    ∀ x ∈ log, x.guarded = true := by
  cases h with
  | unprepared _ parameters => exact parameters.guarded
  | entered _ parameters =>
    exact List.forall_mem_append.mpr ⟨parameters.guarded, List.forall_mem_singleton.mpr rfl⟩

namespace Flagged

variable {s : StatusId} {v v' : Bool} {log : List (Stage C S)}

/-- Stages for which the flag is set begin with it set, and the flag is as before afterwards. -/
theorem guarded (h : Flagged s v log v') (all : ∀ x ∈ log, x.guarded = true) :
    v' = v ∧ ∀ x ∈ log, x.before.creatingProxies s = true := by
  induction log with
  | nil => exact ⟨h, fun _ hx => absurd hx List.not_mem_nil⟩
  | cons x rest ih =>
    obtain ⟨hx, hrest⟩ := List.forall_mem_cons.mp all
    simp only [Flagged, hx, if_true] at h
    obtain ⟨same, on⟩ := ih h.2 hrest
    exact ⟨same, List.forall_mem_cons.mpr ⟨h.1, on⟩⟩

end Flagged

namespace Reference

variable {user : UserCode C S} {w w' : World C S}
  (hu : ∀ n, CallsSimulated (Self (World.AtLeast n)) user user)

include hu

end Reference

namespace Bootstrap

variable {lang : Language C S} {user : UserCode C S} {p : Processor C} {w w' : World C S}
  (hu : ∀ n, CallsSimulated (Self (World.AtLeast n)) user user)

include hu

end Bootstrap

end Wiring
