import Wiring.Proofs.Simulation

namespace Wiring

variable {C S α : Type}

namespace World

theorem creatingProxies_congr {w w' : World C S} (s : StatusId) (h : w'.statuses = w.statuses) :
    w'.creatingProxies s = w.creatingProxies s := by
  simp only [creatingProxies, h]

@[simp] theorem size_setCreatingProxies (w : World C S) (s : StatusId) (value : Bool) :
    (w.setCreatingProxies s value).statuses.size = w.statuses.size := Array.size_modify

theorem creatingProxies_set (w : World C S) (s : StatusId) (value : Bool) :
    (w.setCreatingProxies s value).creatingProxies s =
      (value && decide (s.index < w.statuses.size)) := by
  by_cases h : s.index < w.statuses.size
  · simp [creatingProxies, setCreatingProxies, h, Array.getElem_modify, ForwardMode.set]
  · simp [creatingProxies, setCreatingProxies, h]

theorem creatingProxies_other (w : World C S) {s s' : StatusId} (value : Bool) (h : s' ≠ s) :
    (w.setCreatingProxies s value).creatingProxies s' = w.creatingProxies s' := by
  obtain ⟨i⟩ := s
  obtain ⟨j⟩ := s'
  have other : i ≠ j := fun e => h (congrArg StatusId.mk e.symm)
  simp [creatingProxies, setCreatingProxies, Array.getElem?_modify, other]

/-- A new flag is off, as one that does not exist. -/
theorem creatingProxies_newStatus (w : World C S) (s : StatusId) :
    ({ w with statuses := w.statuses.push {} } : World C S).creatingProxies s = w.creatingProxies s := by
  simp only [creatingProxies, Array.getElem?_push]
  split
  · rename_i last
    simp [last]
  · rfl

theorem setCreatingProxies_self (w : World C S) (s : StatusId) :
    w.setCreatingProxies s (w.creatingProxies s) = w := by
  have same : w.statuses.modify s.index (·.set (w.creatingProxies s)) = w.statuses := by
    refine Array.ext_getElem? fun i => ?_
    rw [Array.getElem?_modify]
    split
    · rename_i hi
      subst hi
      cases hs : w.statuses[s.index]? with
      | none => rfl
      | some m => simp [creatingProxies, hs, ForwardMode.set]
    · rfl
  unfold setCreatingProxies
  rw [same]

theorem setCreatingProxies_twice (w : World C S) (s : StatusId) (first second : Bool) :
    (w.setCreatingProxies s first).setCreatingProxies s second = w.setCreatingProxies s second := by
  have same : (w.statuses.modify s.index (·.set first)).modify s.index (·.set second) =
      w.statuses.modify s.index (·.set second) := by
    refine Array.ext_getElem? fun i => ?_
    simp only [Array.getElem?_modify]
    split
    · cases w.statuses[i]? <;> rfl
    · rfl
  unfold setCreatingProxies
  rw [same]

end World

/-- No flag gets lost. -/
def Run.Grows (r : Run C S α) : Prop :=
  ∀ w o w', r w = some (o, w') → w.statuses.size ≤ w'.statuses.size

/-- There are so many flags. -/
def World.AtLeast (n : Nat) (w : World C S) : Prop := n ≤ w.statuses.size

theorem Likeness.atLeast (n : Nat) :
    Likeness .all (Self (World.AtLeast n : World C S → Prop)) where
  apart w _ h := h.1 ▸ .of_trace .all w w.trace
  recorded _ _ _ h := ⟨by rw [h.1], h.2⟩
  contained _ _ _ _ _ h := ⟨by rw [h.1], h.2⟩
  marked _ _ _ h := ⟨by rw [h.1], h.2⟩
  flagged w _ s value _ h := by
    have size := w.size_setCreatingProxies s value
    exact ⟨by rw [h.1], Nat.le_trans h.2 (Nat.le_of_eq size.symm)⟩
  newStatus w _ h := by
    have size : (w.statuses.push {}).size = w.statuses.size + 1 := Array.size_push _
    exact ⟨by rw [h.1], Nat.le_trans (Nat.le_succ_of_le h.2) (Nat.le_of_eq size.symm)⟩
  object _ _ _ _ h := ⟨by rw [h.1], h.2⟩
  reference _ _ _ _ h := ⟨by rw [h.1], h.2⟩
  pinned _ _ _ _ _ h := ⟨by rw [h.1], h.2⟩

theorem Run.Grows.of_simulated {r : Run C S α}
    (h : ∀ n w w', Self (World.AtLeast n) w w' → Simulated (Self (World.AtLeast n)) r r w w') :
    r.Grows := fun w _ _ run => (h w.statuses.size w w ⟨rfl, Nat.le_refl _⟩).kept run

namespace Run

end Run

end Wiring
