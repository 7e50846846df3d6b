import Wiring.Proofs.History
import Wiring.Proofs.Routing

namespace Wiring

variable {C S : Type}

/-- What was found stays so. -/
theorem Found.later {w₀ w w' : World C S} {registry : Registry C} {target : Target} {t : BeanId}
    (h : Found w₀ w registry target t) (hl : Later w w') : Found w₀ w' registry target t := by
  match registry, target with
  | .container c, .dependency d =>
    obtain ⟨n, hn, ht⟩ := h
    exact ⟨n, hn, hl.singletons c n t ht⟩
  | .container c, .named n _ => exact hl.singletons c n t h
  | .custom _, .dependency _ | .custom _, .named _ _ =>
    obtain ⟨v, hv⟩ := Option.isSome_iff_exists.mp h
    obtain ⟨v', hv', _⟩ := hl.beans t v hv
    exact Option.isSome_of_eq_some hv'

/-- The reference before it had a target. -/
def EarlyReference.unresolved (r : EarlyReference C) : EarlyReference C := { r with resolved := none }

/-- A call of the reference began a search in a world in which it had no target, and the search has
found this one. -/
def Sought (Seen : Request C → World C S → Prop) (w : World C S) (b : BeanId)
    (r : EarlyReference C) (t : BeanId) : Prop :=
  ∃ q w₀, q.callee = some b ∧ Seen q w₀ ∧ w₀.bean? b = some (.early r.unresolved) ∧
    Found w₀ w r.creator.registry r.target t

theorem Sought.later {Seen : Request C → World C S → Prop} {w w' : World C S} {b : BeanId}
    {r : EarlyReference C} {t : BeanId} (h : Sought Seen w b r t) (hl : Later w w') :
    Sought Seen w' b r t := by
  obtain ⟨q, w₀, hq, hs, hb, hf⟩ := h
  exact ⟨q, w₀, hq, hs, hb, hf.later hl⟩

/-- All references of a world have the routes of their types and no targets but those sought. -/
structure Coherent (Seen : Request C → World C S → Prop) (w : World C S) : Prop where
  routes : ∀ b r, w.bean? b = some (.early r) → r.routes = Routes.forType r.type
  targets : ∀ b r t, w.bean? b = some (.early r) → r.resolved = some t → Sought Seen w b r t

theorem Coherent.initial (s : S) : Coherent (C := C) (fun _ _ => False) (World.initial s) where
  routes b r h := by simp [World.initial, World.bean?] at h
  targets b r t h := by simp [World.initial, World.bean?] at h

/-- The references of a world after a change: those from before, a new one, or one that was given the
target which a search has found that began when it was called. -/
theorem Change.reference_cases {Seen : Request C → World C S → Prop} {w w' : World C S}
    (h : Change Seen w w') (b : BeanId) (r : EarlyReference C)
    (hb : w'.bean? b = some (.early r)) :
    w.bean? b = some (.early r) ∨ (∃ k target, r = .make k target) ∨
      ∃ r₀ t, r = { r₀ with resolved := some t } ∧ w.bean? b = some (.early r₀) ∧
        ∃ q w₀, q.callee = some b ∧ Seen q w₀ ∧ w₀.bean? b = some (.early r.unresolved) ∧
          Later w₀ w ∧ Found w₀ w r.creator.registry r.target t := by
  cases h with
  | recorded | registered | adopted | marked | unmarked | flagged | newStatus => exact .inl hb
  | defined _ c recipe =>
    left
    rwa [World.bean?, World.beans_define] at hb
  | completed w₀ _ c d a v =>
    left
    rwa [World.bean?, World.beans_complete] at hb
  | object _ type code =>
    rw [World.bean?_addBean] at hb
    split at hb
    · cases hb
    · exact .inl hb
  | reference _ k target =>
    rw [World.bean?_addBean] at hb
    split at hb
    · cases hb
      exact .inr (.inl ⟨k, target, rfl⟩)
    · exact .inl hb
  | pinned q w₀ _ b' r' t callee seen began later current free found =>
    rw [World.bean?_pin w b' t b r' current] at hb
    split at hb
    · rename_i e
      cases hb
      have hu : { r' with resolved := some t }.unresolved = r' := by
        simp [EarlyReference.unresolved, ← free]
      rw [e]
      exact .inr (.inr ⟨r', t, rfl, current, q, w₀, callee, seen, by rw [hu]; exact began, later,
        found⟩)
    · exact .inl hb

theorem Coherent.changed {Seen : Request C → World C S → Prop} {w w' : World C S}
    (h : Coherent Seen w) (hc : Change Seen w w') : Coherent Seen w' where
  routes b r hb := by
    rcases hc.reference_cases b r hb with hb | ⟨k, target, rfl⟩ | ⟨r₀, t, rfl, hb, _⟩
    · exact h.routes b r hb
    · rfl
    · exact h.routes b r₀ hb
  targets b r t hb ht := by
    rcases hc.reference_cases b r hb with hb | ⟨k, target, rfl⟩ |
      ⟨r₀, t₀, rfl, _, q, w₀, callee, seen, began, _, found⟩
    · exact (h.targets b r t hb ht).later hc.later
    · cases ht
    · cases ht
      exact ⟨q, w₀, callee, seen, began, found.later hc.later⟩

theorem Coherent.invariant : Invariant (Coherent (C := C) (S := S)) where
  mono _ _ w hs h := by
    refine ⟨h.routes, fun b r t hb ht => ?_⟩
    obtain ⟨q, w₀, hq, hseen, hw, hf⟩ := h.targets b r t hb ht
    exact ⟨q, w₀, hq, hs q w₀ hseen, hw, hf⟩
  changed _ _ _ h hc := h.changed hc
  poked _ w s h := by
    have hl : Later w { w with user := s } := .of_eq rfl rfl
    exact ⟨h.routes, fun b r t hb ht => (h.targets b r t hb ht).later hl⟩

/-- The references at all moments of a run from the empty world, and at its end. -/
theorem history_coherent {α : Type} {lang : Language C S} {depth : Nat} {p : Program C S α} {s : S}
    {w' : World C S} {o : Outcome α} {moments : List (Moment C S)}
    (h : p.history lang depth (.initial s) = some (o, w', moments)) :
    ∀ w ∈ moments.map Moment.world ++ [w'],
      Coherent (fun q x => Moment.asked q x ∈ moments) w :=
  history_invariant Coherent.invariant (.initial s) h

end Wiring
