import Wiring.Proofs.Delegation

namespace Wiring

variable {C S : Type}

namespace Reference

/-- The search for the target of a reference, with the flag off. -/
def search (user : UserCode C S) (r : EarlyReference C) : Run C S BeanId :=
  Run.guarded r.creator.status false (lookUp user r.creator.registry r.target)

theorem settle_kept {b t kept : BeanId} {w : World C S} (h : w.target? b = some kept) :
    settle b t w = some (.ok kept, w) := by
  unfold World.target? at h
  simp [settle, h]

theorem settle_free {b t : BeanId} {w : World C S} (h : w.target? b = none) :
    settle b t w = some (.ok t, w.pin b t) := by
  unfold World.target? at h
  simp [settle, h]

theorem findTarget_pinned (user : UserCode C S) (b t : BeanId) (r : EarlyReference C) (w : World C S)
    (h : r.resolved = some t) : findTarget user b r w = some (.ok t, w) := by
  simp [findTarget, h]

theorem findTarget_free (user : UserCode C S) (b : BeanId) (r : EarlyReference C)
    (h : r.resolved = none) : findTarget user b r = search user r >>= settle b := by
  simp only [findTarget, h, search]

theorem found_of_search (user : UserCode C S) {r : EarlyReference C} {w w' : World C S} {t : BeanId}
    (h : search user r w = some (.ok t, w')) : Found w w' r.creator.registry r.target t := by
  obtain ⟨w₁, found, rfl⟩ := Run.guarded_cases h
  exact found_of_flagged _ _ _ _ _ _ _ t (found_of_lookUp user _ _ _ _ t found)

/-- By its own route, a dereference is the way to the target. -/
theorem dereference_own (user : UserCode C S) (b : BeanId) (r : EarlyReference C) (w : World C S)
    (route : r.routes.route dereferenceMethod = .dereference) :
    dereference user b r w = findTarget user b r w := by
  unfold dereference
  rw [route]
  rcases hf : findTarget user b r w with _ | ⟨o, w'⟩
  · exact Run.bind_none _ _ _ (Run.bind_none _ _ _ hf)
  · rcases o.ok_or_fault with ⟨t, rfl⟩ | ⟨fault, rfl⟩
    · exact Run.bind_ok _ _ _ _ (Value.bean t) (Run.bind_ok _ _ _ _ t hf)
    · exact Run.bind_fault _ _ _ _ fault (Run.bind_fault _ _ _ _ fault hf)

/-- The call on the target, once the reference has been dereferenced. -/
def passOn (ask : (q : Request C) → Run C S q.Answer) (call : Call BeanId) (t : BeanId) :
    Run C S (Value BeanId) := fun w =>
  ask (.invoke t call) (w.record (.delegating call.method (w.typeName t)))

theorem invoke_delegated (user : UserCode C S) (ask : (q : Request C) → Run C S q.Answer)
    (b : BeanId) (r : EarlyReference C) (call : Call BeanId)
    (route : r.routes.route call.method = .delegate) :
    invoke user ask b r call = dereference user b r >>= passOn ask call := by
  simp only [invoke, route]
  rfl

end Reference

namespace Bean

theorem dereference_early (user : UserCode C S) (b : BeanId) (r : EarlyReference C) (w : World C S)
    (early : w.bean? b = some (.early r)) :
    dereference user b w = Reference.dereference user b r w := by
  rw [dereference, Run.bind_ok _ _ _ _ _ (Run.bean_some b _ w early)]

/-- Only a reference can be dereferenced. -/
theorem early_of_dereference {user : UserCode C S} {b t : BeanId} {w w' : World C S}
    (h : dereference user b w = some (.ok t, w')) : ∃ r, w.bean? b = some (.early r) := by
  cases hb : w.bean? b with
  | none =>
    rw [dereference, Run.bind_panic _ _ _ _ _ (Run.bean_none b w hb)] at h
    cases h
  | some v =>
    cases v with
    | early r => exact ⟨r, rfl⟩
    | object type code =>
      rw [dereference, Run.bind_ok _ _ _ _ _ (Run.bean_some b _ w hb)] at h
      cases h

theorem invoke_early (user : UserCode C S) (ask : (q : Request C) → Run C S q.Answer) (b : BeanId)
    (r : EarlyReference C) (call : Call BeanId) (w : World C S)
    (early : w.bean? b = some (.early r)) :
    invoke user ask b call w = Reference.invoke user ask b r call w := by
  rw [invoke, Run.bind_ok _ _ _ _ _ (Run.bean_some b _ w early)]

/-- By its own route, a reference that is asked for its target by name is dereferenced. -/
theorem invoke_own (user : UserCode C S) (ask : (q : Request C) → Run C S q.Answer) (b : BeanId)
    (r : EarlyReference C) (args : List (Value BeanId)) (w : World C S)
    (early : w.bean? b = some (.early r))
    (route : r.routes.route dereferenceMethod = .dereference) :
    invoke user ask b ⟨dereferenceMethod, args⟩ w =
      (dereference user b >>= fun t => pure (.bean t)) w := by
  have way : dereference user b w = Reference.findTarget user b r w := by
    rw [dereference_early user b r w early, Reference.dereference_own user b r w route]
  rw [invoke_early user ask b r _ w early, Run.bind_congr way]
  simp only [Reference.invoke, route, Reference.onRoute]

theorem invoke_delegated (user : UserCode C S) (ask : (q : Request C) → Run C S q.Answer)
    (b : BeanId) (r : EarlyReference C) (call : Call BeanId) (w : World C S)
    (early : w.bean? b = some (.early r)) (route : r.routes.route call.method = .delegate) :
    invoke user ask b call w = (dereference user b >>= Reference.passOn ask call) w := by
  rw [invoke_early user ask b r call w early, Reference.invoke_delegated user ask b r call route]
  exact (Run.bind_congr (dereference_early user b r w early)).symm

end Bean

end Wiring
