import Wiring.World

namespace Wiring

variable {C S α β : Type}

/-- An end of a computation that is no success. -/
inductive Fault where
  | error (e : Error)
  | panic (text : String)

def Fault.outcome : Fault → Outcome α
  | error e => .error e
  | panic text => .panic text

theorem Outcome.ok_or_fault (o : Outcome α) : (∃ a, o = .ok a) ∨ ∃ fault : Fault, o = fault.outcome := by
  cases o with
  | ok a => exact .inl ⟨a, rfl⟩
  | error e => exact .inr ⟨.error e, rfl⟩
  | panic text => exact .inr ⟨.panic text, rfl⟩

theorem Fault.ne_ok (fault : Fault) (a : α) : fault.outcome ≠ .ok a := by
  cases fault with
  | error e => exact nofun
  | panic text => exact nofun

theorem Fault.outcome_inj {f g : Fault} (h : (f.outcome : Outcome α) = g.outcome) : f = g := by
  cases f <;> cases g <;> cases h <;> rfl

theorem Fault.ended_inj {f g : Fault} {w w' : World C S}
    (h : some ((f.outcome : Outcome α), w) = some (g.outcome, w')) : f = g ∧ w = w' := by
  obtain ⟨outcome, world⟩ := Prod.mk.inj (Option.some.inj h)
  exact ⟨Fault.outcome_inj outcome, world⟩

def Outcome.result? : Outcome α → Option α
  | ok a => some a
  | error _ | panic _ => none

@[simp] theorem Fault.result? (fault : Fault) : (fault.outcome : Outcome α).result? = none := by
  cases fault <;> rfl

theorem Outcome.ok_of_result? {o : Outcome α} {a : α} (h : o.result? = some a) : o = .ok a := by
  cases o with
  | ok b => cases h; rfl
  | error e => cases h
  | panic text => cases h

namespace Run

@[simp] theorem pure_apply (a : α) (w : World C S) : (pure a : Run C S α) w = some (.ok a, w) := rfl

@[simp] theorem fail_apply (e : Error) (w : World C S) :
    (fail e : Run C S α) w = some (.error e, w) := rfl

@[simp] theorem panic_apply (text : String) (w : World C S) :
    (panic text : Run C S α) w = some (.panic text, w) := rfl

@[simp] theorem get_bind (f : World C S → Run C S α) (w : World C S) : (get >>= f) w = f w w := rfl

theorem bind_none (r : Run C S α) (f : α → Run C S β) (w : World C S) (h : r w = none) :
    (r >>= f) w = none := by
  change r.followedBy _ w = none
  simp only [followedBy, h]

theorem bind_ok (r : Run C S α) (f : α → Run C S β) (w w' : World C S) (a : α)
    (h : r w = some (.ok a, w')) : (r >>= f) w = f a w' := by
  change r.followedBy _ w = _
  simp only [followedBy, h]

theorem bind_error (r : Run C S α) (f : α → Run C S β) (w w' : World C S) (e : Error)
    (h : r w = some (.error e, w')) : (r >>= f) w = some (.error e, w') := by
  change r.followedBy _ w = _
  simp only [followedBy, h, fail_apply]

theorem bind_panic (r : Run C S α) (f : α → Run C S β) (w w' : World C S) (text : String)
    (h : r w = some (.panic text, w')) : (r >>= f) w = some (.panic text, w') := by
  change r.followedBy _ w = _
  simp only [followedBy, h, panic_apply]

theorem followedBy_some (r : Run C S α) (f : Outcome α → Run C S β) (w w' : World C S)
    (o : Outcome α) (h : r w = some (o, w')) : r.followedBy f w = f o w' := by
  simp only [followedBy, h]

theorem cleanup_some (r : Run C S α) (f : World C S → World C S) (w w' : World C S)
    (o : Outcome α) (h : r w = some (o, w')) : r.cleanup f w = some (o, f w') := by
  simp only [cleanup, h]

theorem bean_some (b : BeanId) (v : Bean C) (w : World C S) (h : w.bean? b = some v) :
    bean b w = some (.ok v, w) := by
  simp only [bean, h]

theorem bean_none (b : BeanId) (w : World C S) (h : w.bean? b = none) :
    bean b w = some (.panic "no such bean", w) := by
  simp only [bean, h]

/-- A sequence that succeeds has a first part that succeeds. -/
theorem ok_of_bind (r : Run C S α) (f : α → Run C S β) (w w' : World C S) (b : β)
    (h : (r >>= f) w = some (.ok b, w')) :
    ∃ a w₁, r w = some (.ok a, w₁) ∧ f a w₁ = some (.ok b, w') := by
  rcases hr : r w with _ | ⟨a | e | text, w₁⟩
  · simp [bind_none r f w hr] at h
  · exact ⟨a, w₁, rfl, by rwa [bind_ok r f w w₁ a hr] at h⟩
  · simp [bind_error r f w w₁ e hr] at h
  · simp [bind_panic r f w w₁ text hr] at h

theorem bind_congr {r r' : Run C S α} {f : α → Run C S β} {w : World C S} (h : r w = r' w) :
    (r >>= f) w = (r' >>= f) w := by
  change r.followedBy _ w = r'.followedBy _ w
  simp only [followedBy, h]

theorem bind_fault (r : Run C S α) (f : α → Run C S β) (w w' : World C S) (fault : Fault)
    (h : r w = some (fault.outcome, w')) : (r >>= f) w = some (fault.outcome, w') := by
  cases fault with
  | error e => exact bind_error r f w w' e h
  | panic text => exact bind_panic r f w w' text h

theorem followedBy_cases {r : Run C S α} {f : Outcome α → Run C S β} {w w' : World C S}
    {o : Outcome β} (h : r.followedBy f w = some (o, w')) :
    ∃ o₁ w₁, r w = some (o₁, w₁) ∧ f o₁ w₁ = some (o, w') := by
  unfold followedBy at h
  split at h
  · cases h
  · rename_i o₁ w₁ hr
    exact ⟨o₁, w₁, hr, h⟩

theorem cleanup_cases {r : Run C S α} {f : World C S → World C S} {w w' : World C S}
    {o : Outcome α} (h : r.cleanup f w = some (o, w')) :
    ∃ w₁, r w = some (o, w₁) ∧ w' = f w₁ := by
  unfold cleanup at h
  split at h
  · cases h
  · rename_i o₁ w₁ hr
    cases h
    exact ⟨w₁, hr, rfl⟩

/-- A guard sets the flag, and gives back at the end what it was. -/
theorem guarded_cases {s : StatusId} {value : Bool} {r : Run C S α} {w w' : World C S}
    {o : Outcome α} (h : guarded s value r w = some (o, w')) :
    ∃ w₁, r (w.setCreatingProxies s value) = some (o, w₁) ∧
      w' = w₁.setCreatingProxies s (w.creatingProxies s) :=
  cleanup_cases h

/-- A sequence ends as its second part, or as its first part if that is no success. -/
theorem bind_cases (r : Run C S α) (f : α → Run C S β) (w w' : World C S) (o : Outcome β)
    (h : (r >>= f) w = some (o, w')) :
    (∃ a w₁, r w = some (.ok a, w₁) ∧ f a w₁ = some (o, w')) ∨
      ∃ fault : Fault, r w = some (fault.outcome, w') ∧ o = fault.outcome := by
  obtain ⟨o₁, w₁, hr, next⟩ := followedBy_cases h
  rcases o₁.ok_or_fault with ⟨a, rfl⟩ | ⟨fault, rfl⟩
  · exact .inl ⟨a, w₁, hr, next⟩
  · rw [bind_fault r f w w₁ fault hr] at h
    cases h
    exact .inr ⟨fault, hr, rfl⟩

end Run

theorem Program.interpret_bind (ask : (q : Request C) → Run C S q.Answer) (p : Program C S α)
    (f : α → Program C S β) (w : World C S) :
    (p >>= f).interpret ask w = (p.interpret ask >>= fun a => (f a).interpret ask) w := by
  induction p generalizing w with
  | done o => cases o <;> rfl
  | peek k ih => exact ih w.user w
  | poke s k ih => exact ih { w with user := s }
  | ask q k ih =>
    obtain ⟨x, asked⟩ : ∃ x, ask q w = x := ⟨_, rfl⟩
    change (ask q).followedBy _ w = Run.followedBy ((ask q).followedBy _) _ w
    unfold Run.followedBy
    rw [asked]
    rcases x with _ | ⟨a, w'⟩
    · rfl
    · exact ih a w'

end Wiring
