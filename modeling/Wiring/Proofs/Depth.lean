import Wiring.Proofs.Chronicle
import Wiring.Proofs.Simulation

namespace Wiring

variable {C S α : Type}

/-- Wherever the first computation ends, the second one ends alike. -/
def Run.Below (r r' : Run C S α) : Prop := ∀ w x, r w = some x → r' w = some x

namespace Run.Below

theorem refl (r : Run C S α) : Run.Below r r := fun _ _ h => h

theorem trans {r₁ r₂ r₃ : Run C S α} (h : Run.Below r₁ r₂) (k : Run.Below r₂ r₃) :
    Run.Below r₁ r₃ := fun w x hx => k w x (h w x hx)

/-- It is simulation between equal worlds. -/
theorem iff_simulated (r r' : Run C S α) :
    Run.Below r r' ↔ ∀ w w', w = w' → Simulated Eq r r' w w' := by
  constructor
  · rintro h w _ rfl o v hv
    exact ⟨v, h w (o, v) hv, rfl⟩
  · intro h w x hx
    obtain ⟨v, hv, rfl⟩ := h w w rfl x.1 x.2 hx
    exact hv

theorem noting {r r' : Run C (Noted C S) α} (start : World C S → Moment C S)
    (finish : World C S → Outcome α → World C S → Moment C S) (h : Run.Below r r') :
    Run.Below (Run.noting start finish r) (Run.noting start finish r') := by
  rintro v ⟨o, v'⟩ hx
  obtain ⟨v₁, hr, rfl⟩ := Run.noting_cases hx
  simp only [Run.noting, h _ _ hr]

end Run.Below

theorem Likeness.eq : Likeness .all (Eq (α := World C S)) where
  apart w _ h := h ▸ .of_trace .all w w.trace
  recorded _ _ e h := congrArg (·.record e) h
  contained _ _ c k _ h := congrArg (·.setContainer c k) h
  marked _ _ marks h := by rw [h]
  flagged _ _ s value _ h := congrArg (·.setCreatingProxies s value) h
  newStatus _ _ h := by rw [h]
  object _ _ t code h := by rw [h]
  reference _ _ k target h := by rw [h]
  pinned _ _ b t _ h := congrArg (·.pin b t) h

variable {lang : Language C S} {user user' : UserCode C S}
  {ask ask' : (q : Request C) → Run C S q.Answer}

private theorem CallsSimulated.of_below (hu : ∀ code e, Run.Below (user code e) (user' code e)) :
    CallsSimulated Eq user user' := fun code e => (Run.Below.iff_simulated _ _).mp (hu code e)

theorem serve_below (hu : ∀ code e, Run.Below (user code e) (user' code e))
    (ha : ∀ q, Run.Below (ask q) (ask' q)) (q : Request C) :
    Run.Below (serve lang user ask q) (serve lang user' ask' q) := by
  have asks : AsksSimulated Eq ask ask' := fun q => (Run.Below.iff_simulated _ _).mp (ha q)
  exact (Run.Below.iff_simulated _ _).mpr
    fun w _ => serve_simulated .eq (.of_below hu) asks q (Reach.request_all w q)

theorem Lookup.preinstantiateOne_below (hu : ∀ code e, Run.Below (user code e) (user' code e))
    (c : ContainerId) (n : String) :
    Run.Below (preinstantiateOne user c n) (preinstantiateOne user' c n) := by
  exact (Run.Below.iff_simulated _ _).mpr fun _ _ =>
    preinstantiateOne_simulated .eq (.of_below hu) c n

theorem Lookup.preinstantiateEach_below (hu : ∀ code e, Run.Below (user code e) (user' code e))
    (c : ContainerId) (names : List String) :
    Run.Below (preinstantiateEach user c names) (preinstantiateEach user' c names) := by
  exact (Run.Below.iff_simulated _ _).mpr fun _ _ =>
    preinstantiateEach_simulated .eq (.of_below hu) c names

theorem Program.interpret_below (ha : ∀ q, Run.Below (ask q) (ask' q)) (p : Program C S α) :
    Run.Below (p.interpret ask) (p.interpret ask') := by
  have asks : AsksSimulated Eq ask ask' := fun q => (Run.Below.iff_simulated _ _).mp (ha q)
  refine (Run.Below.iff_simulated _ _).mpr fun _ _ => ?_
  exact p.interpret_simulated .eq (fun _ _ s h => by rw [h]) asks

private theorem answer_succ (lang : Language C S) (depth : Nat) (q : Request C) :
    Run.Below (answer lang depth q) (answer lang (depth + 1) q) := by
  induction depth generalizing q with
  | zero => exact fun _ _ h => nomatch h
  | succ depth ih => exact serve_below (fun code e => (lang.run code e).interpret_below ih) ih q

/-- What a request comes to does not depend on the depth. -/
theorem answer_mono (lang : Language C S) {depth depth' : Nat} (h : depth ≤ depth')
    (q : Request C) : Run.Below (answer lang depth q) (answer lang depth' q) := by
  induction h with
  | refl => exact .refl _
  | step _ ih => exact ih.trans (answer_succ lang _ q)

/-- Nor does what user code comes to. -/
theorem Language.user_below (lang : Language C S) {depth depth' : Nat} (h : depth ≤ depth') (code : C)
    (e : Entry C) :
    Run.Below (lang.user (answer lang depth) code e) (lang.user (answer lang depth') code e) :=
  (lang.run code e).interpret_below (answer_mono lang h)

private theorem chronicle_succ (lang : Language C S) (depth : Nat) (q : Request C) :
    Run.Below (chronicle lang depth q) (chronicle lang (depth + 1) q) := by
  induction depth generalizing q with
  | zero => exact fun _ _ h => nomatch h
  | succ depth ih =>
    refine .noting _ _ (serve_below (fun code e => ?_) ih q)
    exact .noting _ _ ((lang.run code e).chronicled.interpret_below ih)

theorem chronicle_mono (lang : Language C S) {depth depth' : Nat} (h : depth ≤ depth')
    (q : Request C) : Run.Below (chronicle lang depth q) (chronicle lang depth' q) := by
  induction h with
  | refl => exact .refl _
  | step _ ih => exact ih.trans (chronicle_succ lang _ q)

end Wiring
