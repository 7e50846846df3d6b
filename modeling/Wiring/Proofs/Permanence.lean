import Wiring.Proofs.History

namespace Wiring

variable {C S α : Type}

/-- A bean is registered under a name for good: look-ups return it without running user code, and
nothing else can be registered under the name. -/
structure Settled (c : ContainerId) (n : String) (b : BeanId) (w : World C S) : Prop where
  registered : (w.container c).singleton? n = some b
  found : ∀ user : UserCode C S, Lookup.getBean user c n w = some (.ok b, w)
  refused : ∀ x, (w.bean? x).isSome →
    Lookup.registerSingleton c n x w = some (.error (.singletonAlreadyRegistered n), w)

theorem Settled.of_registered (c : ContainerId) (n : String) (b : BeanId) (w : World C S)
    (h : (w.container c).singleton? n = some b) : Settled c n b w where
  registered := h
  found user := Lookup.getBean_registered user c n b w h
  refused x hx := Lookup.registerSingleton_refused c n b x w h hx

theorem Settled.later {c : ContainerId} {n : String} {b : BeanId} {w w' : World C S}
    (h : Settled c n b w) (hl : Later w w') : Settled c n b w' :=
  .of_registered c n b w' (hl.singletons c n b h.registered)

/-- In every run, whatever the program and the user code that it calls do, what is registered is settled
at all points from then on. What a look-up by name brings is registered when it returns, and so
settled from then on; this is so for each look-up of the library, too. -/
theorem singletons_permanent (lang : Language C S) (depth : Nat) (p : Program C S α)
    (w w' : World C S) (o : Outcome α) (run : p.interpret (answer lang depth) w = some (o, w')) :
    (∃ moments, p.history lang depth w = some (o, w', moments) ∧
      ((w :: moments.map Moment.world ++ [w']).Pairwise fun w₁ w₂ => ∀ c n b,
        (w₁.container c).singleton? n = some b → Settled c n b w₁ ∧ Settled c n b w₂) ∧
      ∀ past future c n b before after,
        moments = past ++ .answered (.getBean c n) before (.ok b) after :: future →
        ∀ v ∈ after :: future.map Moment.world ++ [w'], Settled c n b v) ∧
    ∀ (user : UserCode C S) c n b (v v' : World C S),
      Lookup.getBean user c n v = some (.ok b, v') → Settled c n b v' := by
  constructor
  · obtain ⟨moments, h⟩ := history_of_interpret run
    refine ⟨moments, h, (history_later h).imp ?_, ?_⟩
    · intro w₁ w₂ hl c n b hb
      have first : Settled c n b w₁ := .of_registered c n b w₁ hb
      exact ⟨first, first.later hl⟩
    · intro past future c n b before after split v hv
      subst split
      have holds := history_holds h (.answered (.getBean c n) before (.ok b) after) (by simp)
      obtain ⟨_, depth', ha⟩ := holds
      have first : Settled c n b after := .of_registered c n b after (registered_of_answer ha)
      exact first.later (history_later_from h v hv)
  · intro user c n b v v' h
    have hb := Lookup.registered_of_getBean user c n b v v' h
    exact .of_registered c n b v' hb

/-- User code whose only factory registers a bean under its own name and then returns another one. -/
def selfRegistering (name : String) : Language Unit Unit where
  run _
    | .make c => do
      let kept ← .request (.create (.interface name) ())
      .request (.registerSingleton c name kept)
      .request (.create (.interface name) ())
    | _ => .fail (.illegalState name)
  describe _ := name

def defineAndGet (c : ContainerId) (name : String) : Program Unit Unit BeanId := do
  .request (.define c { name, type := .interface name, factory := () })
  .request (.getBean c name)

theorem singletons_permanent_selfRegistering : ∃ w',
    (defineAndGet ⟨0⟩ "a").interpret (answer (selfRegistering "a") 2) (.initial ()) =
      some (.ok ⟨0⟩, w') ∧ Settled ⟨0⟩ "a" ⟨0⟩ w' := by
  refine ⟨_, rfl, ?_⟩
  have h := singletons_permanent (selfRegistering "a") 2 (defineAndGet ⟨0⟩ "a") (.initial ()) _
    (.ok ⟨0⟩) rfl
  exact h.2 ((selfRegistering "a").user (answer (selfRegistering "a") 1)) ⟨0⟩ "a" ⟨0⟩
    ((World.initial ()).define ⟨0⟩ { name := "a", type := .interface "a", factory := () }) _ rfl

end Wiring
