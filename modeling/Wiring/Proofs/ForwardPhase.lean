import Wiring.Proofs.History
import Wiring.Proofs.OnlyRefers

namespace Wiring

variable {C S α : Type}

/-- All requests that the program makes from this world on, answered by `ask`, only refer to beans, also
those after failures. -/
def Program.Forward (ask : (q : Request C) → Run C S q.Answer) (ctx : Context C) :
    Program C S α → World C S → Prop
  | done _, _ => True
  | peek k, w => (k w.user).Forward ask ctx w
  | poke s k, w => k.Forward ask ctx { w with user := s }
  | .ask q k, w => q.Forward ctx w ∧
    ∀ o w', ask q w = some (o, w') → (k o).Forward ask ctx w'

/-- The beans that a body comes to have at a moment, by its parameters or by an answer. -/
def Moment.obtained : Moment C S → List BeanId
  | answered q _ (.ok a) _ => q.beans a
  | entered _ (.body _ args) _ => args
  | _ => []

/-- The body of the feature method, with the parameters that it gets in this world, only refers to beans. -/
def Feature.Forward (f : Feature C) (lang : Language C S) (depth : Nat) (ctx : Context C)
    (w : World C S) : Prop :=
  ∀ args v, Bootstrap.parameters (lang.user (answer lang depth)) ctx.processor
      ⟨ctx.configuration.name, f.name⟩ 0 f.parameters w = some (.ok args, v) →
    (lang.run f.body (.body ctx args)).Forward (answer lang depth) ctx v

/-- What a phase that began in the world `w` keeps: the flag is on, and at all moments so far nothing
was touched, user code other than the body was not called, and the beans obtained had no targets,
nor have they any now. -/
structure Phase (w : World C S) (ctx : Context C) (body : C) (v : World C (Noted C S)) : Prop where
  frame : Frame w v.plain
  on : v.creatingProxies ctx.processor.status = true
  moments : ∀ m ∈ v.past, Frame w m.world ∧
    (∀ b ∈ m.obtained, m.world.Unresolved b ∧ v.plain.Unresolved b) ∧
    ∀ code e u, m = .entered code e u → code = body ∧ ∃ args, e = .body ctx args

namespace Phase

variable {w : World C S} {ctx : Context C} {body : C} {v : World C (Noted C S)}

theorem step {v' : World C (Noted C S)} (h : Phase w ctx body v) (hf : Frame v.plain v'.plain)
    (hs : v'.statuses = v.statuses) (hu : v'.user.2 = v.user.2) : Phase w ctx body v' where
  frame := h.frame.trans hf
  on := by
    rw [← h.on]
    simp only [World.creatingProxies, hs]
  moments m hm := by
    obtain ⟨frame, obtained, entered⟩ := h.moments m (by rwa [World.past, hu] at hm)
    exact ⟨frame, fun b hb => ⟨(obtained b hb).1, hf.unresolved (obtained b hb).2⟩, entered⟩

theorem note (h : Phase w ctx body v) (m : Moment C S) (world : m.world = v.plain)
    (obtained : ∀ b ∈ m.obtained, v.plain.Unresolved b)
    (entered : ∀ code e u, m = .entered code e u → code = body ∧ ∃ args, e = .body ctx args) :
    Phase w ctx body (v.note m) where
  frame := h.frame
  on := h.on
  moments m' hm' := by
    rcases List.mem_cons.mp hm' with rfl | hm'
    · refine ⟨world ▸ h.frame, fun b hb => ⟨?_, obtained b hb⟩, entered⟩
      rw [world]
      exact obtained b hb
    · exact h.moments m' hm'

/-- One request of the body. -/
theorem ask (lang : Language C S) (depth : Nat) (q : Request C) (h : Phase w ctx body v)
    (hq : q.Forward ctx v.plain) :
    ∃ o v', chronicle lang (depth + 1) q v = some (o, v') ∧ Phase w ctx body v' := by
  have asked : Phase w ctx body (v.note (.asked q v.plain)) :=
    h.note _ rfl (fun _ hb => absurd hb List.not_mem_nil) (by rintro _ _ _ ⟨⟩)
  have hq' : q.Forward ctx (v.note (.asked q v.plain)) := by
    cases hq with
    | beanMethod n => exact .beanMethod n
    | beanMethodOn configuration n => exact .beanMethodOn configuration n
    | invoke b r call early route => exact .invoke b r call early route
    | describe b r early route => exact .describe b r early route
    | equals b r other early route => exact .equals b r other early route
    | hashCode b r early route => exact .hashCode b r early route
  obtain ⟨o, v₁, hr, hf, hs, hu, hb⟩ := serve_onlyRefers lang.chronicled
    (lang.witnessed (chronicle lang depth)) (chronicle lang depth) ctx q _ asked.on hq'
  have after : Phase w ctx body v₁ :=
    asked.step ⟨hf.containers, hf.marks, hf.kept, hf.fresh⟩ hs (by rw [hu])
  refine ⟨o, v₁.note (.answered q v.plain o v₁.plain), ?_, ?_⟩
  · simp only [chronicle, Run.noting, hr]
  · refine after.note _ rfl (fun b hb' => ?_) (by rintro _ _ _ ⟨⟩)
    cases o with
    | ok a => exact hb a rfl b hb'
    | error e => cases hb'
    | panic text => cases hb'

/-- The whole body, by its requests one after the other. -/
theorem interpret (lang : Language C S) (depth : Nat) (p : Program C S α) (h : Phase w ctx body v)
    (hp : p.Forward (answer lang (depth + 1)) ctx v.plain) :
    ∃ o v', p.chronicled.interpret (chronicle lang (depth + 1)) v = some (o, v') ∧
      Phase w ctx body v' := by
  induction p generalizing v with
  | done o => exact ⟨o, v, rfl, h⟩
  | peek k ih => exact ih v.user.1 h hp
  | poke s k ih => exact ih (h.step (.of_eq rfl rfl rfl) rfl rfl) hp
  | ask q k ih =>
    obtain ⟨hq, hk⟩ := hp
    obtain ⟨o, v₁, hr, h₁⟩ := h.ask lang depth q hq
    -- The request comes to the same without the chronicle, so the rest is forward, too.
    have ha := ((chronicle_parallel (.trivial lang) (depth + 1) q v).ended hr).1
    obtain ⟨o', v', hr', h'⟩ := ih o h₁ (hk o v₁.plain ha)
    exact ⟨o', v', (Run.followedBy_some _ _ v v₁ o hr).trans hr', h'⟩

end Phase

namespace Phase

/-- The start: the flag of the processor is on. -/
private theorem begin (w : World C S) (p : Processor C) (c : Configuration C) (body : C)
    (flag : p.status.index < w.statuses.size) :
    Phase w ⟨p, c⟩ body (w.chronicled.setCreatingProxies p.status true) where
  frame := .of_eq rfl rfl rfl
  on := by
    simp [World.creatingProxies, World.setCreatingProxies, World.chronicled, ForwardMode.set, flag,
      Array.getElem_modify]
  moments _ h := nomatch h

/-- The parameters and the body. -/
private theorem whole (lang : Language C S) (depth : Nat) (p : Processor C) (c : Configuration C)
    (f : Feature C) (w : World C S) (v : World C (Noted C S)) (h : Phase w ⟨p, c⟩ f.body v)
    (proxies : p.settings.proxyFeatureParameters = true)
    (body : f.Forward lang (depth + 1) ⟨p, c⟩ v.plain) :
    ∃ o v', (do
        let args ← Bootstrap.parameters (lang.witnessed (chronicle lang (depth + 1))) p
          ⟨c.name, f.name⟩ 0 f.parameters
        lang.witnessed (chronicle lang (depth + 1)) f.body (.body ⟨p, c⟩ args)) v = some (o, v') ∧
      Phase w ⟨p, c⟩ f.body v' := by
  have parallel := Bootstrap.parameters_parallel (.trivial lang) (calls_parallel (.trivial lang) (depth + 1))
    p ⟨c.name, f.name⟩ 0 f.parameters v
  obtain ⟨o, v₁, hr, hf, hs, hu, hb⟩ := Bootstrap.parameters_onlyRefers
    (lang.witnessed (chronicle lang (depth + 1))) p ⟨c.name, f.name⟩ 0 f.parameters v proxies
  have first : Phase w ⟨p, c⟩ f.body v₁ :=
    h.step ⟨hf.containers, hf.marks, hf.kept, hf.fresh⟩ hs (by rw [hu])
  cases o with
  | error e => exact ⟨_, v₁, Run.bind_error _ _ v v₁ e hr, first⟩
  | panic text => exact ⟨_, v₁, Run.bind_panic _ _ v v₁ text hr, first⟩
  | ok args =>
    have forward : (lang.run f.body (.body ⟨p, c⟩ args)).Forward (answer lang (depth + 1)) ⟨p, c⟩
        v₁.plain := body args v₁.plain (parallel.ended hr).1
    have entered := first.note (.entered f.body (.body ⟨p, c⟩ args) v₁.plain) rfl
      (fun b => hb args rfl b) fun _ _ _ e => by cases e; exact ⟨rfl, args, rfl⟩
    obtain ⟨o, v₂, hi, last⟩ := entered.interpret lang depth _ forward
    refine ⟨o, v₂.note (.left f.body (.body ⟨p, c⟩ args) v₁.plain o v₂.plain), ?_, ?_⟩
    · rw [Run.bind_ok _ _ v v₁ args hr]
      simp only [Language.witnessed, Run.noting, Language.user]
      rw [show lang.chronicled.run f.body (.body ⟨p, c⟩ args) =
        (lang.run f.body (.body ⟨p, c⟩ args)).chronicled from rfl, hi]
    · exact last.note _ rfl (fun _ hb => absurd hb List.not_mem_nil) (by rintro _ _ _ ⟨⟩)

end Phase

/-- The forward phase of a feature method whose body only refers to beans ends, and at all moments up to
its end containers, marks and the beans from before are as they were, no user code was called but the
body, and all beans obtained on the way are references without targets. The flag of a processor has to
exist. -/
theorem forwardPhase_frame (lang : Language C S) (depth : Nat) (p : Processor C)
    (c : Configuration C) (f : Feature C) (w : World C S)
    (proxies : p.settings.proxyFeatureParameters = true)
    (flag : p.status.index < w.statuses.size)
    (body : f.Forward lang (depth + 1) ⟨p, c⟩ (w.setCreatingProxies p.status true)) :
    ∃ o w' moments,
      Bootstrap.specification (lang.user (answer lang (depth + 1))) p c f w = some (o, w') ∧
      Run.history (Bootstrap.specification (lang.witnessed (chronicle lang (depth + 1))) p c f) w =
        some (o, w', moments) ∧
      (∀ v ∈ moments.map Moment.world ++ [w'], Frame w v) ∧
      (∀ code e v, .entered code e v ∈ moments →
        code = f.body ∧ ∃ args, e = .body ⟨p, c⟩ args) ∧
      ∀ m ∈ moments, ∀ b ∈ m.obtained, m.world.Unresolved b ∧ w'.Unresolved b := by
  obtain ⟨o, v, hr, h⟩ := Phase.whole lang depth p c f w _ (Phase.begin w p c f.body flag) proxies
    body
  have ended := Run.cleanup_some _
    (·.setCreatingProxies p.status (w.chronicled.creatingProxies p.status)) _ v o hr
  have parallel := Bootstrap.specification_parallel (.trivial lang)
    (witnessed_parallel (.trivial lang) _ (chronicle_parallel (.trivial lang) (depth + 1)))
    p c f w.chronicled
  rcases parallel with ⟨hn, _⟩ | ⟨o', v', hr', ha, _⟩
  · cases hn.symm.trans ended
  · cases hr'.symm.trans ended
    refine ⟨o, _, v.past.reverse, ha, ?_, fun u hu => ?_, fun code e u hm => ?_, fun m hm b hb => ?_⟩
    · unfold Run.history
      rw [hr']
      rfl
    · rcases List.mem_append.mp hu with hu | hu
      · obtain ⟨m, hm, rfl⟩ := List.mem_map.mp hu
        exact (h.moments m (List.mem_reverse.mp hm)).1
      · obtain rfl := List.mem_singleton.mp hu
        exact h.frame.trans (.of_eq rfl rfl rfl)
    · exact (h.moments _ (List.mem_reverse.mp hm)).2.2 code e u rfl
    · obtain ⟨before, now⟩ := (h.moments m (List.mem_reverse.mp hm)).2.1 b hb
      exact ⟨before, now⟩

/-- User code whose only body calls a producer method and then one of the reference that it gets. -/
def chaining (first second : String) : Language Unit Unit where
  run _
    | .body ctx _ => do
      let b ← .request (.beanMethod ctx first)
      let _ ← .request (.invoke b ⟨second, []⟩)
      .done (.ok (.custom ()))
    | _ => .fail (.illegalState first)
  describe _ := second

/-- A configuration with one producer method, whose type has a producer method itself. -/
def chainingConfiguration (first second : String) : Configuration Unit where
  name := "configuration"
  producers :=
    [⟨first, ⟨first, .interface, [], [⟨second, some (.interface second)⟩]⟩, false, ()⟩]
  features := [⟨"feature", [.interface second], ()⟩]

def oneFlag : World Unit Unit := { World.initial () with statuses := #[{}] }

theorem forwardPhase_frame_chaining : ∃ w',
    Bootstrap.specification ((chaining "a" "b").user (answer (chaining "a" "b") 1))
      (.make ⟨0⟩ ⟨0⟩ {}) (chainingConfiguration "a" "b") ⟨"feature", [.interface "b"], ()⟩ oneFlag =
        some (.ok (.custom ()), w') ∧ Frame oneFlag w' := by
  obtain ⟨o, w', moments, run, _, frame, _⟩ := forwardPhase_frame (chaining "a" "b") 0
    (.make ⟨0⟩ ⟨0⟩ {}) (chainingConfiguration "a" "b") ⟨"feature", [.interface "b"], ()⟩ oneFlag rfl
    (by decide) fun args v h => by
      cases h
      refine ⟨.beanMethod "a", fun o w' h => ?_⟩
      cases h
      refine ⟨.invoke _ _ _ rfl trivial, fun o w' h => ?_⟩
      cases h
      exact trivial
  refine ⟨w', ?_, frame w' (by simp)⟩
  cases run
  rfl

end Wiring
