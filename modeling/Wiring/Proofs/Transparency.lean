import Wiring.Proofs.Dereference
import Wiring.Proofs.Simulation

namespace Wiring

variable {C S : Type}

namespace World

/-- The world with these events before all others in its trace. -/
def preceded (w : World C S) (events : Array Event) : World C S :=
  { w with trace := events ++ w.trace }

/-- The world with these events put into its trace after so many others. -/
def inserting (w : World C S) (n : Nat) (events : Array Event) : World C S :=
  { w with trace := w.trace.take n ++ events ++ w.trace.drop n }

/-- The world with an empty trace. -/
def silent (w : World C S) : World C S := { w with trace := #[] }

theorem silent_preceded (w : World C S) (trace : Array Event) :
    w.silent.preceded trace = { w with trace } := by
  simp [silent, preceded]

theorem preceded_inserting (w : World C S) (first second : Array Event) :
    (w.preceded first).inserting first.size second = w.preceded (first ++ second) := by
  simp [inserting, preceded]

end World

/-- Worlds of which the second is the first one after some events. -/
theorem Likeness.preceded (events : Array Event) :
    Likeness .all fun w w' : World C S => w' = w.preceded events where
  apart w _ h := h ▸ .of_trace .all w (events ++ w.trace)
  recorded w _ e h := by
    subst h
    simp only [World.preceded, World.record, Array.push_append]
  contained _ _ c k _ h := by rw [h]; rfl
  marked _ _ marks h := by rw [h]; rfl
  flagged _ _ s value _ h := by rw [h]; rfl
  newStatus _ _ h := by rw [h]; rfl
  object _ _ t code h := by rw [h]; rfl
  reference _ _ k target h := by rw [h]; rfl
  pinned _ _ b t _ h := by rw [h]; rfl

theorem Apart.flip {own : Reach} {w w' : World C S} (h : Apart own w w') : Apart own w' w where
  rest := by
    obtain ⟨_, _, _, rfl⟩ := h.rest
    exact ⟨w.containers, w.statuses, w.trace, rfl⟩
  size := h.size.symm
  flags s hs := (h.flags s hs).symm
  containers c hc := (h.containers c hc).symm

theorem Likeness.flip {own : Reach} {A : World C S → World C S → Prop} (hA : Likeness own A) :
    Likeness own (flip A) where
  apart w w' h := (hA.apart w' w h).flip
  recorded w w' := hA.recorded w' w
  contained w w' := hA.contained w' w
  marked w w' := hA.marked w' w
  flagged w w' := hA.flagged w' w
  newStatus w w' := hA.newStatus w' w
  object w w' := hA.object w' w
  reference w w' := hA.reference w' w
  pinned w w' := hA.pinned w' w

/-- What a request comes to does not depend on what has been reported before. -/
theorem answer_preceded (lang : Language C S) (depth : Nat) (q : Request C) (w : World C S)
    (events : Array Event) :
    answer lang depth q (w.preceded events) =
      (answer lang depth q w).map fun (o, v) => (o, v.preceded events) := by
  have hA : Likeness .all fun w w' : World C S => w' = w.preceded events := .preceded events
  cases ha : answer lang depth q w with
  | some x =>
    obtain ⟨o, v⟩ := x
    obtain ⟨_, hv, rfl⟩ :=
      answer_simulated hA (fun _ _ s h => by rw [h]; rfl) lang depth q w _ rfl o v ha
    exact hv
  | none =>
    -- An end from the later world would be one from the earlier.
    cases hb : answer lang depth q (w.preceded events) with
    | none => rfl
    | some x =>
      obtain ⟨o, v⟩ := x
      obtain ⟨_, hv, _⟩ := answer_simulated hA.flip (fun _ _ s h => by
        change _ = _ at h
        rw [h]; rfl) lang depth q _ w rfl o v hb
      rw [ha] at hv
      cases hv

/-- More events in the trace before are more events in the trace after, and nothing else. -/
theorem answer_inserting (lang : Language C S) (depth : Nat) (q : Request C) (w : World C S)
    (events : Array Event) :
    answer lang depth q { w with trace := w.trace ++ events } =
      (answer lang depth q w).map fun (o, v) => (o, v.inserting w.trace.size events) := by
  have plain : answer lang depth q w =
      (answer lang depth q w.silent).map fun (o, v) => (o, v.preceded w.trace) := by
    rw [← answer_preceded, World.silent_preceded]
  rw [plain, ← World.silent_preceded, answer_preceded, Option.map_map]
  congr 1
  funext x
  simp [World.preceded_inserting]

namespace World

/-- The reference passes the call on to this bean, the target that it has. -/
def PassesOn (w : World C S) (call : Call BeanId) (x t : BeanId) : Prop :=
  ∃ r, w.bean? x = some (.early r) ∧ r.Dereferenceable ∧ r.resolved = some t ∧
    r.routes.route call.method = .delegate

end World

theorem Reachable.forwards {w : World C S} (h : Reachable w) {call : Call BeanId} {x t : BeanId}
    (hp : w.PassesOn call x t) : w.Forwards call x t := by
  obtain ⟨r, early, own, resolved, delegated⟩ := hp
  obtain ⟨lang, depth, α, p, s, o, final, moments, run, mem⟩ := h
  have routes : r.routes = Routes.forType r.type := (history_coherent run w mem).routes x r early
  have dereference : r.routes.route dereferenceMethod = .dereference := by
    rw [routes, Routes.route_forType r.type dereferenceMethod own]
    rfl
  exact ⟨r, early, resolved, delegated, dereference⟩

/-- The events of a call that goes along a path. -/
def World.delegations (w : World C S) (call : Call BeanId) (path : List BeanId) : Array Event :=
  (path.map fun t => Event.delegating call.method (w.typeName t)).toArray

/-- On the way along a chain only the trace grows. -/
private theorem answer_chain (lang : Language C S) (call : Call BeanId) (w : World C S)
    (path : List BeanId) (x : BeanId) (chain : List.IsChain (w.Forwards call) (x :: path))
    (depth : Nat) (trace : Array Event) :
    answer lang (depth + path.length) (.invoke x call) { w with trace } =
      answer lang depth (.invoke ((x :: path).getLast (List.cons_ne_nil x path)) call)
        { w with trace := trace ++ w.delegations call path } := by
  induction path generalizing x trace with
  | nil => simp [World.delegations]
  | cons t rest ih =>
    obtain ⟨forwards, onward⟩ := List.isChain_cons_cons.mp chain
    let passed : Event := .delegating call.method (w.typeName t)
    have step : answer lang (depth + rest.length + 1) (.invoke x call) { w with trace } =
        answer lang (depth + rest.length) (.invoke t call) { w with trace := trace.push passed } :=
      answer_invoke_forwards lang (depth + rest.length) call forwards
    have all : trace.push passed ++ w.delegations call rest =
        trace ++ w.delegations call (t :: rest) := List.push_append_toArray
    rw [List.length_cons, ← Nat.add_assoc, step, ih t onward, all]
    rfl

/-- A call that a reference delegates comes to what the call on the target does, from the world that the
dereference leaves and with one more event in the trace; if the dereference fails, so does the call, and
whatever calls on targets come to plays no part. Along a chain of references that have their targets the
call comes to what it does at the end of the chain, from the same world, whatever its containers, marks
and flags are. -/
theorem calls_transparent (lang : Language C S) (w : World C S) (reachable : Reachable w)
    (call : Call BeanId) :
    (∀ x r depth, w.bean? x = some (.early r) → r.routes.route call.method = .delegate →
      (∀ t w₁, answer lang (depth + 1) (.dereference x) w = some (.ok t, w₁) →
        answer lang (depth + 1) (.invoke x call) w =
          (answer lang depth (.invoke t call) w₁).map fun (o, v) =>
            (o, v.inserting w₁.trace.size #[.delegating call.method (w₁.typeName t)])) ∧
      (∀ (fault : Fault) w₁, answer lang (depth + 1) (.dereference x) w = some (fault.outcome, w₁) →
        answer lang (depth + 1) (.invoke x call) w = some (fault.outcome, w₁) ∧
        ∀ ask, serve lang (lang.user (answer lang depth)) ask (.invoke x call) w =
          some (fault.outcome, w₁)) ∧
      (answer lang (depth + 1) (.dereference x) w = none →
        answer lang (depth + 1) (.invoke x call) w = none)) ∧
    ∀ x path, List.IsChain (w.PassesOn call) (x :: path) →
      ∀ (w' : World C S), w'.beans = w.beans → ∀ depth,
        answer lang (depth + path.length) (.invoke x call) w' =
          (answer lang depth (.invoke ((x :: path).getLast (List.cons_ne_nil x path)) call) w').map
            fun (o, v) => (o, v.inserting w'.trace.size (w'.delegations call path)) := by
  refine ⟨fun x r depth early delegated => ?_, fun x path chain w' beans depth => ?_⟩
  · let user : UserCode C S := lang.user (answer lang depth)
    have invoked (ask : (q : Request C) → Run C S q.Answer) :
        serve lang user ask (.invoke x call) w =
          (Bean.dereference user x >>= Reference.passOn ask call) w :=
      Bean.invoke_delegated user ask x r call w early delegated
    refine ⟨fun t w₁ h => ?_, fun fault w₁ h => ?_, fun h => ?_⟩
    · have passed : w₁.record (.delegating call.method (w₁.typeName t)) =
          { w₁ with trace := w₁.trace ++ #[.delegating call.method (w₁.typeName t)] } := by
        simp [World.record]
      rw [← answer_inserting, ← passed]
      exact (invoked (answer lang depth)).trans (Run.bind_ok _ _ w w₁ t h)
    · have failed (ask : (q : Request C) → Run C S q.Answer) :
          serve lang user ask (.invoke x call) w = some (fault.outcome, w₁) :=
        (invoked ask).trans (Run.bind_fault _ _ w w₁ fault h)
      exact ⟨failed (answer lang depth), failed⟩
    · exact (invoked (answer lang depth)).trans (Run.bind_none _ _ w h)
  · have forwards (y t : BeanId) (h : w.PassesOn call y t) : w'.Forwards call y t := by
      obtain ⟨r, early, resolved, delegated, dereference⟩ := reachable.forwards h
      refine ⟨r, ?_, resolved, delegated, dereference⟩
      rwa [World.bean?, beans]
    rw [← answer_inserting]
    exact answer_chain lang call w' path x (chain.imp forwards) depth w'.trace

/-- User code whose beans answer every call with the name of the method. -/
def echoing (name : String) : Language Unit Unit where
  run _
    | .make _ => .request (.create (.interface name) ())
    | .invoke _ call => .done (.ok (.str call.method))
    | _ => .fail (.illegalState name)
  describe _ := name

/-- Refers to a bean, refers to the reference under another name, and dereferences both. -/
def doublyAliased (c : ContainerId) (name other : String) : Program Unit Unit BeanId := do
  let type : BeanType := .interface name
  .request (.define c { name, type, factory := () })
  let status ← .request .newStatus
  let inner ← .request (.createMethodProxy ⟨.container c, status⟩ type ⟨name, some type⟩)
  .request (.registerSingleton c other inner)
  let outer ← .request (.createMethodProxy ⟨.container c, status⟩ type ⟨other, some type⟩)
  let _ ← .request (.dereference outer)
  .request (.dereference inner)

theorem calls_transparent_doublyAliased : ∃ w,
    (doublyAliased ⟨0⟩ "b" "a").interpret (answer (echoing "b") 2) (.initial ()) =
      some (.ok ⟨2⟩, w) ∧
    answer (echoing "b") 3 (.invoke ⟨1⟩ ⟨"run", []⟩) w =
      some (.ok (.str "run"),
        w.inserting w.trace.size #[.delegating "run" "b", .delegating "run" "b"]) := by
  obtain ⟨w, r, r', run, outer, plain, resolved, delegated, inner, plain', resolved', delegated',
      events, last⟩ :
      ∃ w r r', (doublyAliased ⟨0⟩ "b" "a").interpret (answer (echoing "b") 2) (.initial ()) =
          some (.ok ⟨2⟩, w) ∧
        w.bean? ⟨1⟩ = some (.early r) ∧ r.type.allMethods = [] ∧ r.resolved = some ⟨0⟩ ∧
        r.routes.route "run" = .delegate ∧
        w.bean? ⟨0⟩ = some (.early r') ∧ r'.type.allMethods = [] ∧ r'.resolved = some ⟨2⟩ ∧
        r'.routes.route "run" = .delegate ∧
        w.delegations ⟨"run", []⟩ [⟨0⟩, ⟨2⟩] =
          #[.delegating "run" "b", .delegating "run" "b"] ∧
        answer (echoing "b") 1 (.invoke ⟨2⟩ ⟨"run", []⟩) w = some (.ok (.str "run"), w) :=
    ⟨_, _, _, rfl, rfl, rfl, rfl, rfl, rfl, rfl, rfl, rfl, rfl, rfl⟩
  have reachable : Reachable w := by
    obtain ⟨moments, h⟩ := history_of_interpret run
    exact ⟨_, _, _, _, _, _, w, moments, h, by simp⟩
  have chain : List.IsChain (w.PassesOn ⟨"run", []⟩) [⟨1⟩, ⟨0⟩, ⟨2⟩] := by
    simp only [List.isChain_cons_cons, List.isChain_singleton, and_true]
    exact ⟨⟨r, outer, .of_plain plain, resolved, delegated⟩,
      ⟨r', inner, .of_plain plain', resolved', delegated'⟩⟩
  have through := (calls_transparent (echoing "b") w reachable ⟨"run", []⟩).2 ⟨1⟩ [⟨0⟩, ⟨2⟩] chain
    w rfl 1
  refine ⟨w, run, through.trans ?_⟩
  rw [events]
  exact congrArg (Option.map _) last

end Wiring
