import Wiring.Proofs.Depth
import Wiring.Proofs.Dereference
import Wiring.Proofs.Flag

namespace Wiring

variable {C S α : Type} {lang : Language C S} {own : Reach}

/-- Answers a request like `answer`, as long as neither it nor any request that user code makes on the way
touches what is out of reach. -/
def confined (lang : Language C S) (own : Reach) : Nat → (q : Request C) → Run C S q.Answer
  | 0, _ => fun _ => none
  | depth + 1, q => fun w =>
    if own.request w q then
      serve lang (lang.user (confined lang own depth)) (confined lang own depth) q w
    else none

theorem confined_reach {depth : Nat} {q : Request C} {w : World C S} (reach : own.request w q = true) :
    confined lang own (depth + 1) q w =
      serve lang (lang.user (confined lang own depth)) (confined lang own depth) q w := if_pos reach

theorem confined_cases {depth : Nat} {q : Request C} {w v : World C S} {o : Outcome q.Answer}
    (h : confined lang own (depth + 1) q w = some (o, v)) : own.request w q = true ∧
      serve lang (lang.user (confined lang own depth)) (confined lang own depth) q w = some (o, v) := by
  by_cases reach : own.request w q = true
  · exact ⟨reach, (confined_reach reach).symm.trans h⟩
  · have stopped : confined lang own (depth + 1) q w = none := if_neg reach
    cases stopped.symm.trans h

theorem confined_below (lang : Language C S) (own : Reach) (depth : Nat) (q : Request C) :
    Run.Below (confined lang own depth q) (answer lang depth q) := by
  induction depth generalizing q with
  | zero => exact fun _ _ h => nomatch h
  | succ depth ih =>
    rintro w ⟨o, v⟩ h
    exact serve_below (fun code e => (lang.run code e).interpret_below ih) ih q w _ (confined_cases h).2

/-- What is out of reach is as it was. -/
structure Spared (own : Reach) (w w' : World C S) : Prop where
  flags : ∀ s, own.flags s = false → w'.creatingProxies s = w.creatingProxies s
  containers : ∀ c, own.containers c = false → w'.container c = w.container c

namespace Spared

variable {w w' : World C S}

theorem refl (own : Reach) (w : World C S) : Spared own w w := ⟨fun _ _ => rfl, fun _ _ => rfl⟩

theorem setContainer (h : Spared own w w') {c : ContainerId} (hc : own.containers c = true)
    (k : Container C) : Spared own w (w'.setContainer c k) where
  flags := h.flags
  containers c' hc' := by
    have other : c' ≠ c := by
      rintro rfl
      exact Bool.noConfusion (hc.symm.trans hc')
    rw [World.container_setContainer, if_neg other]
    exact h.containers c' hc'

theorem setCreatingProxies (h : Spared own w w') {s : StatusId} (hs : own.flags s = true)
    (value : Bool) : Spared own w (w'.setCreatingProxies s value) where
  flags s' hs' := by
    have other : s' ≠ s := by
      rintro rfl
      exact Bool.noConfusion (hs.symm.trans hs')
    rw [World.creatingProxies_other w' value other]
    exact h.flags s' hs'
  containers := h.containers

theorem newStatus (h : Spared own w w') :
    Spared own w { w' with statuses := w'.statuses.push {} } where
  flags s hs := (w'.creatingProxies_newStatus s).trans (h.flags s hs)
  containers := h.containers

end Spared

/-- The worlds differ at most in what is out of reach. -/
structure Alike (own : Reach) (w w' : World C S) : Prop extends Apart own w w' where
  trace : w'.trace = w.trace
  /-- With all containers in reach they are the same. -/
  whole : (∀ c, own.containers c = true) → w'.containers = w.containers

namespace Alike

variable {w w' : World C S}

theorem setContainer (h : Alike own w w') (c : ContainerId) (k : Container C) :
    Alike own (w.setContainer c k) (w'.setContainer c k) := by
  obtain ⟨_, _, _, rfl⟩ := h.rest
  refine ⟨⟨⟨_, _, _, rfl⟩, h.size, h.flags, fun c' hc' => ?_⟩, h.trace, fun all => ?_⟩
  · rw [World.container_setContainer, World.container_setContainer]
    split
    · rfl
    · exact h.containers c' hc'
  · exact congrArg (·.insert c k) (h.whole all)

theorem setCreatingProxies (h : Alike own w w') (s : StatusId) (value : Bool) :
    Alike own (w.setCreatingProxies s value) (w'.setCreatingProxies s value) := by
  have size := h.size
  have flags := h.flags
  obtain ⟨_, _, _, rfl⟩ := h.rest
  refine ⟨⟨⟨_, _, _, rfl⟩, ?_, fun s' hs' => ?_, h.containers⟩, h.trace, h.whole⟩
  · rwa [World.size_setCreatingProxies, World.size_setCreatingProxies]
  · by_cases e : s' = s
    · subst e
      rw [World.creatingProxies_set, World.creatingProxies_set, size]
    · rw [World.creatingProxies_other _ value e, World.creatingProxies_other _ value e]
      exact flags s' hs'

theorem newStatus (h : Alike own w w') :
    Alike own { w with statuses := w.statuses.push {} } { w' with statuses := w'.statuses.push {} } := by
  have size := h.size
  have flags := h.flags
  obtain ⟨_, _, _, rfl⟩ := h.rest
  refine ⟨⟨⟨_, _, _, rfl⟩, ?_, fun s hs => ?_, h.containers⟩, h.trace, h.whole⟩
  · simp only [Array.size_push, size]
  · rw [World.creatingProxies_newStatus w s]
    exact (World.creatingProxies_newStatus _ s).trans (flags s hs)

end Alike

/-- Two runs after a while: the worlds differ at most in what is out of reach, and that is as it was. -/
structure Isolated (own : Reach) (start start' w w' : World C S) : Prop where
  alike : Alike own w w'
  spared : Spared own start w
  spared' : Spared own start' w'

/-- A change of what belongs to all. -/
theorem Isolated.elsewhere {start start' w w' v v' : World C S} (h : Isolated own start start' w w')
    (rest : ∃ containers statuses trace, v' = { v with containers, statuses, trace })
    (statuses : v.statuses = w.statuses) (statuses' : v'.statuses = w'.statuses)
    (containers : v.containers = w.containers) (containers' : v'.containers = w'.containers)
    (trace : v'.trace = v.trace) : Isolated own start start' v v' := by
  have flag (s : StatusId) : v.creatingProxies s = w.creatingProxies s :=
    World.creatingProxies_congr s statuses
  have flag' (s : StatusId) : v'.creatingProxies s = w'.creatingProxies s :=
    World.creatingProxies_congr s statuses'
  have container (c : ContainerId) : v.container c = w.container c := by
    rw [World.container, containers, World.container]
  have container' (c : ContainerId) : v'.container c = w'.container c := by
    rw [World.container, containers', World.container]
  obtain ⟨alike, spared, spared'⟩ := h
  refine ⟨⟨⟨rest, ?_, fun s hs => ?_, fun c hc => ?_⟩, trace, fun all => ?_⟩,
    ⟨fun s hs => ?_, fun c hc => ?_⟩, ⟨fun s hs => ?_, fun c hc => ?_⟩⟩
  · rw [statuses, statuses', alike.size]
  · rw [flag, flag', alike.flags s hs]
  · rw [container, container', alike.containers c hc]
  · rw [containers, containers', alike.whole all]
  · rw [flag, spared.flags s hs]
  · rw [container, spared.containers c hc]
  · rw [flag', spared'.flags s hs]
  · rw [container', spared'.containers c hc]

theorem Likeness.isolated (own : Reach) (start start' : World C S) :
    Likeness own (Isolated own start start') where
  apart _ _ h := h.alike.toApart
  recorded w _ e h := by
    have trace := h.alike.trace
    obtain ⟨_, _, _, rfl⟩ := h.alike.rest
    exact h.elsewhere ⟨_, _, _, rfl⟩ rfl rfl rfl rfl (congrArg (·.push e) trace)
  contained _ _ c k hc h :=
    ⟨h.alike.setContainer c k, h.spared.setContainer hc k, h.spared'.setContainer hc k⟩
  marked w _ marks h := by
    obtain ⟨_, _, _, rfl⟩ := h.alike.rest
    exact h.elsewhere ⟨_, _, _, rfl⟩ rfl rfl rfl rfl h.alike.trace
  flagged _ _ s value hs h :=
    ⟨h.alike.setCreatingProxies s value, h.spared.setCreatingProxies hs value,
      h.spared'.setCreatingProxies hs value⟩
  newStatus _ _ h := ⟨h.alike.newStatus, h.spared.newStatus, h.spared'.newStatus⟩
  object w _ t code h := by
    obtain ⟨_, _, _, rfl⟩ := h.alike.rest
    exact h.elsewhere ⟨_, _, _, rfl⟩ rfl rfl rfl rfl h.alike.trace
  reference w _ k target h := by
    obtain ⟨_, _, _, rfl⟩ := h.alike.rest
    exact h.elsewhere ⟨_, _, _, rfl⟩ rfl rfl rfl rfl h.alike.trace
  pinned w _ b t _ h := by
    obtain ⟨_, _, _, rfl⟩ := h.alike.rest
    exact h.elsewhere ⟨_, _, _, rfl⟩ rfl rfl rfl rfl h.alike.trace

theorem Isolated.poked {start start' : World C S} (w w' : World C S) (s : S)
    (h : Isolated own start start' w w') :
    Isolated own start start' { w with user := s } { w' with user := s } := by
  obtain ⟨_, _, _, rfl⟩ := h.alike.rest
  exact h.elsewhere ⟨_, _, _, rfl⟩ rfl rfl rfl rfl h.alike.trace

/-- What a confined request comes to in the one run, it comes to in the other, confined or not. -/
theorem confined_simulated (lang : Language C S) (own : Reach) (start start' : World C S) (depth : Nat) :
    AsksSimulated (Isolated own start start') (confined lang own depth) (answer lang depth) := by
  have likeness := Likeness.isolated own start start'
  induction depth with
  | zero => exact fun q w w' _ o v hv => nomatch hv
  | succ depth ih =>
    have calls : CallsSimulated (Isolated own start start') (lang.user (confined lang own depth))
        (lang.user (answer lang depth)) :=
      fun code e w w' h => (lang.run code e).interpret_simulated likeness Isolated.poked ih h
    intro q w w' h o v hv
    obtain ⟨reach, served⟩ := confined_cases hv
    exact serve_simulated likeness calls ih q reach h o v served

/-- A confined request leaves what is out of reach as it is, and comes to the same wherever that is
different. -/
theorem confined_isolated {depth : Nat} {q : Request C} {w v : World C S} {o : Outcome q.Answer}
    (h : confined lang own depth q w = some (o, v)) {w' : World C S} (alike : Alike own w w') :
    ∃ v', answer lang depth q w' = some (o, v') ∧ Isolated own w w' v v' :=
  confined_simulated lang own w w' depth q w w' ⟨alike, .refl own w, .refl own w'⟩ o v h

/-- By these moments user code has obtained a reference from a creator: by asking for one, from a pass with this
creator as a parameter of a feature body or in place of a bean, or by a producer call on one obtained before. -/
inductive Obtained (k : Creator C) (moments : List (Moment C S)) : BeanId → Prop where
  | proxy (d : Dependency) (b : BeanId) (w w' : World C S)
      (answered : Moment.answered (.createProxy k d) w (.ok b) w' ∈ moments) : Obtained k moments b
  | methodProxy (declaring : BeanType) (m : Method BeanType) (b : BeanId) (w w' : World C S)
      (answered : Moment.answered (.createMethodProxy k declaring m) w (.ok b) w' ∈ moments) :
      Obtained k moments b
  | parameter (code : C) (ctx : Context C) (args : List BeanId) (b : BeanId) (w : World C S)
      (own : ctx.processor.creator = k) (proxied : ctx.processor.settings.proxyFeatureParameters = true)
      (entered : Moment.entered code (.body ctx args) w ∈ moments) (mem : b ∈ args) : Obtained k moments b
  | forwarded (ctx : Context C) (name : String) (b : BeanId) (w w' : World C S)
      (own : ctx.processor.creator = k) (forward : w.creatingProxies ctx.processor.status = true)
      (answered : Moment.answered (.beanMethod ctx name) w (.ok b) w' ∈ moments) : Obtained k moments b
  | forwardedOn (ctx : Context C) (configuration name : String) (b : BeanId) (w w' : World C S)
      (own : ctx.processor.creator = k) (forward : w.creatingProxies ctx.processor.status = true)
      (answered : Moment.answered (.beanMethodOn ctx configuration name) w (.ok b) w' ∈ moments) :
      Obtained k moments b
  | produced (x : BeanId) (r : EarlyReference C) (call : Call BeanId) (m : Method BeanType) (b : BeanId)
      (w w' : World C S) (obtained : Obtained k moments x) (early : w.bean? x = some (.early r))
      (producer : r.routes.route call.method = .produce m)
      (answered : Moment.answered (.invoke x call) w (.ok (.bean b)) w' ∈ moments) : Obtained k moments b
  | dereferenced (x : BeanId) (r : EarlyReference C) (m : Method BeanType) (b : BeanId)
      (w w' : World C S) (obtained : Obtained k moments x) (early : w.bean? x = some (.early r))
      (producer : r.routes.route dereferenceMethod = .produce m)
      (answered : Moment.answered (.dereference x) w (.ok b) w' ∈ moments) : Obtained k moments b

namespace Reference

variable {user : UserCode C S} {ask : (q : Request C) → Run C S q.Answer} {x b : BeanId}
  {r : EarlyReference C} {m : Method BeanType} {w w' : World C S}

theorem bound_of_invoke {call : Call BeanId} (producer : r.routes.route call.method = .produce m)
    (h : invoke user ask x r call w = some (.ok (.bean b), w')) : w'.Bound r.creator b := by
  simp only [invoke, producer, onRoute] at h
  exact bound_of_produce h

theorem bound_of_dereference (producer : r.routes.route dereferenceMethod = .produce m)
    (h : dereference user x r w = some (.ok b, w')) : w'.Bound r.creator b := by
  simp only [dereference, producer, onRoute] at h
  obtain ⟨v, w₁, made, taken⟩ := Run.ok_of_bind _ _ _ _ _ h
  cases v with
  | bean =>
    cases taken
    exact bound_of_produce made
  | unit | bool | int | str => cases taken

end Reference

section Obtained

variable {depth : Nat} {p : Program C S α} {w w' : World C S} {o : Outcome α}
  {moments : List (Moment C S)} (h : p.history lang depth w = some (o, w', moments))

include h

/-- What a request is answered with, and that its answer is a moment of the run. -/
private theorem answer_of_moment {q : Request C} {before after : World C S} {a : Outcome q.Answer}
    (answered : Moment.answered q before a after ∈ moments) :
    (∃ depth, answer lang (depth + 1) q before = some (a, after)) ∧ Later after w' := by
  obtain ⟨_, depth', ha⟩ := history_holds h _ answered
  refine ⟨?_, history_later_moment h answered⟩
  cases depth' with
  | zero => cases ha
  | succ depth' => exact ⟨depth', ha⟩

theorem Obtained.bound {k : Creator C} {b : BeanId} (hb : Obtained k moments b) : w'.Bound k b := by
  induction hb with
  | proxy d b before after answered =>
    obtain ⟨⟨_, ha⟩, later⟩ := answer_of_moment h answered
    exact (Reference.bound_of_createProxy ha).later later
  | methodProxy declaring m b before after answered =>
    obtain ⟨⟨_, ha⟩, later⟩ := answer_of_moment h answered
    exact (Reference.bound_of_createMethodProxy ha).later later
  | parameter code ctx args b v own proxied entered mem =>
    obtain ⟨_, given⟩ := history_holds h _ entered
    exact own ▸ (given proxied b mem).later (history_later_moment h entered)
  | forwarded ctx name b before after own forward answered =>
    obtain ⟨⟨_, ha⟩, later⟩ := answer_of_moment h answered
    exact own ▸ (Bootstrap.bound_of_callProducer forward ha).later later
  | forwardedOn ctx configuration name b before after own forward answered =>
    obtain ⟨⟨_, ha⟩, later⟩ := answer_of_moment h answered
    exact own ▸ (Bootstrap.bound_of_callProducerOn forward ha).later later
  | produced x r call m b before after _ early producer answered ih =>
    obtain ⟨⟨_, ha⟩, later⟩ := answer_of_moment h answered
    obtain rfl := ih.creator ((answer_later ha).trans later) early
    change Bean.invoke _ _ x call before = _ at ha
    rw [Bean.invoke_early _ _ x r call before early] at ha
    exact (Reference.bound_of_invoke producer ha).later later
  | dereferenced x r m b before after _ early producer answered ih =>
    obtain ⟨⟨_, ha⟩, later⟩ := answer_of_moment h answered
    obtain rfl := ih.creator ((answer_later ha).trans later) early
    change Bean.dereference _ x before = _ at ha
    rw [Bean.dereference_early _ x r before early] at ha
    exact (Reference.bound_of_dereference producer ha).later later

end Obtained

/-- Requests that run no user code: they make a reference, and look at no flag but one in reach. -/
inductive Request.Refers (own : Reach) (w : World C S) : Request C → Prop where
  | proxy (k : Creator C) (d : Dependency) : Refers own w (.createProxy k d)
  | methodProxy (k : Creator C) (declaring : BeanType) (m : Method BeanType) :
      Refers own w (.createMethodProxy k declaring m)
  | produced (x : BeanId) (r : EarlyReference C) (call : Call BeanId) (m : Method BeanType)
      (early : w.bean? x = some (.early r)) (producer : r.routes.route call.method = .produce m)
      (flag : own.flags r.creator.status = true) : Refers own w (.invoke x call)
  | dereferenced (x : BeanId) (r : EarlyReference C) (m : Method BeanType)
      (early : w.bean? x = some (.early r)) (producer : r.routes.route dereferenceMethod = .produce m)
      (flag : own.flags r.creator.status = true) : Refers own w (.dereference x)

/-- A producer call looks at the flag of the reference only. -/
theorem Reach.onBean_of_producer {w : World C S} {x : BeanId} {r : EarlyReference C} {m : Method BeanType}
    {method : String} (early : w.bean? x = some (.early r)) (producer : r.routes.route method = .produce m)
    (flag : own.flags r.creator.status = true) : Reach.request.onBean own w x method = true := by
  simp only [Reach.request.onBean, early, Reach.call, producer, Reach.route, flag]

theorem confined_of_refers {q : Request C} {w : World C S} (h : q.Refers own w) (depth : Nat) :
    confined lang own (depth + 1) q w = answer lang (depth + 1) q w := by
  cases h with
  | proxy | methodProxy => rfl
  | produced x r call m early producer flag =>
    have reach : own.request w (.invoke x call) = true := Reach.onBean_of_producer early producer flag
    rw [confined_reach reach]
    change Bean.invoke _ _ x call w = Bean.invoke _ _ x call w
    rw [Bean.invoke_early _ _ x r call w early, Bean.invoke_early _ _ x r call w early]
    simp only [Reference.invoke, producer, Reference.onRoute]
  | dereferenced x r m early producer flag =>
    have reach : own.request w (.dereference x) = true := Reach.onBean_of_producer early producer flag
    rw [confined_reach reach]
    change Bean.dereference _ x w = Bean.dereference _ x w
    rw [Bean.dereference_early _ x r w early, Bean.dereference_early _ x r w early]
    simp only [Reference.dereference, producer, Reference.onRoute]

theorem Reach.request_of_bound {w : World C S} {k : Creator C} {b : BeanId} (bound : w.Bound k b)
    (creator : own.creator k = true) (pins : own.pins b = true) :
    (∀ call, own.request w (.invoke b call) = true) ∧ own.request w (.dereference b) = true := by
  obtain ⟨r, early, rfl⟩ := bound
  have onBean (method : String) : Reach.request.onBean own w b method = true := by
    simp only [Reach.request.onBean, early]
    exact call_of_creator pins creator method
  exact ⟨fun call => onBean call.method, onBean dereferenceMethod⟩

/-- Only flags are out of reach. -/
theorem confined_flags {flags : StatusId → Bool} {depth : Nat} {q : Request C} {w v : World C S}
    {o : Outcome q.Answer} (h : confined lang { flags } depth q w = some (o, v))
    (statuses : Array ForwardMode) (size : statuses.size = w.statuses.size)
    (same : ∀ s, flags s = true →
      { w with statuses := statuses }.creatingProxies s = w.creatingProxies s) :
    ∃ statuses', answer lang depth q { w with statuses } = some (o, { v with statuses := statuses' }) ∧
      statuses'.size = v.statuses.size ∧ ∀ s, { v with statuses := statuses' }.creatingProxies s =
        if flags s then v.creatingProxies s else { w with statuses := statuses }.creatingProxies s := by
  have alike : Alike { flags } w { w with statuses } :=
    ⟨⟨⟨_, _, _, rfl⟩, size, same, fun _ _ => rfl⟩, rfl, fun _ => rfl⟩
  obtain ⟨v', ha, alike', _, spared⟩ := confined_isolated h alike
  have trace := alike'.trace
  have containers := alike'.whole fun _ => rfl
  have size' := alike'.size
  have flags' := alike'.flags
  obtain ⟨_, statuses', _, rfl⟩ := alike'.rest
  cases trace
  cases containers
  refine ⟨statuses', ha, size', fun s => ?_⟩
  cases hs : flags s with
  | true => exact flags' s hs
  | false => exact spared.flags s hs

/-- In every run, from whatever world, each reference obtained from a creator is bound to that creator as
long as there is one. Making references and producer calls on them look at no flag but the creator's own;
a dereference looks for the target in the creator's registry, under the creator's flag, and a pass works on
the container and the flag of its processor. All else may be different, if user code does not touch it: the
answer is the same, and what is different stays as it is. -/
theorem passes_isolated (lang : Language C S) (depth : Nat) (p : Program C S α) (w w' : World C S)
    (o : Outcome α) (moments : List (Moment C S))
    (run : p.history lang depth w = some (o, w', moments)) :
    (∀ k b, Obtained k moments b → w'.Bound k b ∧
      ∀ v ∈ w :: moments.map Moment.world ++ [w'], (v.bean? b).isSome → v.Bound k b) ∧
    (∀ (own : Reach) (v : World C S),
      (∀ depth q, q.Refers own v →
        confined lang own (depth + 1) q v = answer lang (depth + 1) q v) ∧
      (∀ k b, v.Bound k b → own.creator k = true → own.pins b = true →
        (∀ call, own.request v (.invoke b call) = true) ∧ own.request v (.dereference b) = true) ∧
      ∀ p, own.processor p = true → own.request v (.process p) = true) ∧
    (∀ own depth q a v u, confined lang own depth q v = some (a, u) →
      answer lang depth q v = some (a, u) ∧
      ∀ v', Alike own v v' → ∃ u', answer lang depth q v' = some (a, u') ∧ Isolated own v v' u u') ∧
    ∀ flags depth q a v u, confined lang { flags } depth q v = some (a, u) →
      ∀ statuses : Array ForwardMode, statuses.size = v.statuses.size →
      (∀ s, flags s = true → { v with statuses := statuses }.creatingProxies s = v.creatingProxies s) →
      ∃ statuses', answer lang depth q { v with statuses } = some (a, { u with statuses := statuses' }) ∧
        statuses'.size = u.statuses.size ∧ ∀ s, { u with statuses := statuses' }.creatingProxies s =
          if flags s then u.creatingProxies s else { v with statuses := statuses }.creatingProxies s := by
  refine ⟨fun k b obtained => ?_, fun own v => ⟨?_, ?_, fun _ h => h⟩, ?_, ?_⟩
  · have bound := obtained.bound run
    refine ⟨bound, fun v hv present => ?_⟩
    obtain ⟨x, hx⟩ := Option.isSome_iff_exists.mp present
    exact ((history_later_final run hv).bound_iff hx).mp bound
  · exact fun depth q refers => confined_of_refers refers depth
  · exact fun k b bound creator pins => Reach.request_of_bound bound creator pins
  · intro own depth q a v u h
    exact ⟨confined_below lang own depth q v _ h, fun v' alike => confined_isolated h alike⟩
  · intro flags depth q a v u h statuses size same
    exact confined_flags h statuses size same

/-- A container with one definition, and two flags that are off. -/
def twoFlags (c : ContainerId) (name : String) : World Unit Unit :=
  { (World.initial ()).define c { name, type := .interface name, factory := () } with
    statuses := #[{}, {}] }

theorem passes_isolated_twoFlags : ∃ w' moments u statuses',
    (Program.request (.createProxy ⟨.container ⟨0⟩, ⟨0⟩⟩ ⟨.interface "a", none⟩)).history
      (selfRegistering "a") 1 (twoFlags ⟨0⟩ "a") = some (.ok ⟨0⟩, w', moments) ∧
    w'.Bound ⟨.container ⟨0⟩, ⟨0⟩⟩ ⟨0⟩ ∧
    answer (selfRegistering "a") 2 (.dereference ⟨0⟩) w' = some (.ok ⟨1⟩, u) ∧
    answer (selfRegistering "a") 2 (.dereference ⟨0⟩) { w' with statuses := #[{}, ⟨true⟩] } =
      some (.ok ⟨1⟩, { u with statuses := statuses' }) ∧
    { u with statuses := statuses' }.creatingProxies ⟨1⟩ = true := by
  let k : Creator Unit := ⟨.container ⟨0⟩, ⟨0⟩⟩
  let d : Dependency := ⟨.interface "a", none⟩
  have run : ∃ w' m before after u,
      (Program.request (.createProxy k d)).history (selfRegistering "a") 1 (twoFlags ⟨0⟩ "a") =
        some (.ok ⟨0⟩, w', [m, .answered (.createProxy k d) before (.ok ⟨0⟩) after]) ∧
      w'.statuses = #[{}, {}] ∧
      confined (selfRegistering "a") { flags := (· == ⟨0⟩) } 2 (.dereference ⟨0⟩) w' =
        some (.ok ⟨1⟩, u) := ⟨_, _, _, _, _, rfl, rfl, rfl⟩
  obtain ⟨w', m, before, after, u, run, statuses, answered⟩ := run
  obtain ⟨bound, _, isolated, flags⟩ := passes_isolated _ _ _ _ _ _ _ run
  have obtained : Obtained k [m, .answered (.createProxy k d) before (.ok ⟨0⟩) after] ⟨0⟩ :=
    .proxy d ⟨0⟩ before after (by simp)
  obtain ⟨statuses', other, _, same⟩ := flags (· == ⟨0⟩) 2 _ _ w' u answered #[{}, ⟨true⟩]
    (by rw [statuses]; rfl) fun s hs => by
      obtain rfl := eq_of_beq hs
      simp [World.creatingProxies, statuses]
  exact ⟨w', _, u, statuses', run, (bound k ⟨0⟩ obtained).1, (isolated _ _ _ _ _ _ answered).1, other,
    (same ⟨1⟩).trans rfl⟩

end Wiring
