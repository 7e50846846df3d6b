import Wiring.Library
import Wiring.Proofs.Lookup

namespace Wiring

variable {C S α β : Type}

/-- What the first computation comes to from the one world, the second comes to from the other. -/
def Simulated (A : World C S → World C S → Prop) (r r' : Run C S α) (w w' : World C S) : Prop :=
  ∀ o v, r w = some (o, v) → ∃ v', r' w' = some (o, v') ∧ A v v'

/-- What computations may touch: beans that may be given their targets, flags and containers. -/
structure Reach where
  pins : BeanId → Bool := fun _ => true
  flags : StatusId → Bool := fun _ => true
  containers : ContainerId → Bool := fun _ => true

/-- All that there is. -/
def Reach.all : Reach := {}

/-- The worlds differ at most in their traces and in what is out of reach. -/
structure Apart (own : Reach) (w w' : World C S) : Prop where
  rest : ∃ containers statuses trace, w' = { w with containers, statuses, trace }
  size : w'.statuses.size = w.statuses.size
  flags : ∀ s, own.flags s = true → w'.creatingProxies s = w.creatingProxies s
  containers : ∀ c, own.containers c = true → w'.container c = w.container c

theorem Apart.of_trace (own : Reach) (w : World C S) (trace : Array Event) :
    Apart own w { w with trace } :=
  ⟨⟨_, _, trace, rfl⟩, rfl, fun _ _ => rfl, fun _ _ => rfl⟩

/-- A relation of worlds that the library's changes respect, those of what is in reach. -/
structure Likeness (own : Reach) (A : World C S → World C S → Prop) : Prop where
  apart : ∀ w w', A w w' → Apart own w w'
  recorded : ∀ w w' e, A w w' → A (w.record e) (w'.record e)
  contained : ∀ w w' c k, own.containers c = true → A w w' →
    A (w.setContainer c k) (w'.setContainer c k)
  marked : ∀ w w' marks, A w w' → A { w with marks } { w' with marks }
  flagged : ∀ w w' s value, own.flags s = true → A w w' →
    A (w.setCreatingProxies s value) (w'.setCreatingProxies s value)
  newStatus : ∀ w w', A w w' →
    A { w with statuses := w.statuses.push {} } { w' with statuses := w'.statuses.push {} }
  object : ∀ w w' t code, A w w' → A (w.addBean (.object t code)).2 (w'.addBean (.object t code)).2
  reference : ∀ w w' k target, A w w' →
    A (w.addBean (.early (.make k target))).2 (w'.addBean (.early (.make k target))).2
  pinned : ∀ w w' b t, own.pins b = true → A w w' → A (w.pin b t) (w'.pin b t)

/-- One world that has a property: what a computation keeps is how it simulates itself. -/
def Self (P : World C S → Prop) (w w' : World C S) : Prop := w' = w ∧ P w

theorem Simulated.kept {P : World C S → Prop} {r : Run C S α} {w v : World C S} {o : Outcome α}
    (h : Simulated (Self P) r r w w) (run : r w = some (o, v)) : P v := by
  obtain ⟨_, _, _, kept⟩ := h o v run
  exact kept

variable {own : Reach} {A : World C S → World C S → Prop} {w w' : World C S}

namespace Likeness

section Same

variable (hA : Likeness own A) (h : A w w')

include hA h

theorem container {c : ContainerId} (hc : own.containers c = true) :
    w'.container c = w.container c := (hA.apart w w' h).containers c hc

theorem flag {s : StatusId} (hs : own.flags s = true) :
    w'.creatingProxies s = w.creatingProxies s := (hA.apart w w' h).flags s hs

theorem beans : w'.beans = w.beans := by
  obtain ⟨_, _, _, rfl⟩ := (hA.apart w w' h).rest
  rfl

theorem marks : w'.marks = w.marks := by
  obtain ⟨_, _, _, rfl⟩ := (hA.apart w w' h).rest
  rfl

theorem user : w'.user = w.user := by
  obtain ⟨_, _, _, rfl⟩ := (hA.apart w w' h).rest
  rfl

theorem bean? (b : BeanId) : w'.bean? b = w.bean? b := by rw [World.bean?, hA.beans h, World.bean?]

theorem plainType : w'.plainType = w.plainType := by
  funext b
  rw [World.plainType, hA.bean? h, World.plainType]

theorem typeName : w'.typeName = w.typeName := by
  funext b
  rw [World.typeName, hA.bean? h, World.typeName]

end Same

variable (hA : Likeness own A)

include hA

theorem define (c : ContainerId) (r : Recipe C) (hc : own.containers c = true) (h : A w w') :
    A (w.define c r) (w'.define c r) := by
  have warned := hA.recorded w w' (.overridingDefinition r.name) h
  simp only [World.define, hA.container h hc]
  split
  · exact hA.contained _ _ _ _ hc (hA.recorded _ _ _ warned)
  · exact hA.contained _ _ _ _ hc (hA.recorded _ _ _ h)

theorem defineAll (c : ContainerId) (producers : List (Producer C)) (hc : own.containers c = true)
    (h : A w w') : A (Bootstrap.defineAll c producers w) (Bootstrap.defineAll c producers w') := by
  induction producers generalizing w w' with
  | nil => exact h
  | cons p rest ih => exact ih (hA.define c p.recipe hc h)

theorem accept (c : ContainerId) (serial : Nat) (b : BeanId) (hc : own.containers c = true)
    (h : A w w') : A (w.accept c serial b) (w'.accept c serial b) := by
  rw [World.accept, World.accept, hA.container h hc]
  exact hA.contained _ _ _ _ hc h

theorem bind (c : ContainerId) (n : String) (b : BeanId) (hc : own.containers c = true)
    (h : A w w') : A (w.bind c n b) (w'.bind c n b) := by
  rw [World.bind, World.bind, hA.container h hc]
  exact hA.contained _ _ _ _ hc (hA.recorded _ _ _ h)

theorem remember (c : ContainerId) (n : String) (hc : own.containers c = true) (h : A w w') :
    A (w.remember c n) (w'.remember c n) := by
  rw [World.remember, World.remember, hA.container h hc]
  exact hA.contained _ _ _ _ hc h

theorem mark (n : String) (h : A w w') : A (w.mark n) (w'.mark n) := by
  rw [World.mark, World.mark, hA.marks h]
  exact hA.marked _ _ _ h

theorem unmark (n : String) (h : A w w') : A (w.unmark n) (w'.unmark n) := by
  rw [World.unmark, World.unmark, hA.marks h]
  exact hA.marked _ _ _ h

end Likeness

namespace Simulated

theorem done (o : Outcome α) (h : A w w') : Simulated A (Run.done o) (Run.done o) w w' := by
  rintro _ _ ⟨⟩
  exact ⟨w', rfl, h⟩

theorem pure (a : α) (h : A w w') :
    Simulated A (Pure.pure a : Run C S α) (Pure.pure a) w w' := done (.ok a) h

theorem fail (e : Error) (h : A w w') :
    Simulated A (Run.fail e : Run C S α) (Run.fail e) w w' := done (.error e) h

theorem panic (text : String) (h : A w w') :
    Simulated A (Run.panic text : Run C S α) (Run.panic text) w w' := done (.panic text) h

theorem ofExcept (x : Except Error α) (h : A w w') :
    Simulated A (Run.ofExcept x : Run C S α) (Run.ofExcept x) w w' := by
  cases x with
  | ok a => exact done (.ok a) h
  | error e => exact done (.error e) h

theorem modify {f : World C S → World C S} (h : A (f w) (f w')) :
    Simulated A (Run.modify f) (Run.modify f) w w' := by
  rintro _ _ ⟨⟩
  exact ⟨f w', rfl, h⟩

theorem followedBy {r r' : Run C S α} {f f' : Outcome α → Run C S β} (h : Simulated A r r' w w')
    (k : ∀ o v v', A v v' → Simulated A (f o) (f' o) v v') :
    Simulated A (r.followedBy f) (r'.followedBy f') w w' := by
  intro o v hv
  obtain ⟨o₁, v₁, hr, hf⟩ := Run.followedBy_cases hv
  obtain ⟨v₁', hr', h₁⟩ := h o₁ v₁ hr
  obtain ⟨v', hf', hA⟩ := k o₁ v₁ v₁' h₁ o v hf
  exact ⟨v', (Run.followedBy_some r' f' w' v₁' o₁ hr').trans hf', hA⟩

theorem bind {r r' : Run C S α} {f f' : α → Run C S β} (h : Simulated A r r' w w')
    (k : ∀ a v v', A v v' → Simulated A (f a) (f' a) v v') :
    Simulated A (r >>= f) (r' >>= f') w w' := by
  refine followedBy h fun o v v' hv => ?_
  cases o with
  | ok a => exact k a v v' hv
  | error e => exact fail e hv
  | panic text => exact panic text hv

theorem ite {p : Prop} [Decidable p] {r₁ r₂ r₁' r₂' : Run C S α} (h₁ : Simulated A r₁ r₁' w w')
    (h₂ : Simulated A r₂ r₂' w w') :
    Simulated A (if p then r₁ else r₂) (if p then r₁' else r₂') w w' := by
  split
  · exact h₁
  · exact h₂

theorem cleanup {r r' : Run C S α} {f f' : World C S → World C S} (h : Simulated A r r' w w')
    (k : ∀ v v', A v v' → A (f v) (f' v')) :
    Simulated A (r.cleanup f) (r'.cleanup f') w w' := by
  intro o v hv
  obtain ⟨v₁, hr, rfl⟩ := Run.cleanup_cases hv
  obtain ⟨v₁', hr', h₁⟩ := h o v₁ hr
  exact ⟨f' v₁', Run.cleanup_some r' f' w' v₁' o hr', k v₁ v₁' h₁⟩

section Likeness

variable (hA : Likeness own A)

include hA

theorem record (e : Event) (h : A w w') : Simulated A (Run.record e) (Run.record e) w w' :=
  modify (hA.recorded w w' e h)

omit hA in
/-- What goes on from the world itself does not look at where the two worlds differ. -/
theorem get_bind {f f' : World C S → Run C S α} (blind : f' w' = f' w)
    (k : Simulated A (f w) (f' w) w w') : Simulated A (Run.get >>= f) (Run.get >>= f') w w' := by
  intro o v hv
  obtain ⟨v', hv', h⟩ := k o v hv
  rw [← blind] at hv'
  exact ⟨v', hv', h⟩

theorem bean_bind {f f' : Bean C → Run C S α} (b : BeanId) (h : A w w')
    (k : ∀ x, w.bean? b = some x → Simulated A (f x) (f' x) w w') :
    Simulated A (Run.bean b >>= f) (Run.bean b >>= f') w w' := by
  have same := hA.bean? h b
  intro o v hv
  cases hb : w.bean? b with
  | none =>
    rw [Run.bind_panic _ f w w _ (Run.bean_none b w hb)] at hv
    cases hv
    exact ⟨w', Run.bind_panic _ f' _ _ _ (Run.bean_none b w' (same.trans hb)), h⟩
  | some x =>
    rw [Run.bind_ok _ f w w x (Run.bean_some b x w hb)] at hv
    obtain ⟨v', hv', h'⟩ := k x hb o v hv
    exact ⟨v', (Run.bind_ok _ f' _ _ x (Run.bean_some b x w' (same.trans hb))).trans hv', h'⟩

theorem guarded (s : StatusId) (value : Bool) {r r' : Run C S α} (hs : own.flags s = true)
    (h : A w w')
    (k : Simulated A r r' (w.setCreatingProxies s value) (w'.setCreatingProxies s value)) :
    Simulated A (Run.guarded s value r) (Run.guarded s value r') w w' := by
  intro o v hv
  obtain ⟨v₁, hr, rfl⟩ := Run.guarded_cases hv
  obtain ⟨v₁', hr', h₁⟩ := k o v₁ hr
  refine ⟨_, Run.cleanup_some _ _ _ _ _ hr', ?_⟩
  rw [hA.flag h hs]
  exact hA.flagged _ _ s _ hs h₁

end Likeness

end Simulated

variable {lang : Language C S} {user user' : UserCode C S}
  {ask ask' : (q : Request C) → Run C S q.Answer}

namespace Reach

variable (own : Reach)

def registry : Registry C → Bool
  | .container c => own.containers c
  | .custom _ => true

/-- A creator within reach: its references look in a container in reach and obey a flag in reach. -/
def creator (k : Creator C) : Bool := own.flags k.status && own.registry k.registry

def processor (p : Processor C) : Bool := own.flags p.status && own.containers p.container

/-- What a reference touches on a route. -/
def route (b : BeanId) (r : EarlyReference C) : Route → Bool
  | .produce _ => own.flags r.creator.status
  | .object _ => true
  | .dereference | .delegate => own.pins b && (r.resolved.isSome || own.creator r.creator)

/-- What a reference touches in a call, before the call is passed on. -/
def call (b : BeanId) (r : EarlyReference C) (method : String) : Bool :=
  match r.routes.route method with
  | .delegate => own.route b r (r.routes.route dereferenceMethod)
  | other => own.route b r other

/-- What the library touches itself in answering a request, without the user code that it runs. -/
def request (w : World C S) : Request C → Bool
  | .define c _ | .registerSingleton c _ _ | .getBean c _ | .resolve c _ _ | .preinstantiate c
  | .container c | .execute c _ _ => own.containers c
  | .registerConfiguration p _ => own.containers p.container
  | .status s | .setStatus s _ => own.flags s
  | .process p => own.processor p
  | .beanMethod ctx _ | .beanMethodOn ctx _ _ => own.processor ctx.processor
  | .create _ _ | .bean _ | .newStatus | .createProxy _ _ | .createMethodProxy _ _ _ => true
  | .invoke b call => onBean w b call.method
  | .describe b => onBean w b describeMethod
  | .equals b _ => onBean w b equalsMethod
  | .hashCode b => onBean w b hashCodeMethod
  | .dereference b => onBean w b dereferenceMethod
where
  onBean (w : World C S) (b : BeanId) (method : String) : Bool :=
    match w.bean? b with
    | some (.early r) => own.call b r method
    | _ => true

variable {own}

theorem call_of_request {b : BeanId} {method : String} {r : EarlyReference C}
    (reach : request.onBean own w b method = true) (early : w.bean? b = some (.early r)) :
    own.call b r method = true := by
  simpa only [request.onBean, early] using reach

/-- With all containers every registry is within reach. -/
theorem registry_of_containers (h : ∀ c, own.containers c = true) (registry : Registry C) :
    own.registry registry = true := by
  cases registry with
  | container c => exact h c
  | custom code => rfl

/-- A reference of a creator within reach touches nothing else. -/
theorem route_of_creator {b : BeanId} {r : EarlyReference C} (pins : own.pins b = true)
    (creator : own.creator r.creator = true) (route : Route) : own.route b r route = true := by
  cases route with
  | produce m => exact (Bool.and_eq_true_iff.mp creator).1
  | object m => rfl
  | dereference | delegate => simp [Reach.route, pins, creator]

theorem call_of_creator {b : BeanId} {r : EarlyReference C} (pins : own.pins b = true)
    (creator : own.creator r.creator = true) (method : String) : own.call b r method = true := by
  unfold call
  split <;> exact route_of_creator pins creator _

theorem creator_all (k : Creator C) : all.creator k = true :=
  registry_of_containers (fun _ => rfl) k.registry

/-- All that there is is within reach. -/
theorem request_all (w : World C S) (q : Request C) : all.request w q = true := by
  have onBean (b : BeanId) (method : String) : request.onBean all w b method = true := by
    unfold request.onBean
    split
    · exact call_of_creator rfl (creator_all _) method
    · rfl
  cases q with
  | invoke | describe | equals | hashCode | dereference => exact onBean _ _
  | _ => rfl

end Reach

/-- All calls of user code are simulated. -/
def CallsSimulated (A : World C S → World C S → Prop) (user user' : UserCode C S) : Prop :=
  ∀ code e w w', A w w' → Simulated A (user code e) (user' code e) w w'

/-- All requests are. -/
def AsksSimulated (A : World C S → World C S → Prop) (ask ask' : (q : Request C) → Run C S q.Answer) :
    Prop := ∀ q w w', A w w' → Simulated A (ask q) (ask' q) w w'

namespace Lookup

section

variable (hA : Likeness own A)

include hA

theorem existing_simulated {r r' : Run C S BeanId} (h : Simulated A r r' w w') :
    Simulated A (existing r) (existing r') w w' :=
  .bind h fun b _ _ hv => .bean_bind hA b hv fun _ _ => .pure b hv

theorem marked_simulated (n : String) {r r' : Run C S α} (h : A w w')
    (k : Simulated A r r' (w.mark n) (w'.mark n)) :
    Simulated A (marked n r) (marked n r') w w' := by
  have marks := hA.marks h
  by_cases hm : w.marks.contains n = true
  · intro o v hv
    simp only [marked, marks, hm, if_true] at hv ⊢
    cases hv
    exact ⟨_, rfl, h⟩
  · have released : Simulated A (r.cleanup (·.unmark n)) (r'.cleanup (·.unmark n)) (w.mark n) _ :=
      .cleanup k fun v v' hv => hA.unmark n hv
    intro o v hv
    simp only [marked, marks, hm] at hv ⊢
    exact released o v hv

section Container

variable (c : ContainerId)

theorem accepted_simulated (d : Definition C) (b : BeanId)
    (hc : own.containers c = true := by trivial) (h : A w w') :
    Simulated A (accepted c d b) (accepted c d b) w w' := by
  refine .bean_bind hA b h fun x _ => .ite ?_ (.fail _ h)
  exact .bind (.modify (hA.accept c d.serial b hc h)) fun _ _ _ hv => .pure b hv

theorem keep_simulated (n : String) (b : BeanId) (hc : own.containers c = true := by trivial)
    (h : A w w') : Simulated A (keep c n b) (keep c n b) w w' := by
  have same := hA.container h hc
  intro o v hv
  cases hs : (w.container c).singleton? n with
  | some kept =>
    simp only [keep, same, hs] at hv ⊢
    cases hv
    exact ⟨_, rfl, h⟩
  | none =>
    simp only [keep, same, hs] at hv ⊢
    cases hv
    exact ⟨_, rfl, hA.bind c n b hc h⟩

theorem create_simulated (hu : CallsSimulated A user user') (d : Definition C)
    (hc : own.containers c = true := by trivial) (h : A w w') :
    Simulated A (create user c d) (create user' c d) w w' := by
  unfold create
  cases d.created with
  | some b => exact .pure b h
  | none =>
    refine marked_simulated hA d.name h (.bind (hu d.factory _ _ _ (hA.mark d.name h)) ?_)
    exact fun b v v' hv => accepted_simulated hA c d b hc hv

end Container

theorem getBean_simulated (hu : CallsSimulated A user user') (c : ContainerId) (n : String)
    (hc : own.containers c = true := by trivial) (h : A w w') :
    Simulated A (getBean user c n) (getBean user' c n) w w' := by
  refine .get_bind (by simp only [hA.container h hc]) ?_
  cases (w.container c).singleton? n with
  | some b => exact .pure b h
  | none =>
    cases (w.container c).definition? n with
    | none => exact .fail _ h
    | some d =>
      exact .bind (create_simulated hA c hu d hc h) fun b v v' hv => keep_simulated hA c n b hc hv

theorem resolve_simulated (hu : CallsSimulated A user user') (c : ContainerId) (d : Dependency)
    (requesting : Option String) (hc : own.containers c = true := by trivial) (h : A w w') :
    Simulated A (resolve user c d requesting) (resolve user' c d requesting) w w' := by
  refine .get_bind (by simp only [hA.container h hc, hA.plainType h]) ?_
  exact .bind (.ofExcept _ h) fun n v v' hv => getBean_simulated hA hu c n hc hv

theorem registerSingleton_simulated (c : ContainerId) (n : String) (b : BeanId)
    (hc : own.containers c = true := by trivial) (h : A w w') :
    Simulated A (registerSingleton c n b) (registerSingleton c n b) w w' := by
  refine .bean_bind hA b h fun _ _ => .get_bind (by simp only [hA.container h hc]) ?_
  exact .ite (.fail _ h) (.modify (hA.remember c n hc (hA.bind c n b hc h)))

theorem preinstantiateOne_simulated (hu : CallsSimulated A user user') (c : ContainerId) (n : String)
    (hc : own.containers c = true := by trivial) (h : A w w') :
    Simulated A (preinstantiateOne user c n) (preinstantiateOne user' c n) w w' := by
  refine .get_bind (by simp only [hA.container h hc]) (.ite ?_ (.pure () h))
  refine .bind (.record hA _ h) fun _ v v' hv => ?_
  exact .bind (getBean_simulated hA hu c n hc hv) fun _ _ _ hu => .pure () hu

theorem preinstantiateEach_simulated (hu : CallsSimulated A user user') (c : ContainerId)
    (names : List String) (hc : own.containers c = true := by trivial) (h : A w w') :
    Simulated A (preinstantiateEach user c names) (preinstantiateEach user' c names) w w' := by
  induction names generalizing w w' with
  | nil => exact .pure () h
  | cons n rest ih =>
    exact .bind (preinstantiateOne_simulated hA hu c n hc h) fun _ _ _ hv => ih hv

theorem preinstantiate_simulated (hu : CallsSimulated A user user') (c : ContainerId)
    (hc : own.containers c = true := by trivial) (h : A w w') :
    Simulated A (preinstantiate user c) (preinstantiate user' c) w w' :=
  .get_bind (by simp only [hA.container h hc]) (preinstantiateEach_simulated hA hu c _ hc h)

end

end Lookup

namespace Reference

section

variable (hA : Likeness own A)

include hA

theorem make_simulated (k : Creator C) (target : Target) (h : A w w') :
    Simulated A (make k target) (make k target) w w' := by
  have same : w'.beans.size = w.beans.size := by rw [hA.beans h]
  rintro _ _ ⟨⟩
  refine ⟨_, ?_, hA.reference _ _ k target (hA.recorded _ _ _ h)⟩
  simp only [make, World.addBean, World.record, same]

theorem createProxy_simulated (k : Creator C) (d : Dependency) (h : A w w') :
    Simulated A (createProxy k d) (createProxy k d) w w' :=
  .bind (.ofExcept _ h) fun _ _ _ hv => make_simulated hA k _ hv

theorem createMethodProxy_simulated (k : Creator C) (declaring : BeanType) (m : Method BeanType)
    (h : A w w') :
    Simulated A (createMethodProxy k declaring m) (createMethodProxy k declaring m) w w' :=
  .bind (.ofExcept _ h) fun target _ _ hv => make_simulated hA k target hv

theorem produce_simulated (r : EarlyReference C) (m : Method BeanType)
    (hs : own.flags r.creator.status = true := by trivial) (h : A w w') :
    Simulated A (produce r m) (produce r m) w w' := by
  refine .get_bind (by simp only [hA.flag h hs]) (.ite ?_ (.fail _ h))
  exact .bind (createMethodProxy_simulated hA _ _ m h) fun _ _ _ hv => .pure _ hv

theorem lookUp_simulated (hu : CallsSimulated A user user') (registry : Registry C) (target : Target)
    (hr : own.registry registry = true) (h : A w w') :
    Simulated A (lookUp user registry target) (lookUp user' registry target) w w' := by
  refine .bind (.record hA _ h) fun _ v v' hv => ?_
  match registry, target with
  | .container c, .dependency d => exact Lookup.resolve_simulated hA hu c d none hr hv
  | .container c, .named n _ => exact Lookup.getBean_simulated hA hu c n hr hv
  | .custom code, .dependency d => exact Lookup.existing_simulated hA (hu code _ _ _ hv)
  | .custom code, .named n _ => exact Lookup.existing_simulated hA (hu code _ _ _ hv)

theorem settle_simulated (b t : BeanId) (pins : own.pins b = true) (h : A w w') :
    Simulated A (settle b t) (settle b t) w w' := by
  have same := hA.bean? h b
  intro o v hv
  cases hk : (w.bean? b).bind fun x => x.early?.bind (·.resolved) with
  | some kept =>
    simp only [settle, same, hk] at hv ⊢
    cases hv
    exact ⟨_, rfl, h⟩
  | none =>
    simp only [settle, same, hk] at hv ⊢
    cases hv
    exact ⟨_, rfl, hA.pinned _ _ b t pins h⟩

theorem findTarget_simulated (hu : CallsSimulated A user user') (b : BeanId) (r : EarlyReference C)
    (reach : (own.pins b && (r.resolved.isSome || own.creator r.creator)) = true) (h : A w w') :
    Simulated A (findTarget user b r) (findTarget user' b r) w w' := by
  obtain ⟨pins, reach⟩ := Bool.and_eq_true_iff.mp reach
  unfold findTarget
  cases hr : r.resolved with
  | some t => exact .pure t h
  | none =>
    rw [hr] at reach
    obtain ⟨hs, hk⟩ := Bool.and_eq_true_iff.mp reach
    have search := Simulated.guarded hA r.creator.status false hs h (lookUp_simulated hA hu
      r.creator.registry r.target hk (hA.flagged _ _ r.creator.status false hs h))
    exact .bind search fun t v v' hv => settle_simulated hA b t pins hv

theorem onRoute_simulated (hu : CallsSimulated A user user') (b : BeanId) (r : EarlyReference C)
    (route : Route) (reach : own.route b r route = true) (h : A w w') :
    Simulated A (onRoute user b r route) (onRoute user' b r route) w w' := by
  cases route with
  | produce m => exact produce_simulated hA r m reach h
  | object m => exact .ofExcept _ h
  | dereference | delegate =>
    exact .bind (findTarget_simulated hA hu b r reach h) fun _ _ _ hv => .pure _ hv

theorem unexpected_simulated (method : String) (x : Value BeanId) (h : A w w') :
    Simulated A (unexpected method x : Run C S α) (unexpected method x) w w' :=
  .get_bind (by simp only [hA.typeName h]) (.fail _ h)

theorem dereference_simulated (hu : CallsSimulated A user user') (b : BeanId) (r : EarlyReference C)
    (reach : own.route b r (r.routes.route dereferenceMethod) = true) (h : A w w') :
    Simulated A (dereference user b r) (dereference user' b r) w w' := by
  refine .bind (onRoute_simulated hA hu b r _ reach h) fun x v v' hv => ?_
  cases x with
  | bean t => exact .pure t hv
  | unit | bool | int | str => exact unexpected_simulated hA _ _ hv

theorem invoke_simulated (hu : CallsSimulated A user user') (ha : AsksSimulated A ask ask')
    (b : BeanId) (r : EarlyReference C) (call : Call BeanId)
    (reach : own.call b r call.method = true) (h : A w w') :
    Simulated A (invoke user ask b r call) (invoke user' ask' b r call) w w' := by
  unfold invoke
  unfold Reach.call at reach
  cases hr : r.routes.route call.method with
  | produce | object | dereference =>
    rw [hr] at reach
    exact onRoute_simulated hA hu b r _ reach h
  | delegate =>
    rw [hr] at reach
    refine .bind (dereference_simulated hA hu b r reach h) fun t v v' hv => ?_
    refine .get_bind (by simp only [hA.typeName hv]) (.bind (.record hA _ hv) fun _ u u' hu => ?_)
    exact ha _ u u' hu

end

end Reference

namespace Bean

section

variable (hA : Likeness own A)

include hA

theorem invoke_simulated (hu : CallsSimulated A user user') (ha : AsksSimulated A ask ask')
    (b : BeanId) (call : Call BeanId) (reach : own.request w (.invoke b call) = true) (h : A w w') :
    Simulated A (invoke user ask b call) (invoke user' ask' b call) w w' := by
  refine .bean_bind hA b h fun x hx => ?_
  cases x with
  | object t code => exact hu code _ w w' h
  | early r => exact Reference.invoke_simulated hA hu ha b r call (Reach.call_of_request reach hx) h

theorem describe_simulated (hu : CallsSimulated A user user') (ha : AsksSimulated A ask ask')
    (b : BeanId) (reach : own.request w (.describe b) = true) (h : A w w') :
    Simulated A (describe user ask b) (describe user' ask' b) w w' := by
  refine .bean_bind hA b h fun x hx => ?_
  cases x with
  | object t code => exact .pure _ h
  | early r =>
    refine .bind (Reference.invoke_simulated hA hu ha b r _ (Reach.call_of_request reach hx) h) ?_
    intro a v v' hv
    cases a with
    | str s => exact .pure s hv
    | unit | bool | int | bean => exact Reference.unexpected_simulated hA _ _ hv

theorem equals_simulated (hu : CallsSimulated A user user') (ha : AsksSimulated A ask ask')
    (b : BeanId) (other : Value BeanId) (reach : own.request w (.equals b other) = true)
    (h : A w w') : Simulated A (equals user ask b other) (equals user' ask' b other) w w' := by
  refine .bean_bind hA b h fun x hx => ?_
  cases x with
  | object t code => exact .pure _ h
  | early r =>
    refine .bind (Reference.invoke_simulated hA hu ha b r _ (Reach.call_of_request reach hx) h) ?_
    intro a v v' hv
    cases a with
    | bool a => exact .pure a hv
    | unit | str | int | bean => exact Reference.unexpected_simulated hA _ _ hv

theorem hashCode_simulated (hu : CallsSimulated A user user') (ha : AsksSimulated A ask ask')
    (b : BeanId) (reach : own.request w (.hashCode b) = true) (h : A w w') :
    Simulated A (hashCode user ask b) (hashCode user' ask' b) w w' := by
  refine .bean_bind hA b h fun x hx => ?_
  cases x with
  | object t code => exact .pure _ h
  | early r =>
    refine .bind (Reference.invoke_simulated hA hu ha b r _ (Reach.call_of_request reach hx) h) ?_
    intro a v v' hv
    cases a with
    | int i => exact .pure _ hv
    | unit | str | bool | bean => exact Reference.unexpected_simulated hA _ _ hv

theorem dereference_simulated (hu : CallsSimulated A user user') (b : BeanId)
    (reach : own.request w (.dereference b) = true) (h : A w w') :
    Simulated A (dereference user b) (dereference user' b) w w' := by
  refine .bean_bind hA b h fun x hx => ?_
  cases x with
  | object t code => exact .panic _ h
  | early r =>
    refine Reference.dereference_simulated hA hu b r ?_ h
    have called := Reach.call_of_request reach hx
    unfold Reach.call at called
    cases hr : r.routes.route dereferenceMethod <;> rwa [hr] at called

end

end Bean

namespace Specification

theorem setSource_simulated (hu : CallsSimulated A user user') (source : Source)
    (s : Specification C) (h : A w w') :
    Simulated A (setSource user source s) (setSource user' source s) w w' := by
  cases s with
  | register n b _ => exact .pure _ h
  | custom code => exact .bind (hu code _ w w' h) fun _ _ _ hv => .pure _ hv

theorem validate_simulated (hu : CallsSimulated A user user') (s : Specification C) (h : A w w') :
    Simulated A (validate user s) (validate user' s) w w' := by
  cases s with
  | register n b _ => exact .ite (.fail _ h) (.pure () h)
  | custom code => exact hu code _ w w' h

theorem executorType_simulated (hu : CallsSimulated A user user') (s : Specification C) (h : A w w') :
    Simulated A (executorType user s) (executorType user' s) w w' := by
  cases s with
  | register n b _ => exact .pure _ h
  | custom code => exact hu code _ w w' h

theorem applyTo_simulated (hA : Likeness own A) (hu : CallsSimulated A user user')
    (c : ContainerId) (e : Executor C) (s : Specification C)
    (hc : own.containers c = true := by trivial) (h : A w w') :
    Simulated A (applyTo lang user c e s) (applyTo lang user' c e s) w w' := by
  cases e with
  | custom code => exact hu code _ w w' h
  | registering =>
    cases s with
    | register n b _ => exact Lookup.registerSingleton_simulated hA c n b hc h
    | custom code => exact .fail _ h

theorem execute_simulated (hA : Likeness own A) (hu : CallsSimulated A user user')
    (c : ContainerId) (e : Executor C) (s : Specification C)
    (hc : own.containers c = true := by trivial) (h : A w w') :
    Simulated A (execute lang user c e s) (execute lang user' c e s) w w' :=
  .bind (validate_simulated hu s h) fun _ _ _ hv => applyTo_simulated hA hu c e s hc hv

end Specification

namespace Bootstrap

section

variable (hA : Likeness own A)

include hA

theorem registerConfiguration_simulated (p : Processor C) (c : Configuration C)
    (hc : own.containers p.container = true := by trivial) (h : A w w') :
    Simulated A (registerConfiguration p c) (registerConfiguration p c) w w' := by
  refine .ite (.fail _ h) (.bind (.modify (hA.defineAll _ _ hc h)) fun _ v v' hv => ?_)
  exact .bind (.record hA _ hv) fun _ _ _ hu => .pure _ hu

section Processor

variable (hu : CallsSimulated A user user') (p : Processor C)

include hu

theorem callProducer_simulated (c : Configuration C) (n : String)
    (hp : own.processor p = true := by trivial) (h : A w w') :
    Simulated A (callProducer user p c n) (callProducer user' p c n) w w' := by
  obtain ⟨hs, hc⟩ := Bool.and_eq_true_iff.mp hp
  unfold callProducer
  split
  · exact .fail _ h
  · refine .get_bind (by simp only [hA.flag h hs]) (.ite ?_ (Lookup.getBean_simulated hA hu _ n hc h))
    exact Reference.createMethodProxy_simulated hA _ _ _ h

theorem callProducerOn_simulated (configuration n : String)
    (hp : own.processor p = true := by trivial) (h : A w w') :
    Simulated A (callProducerOn user p configuration n) (callProducerOn user' p configuration n)
      w w' := by
  unfold callProducerOn
  split
  · exact .fail _ h
  · exact callProducer_simulated hA hu p _ n hp h

theorem parameter_simulated (d : Dependency) (hp : own.processor p = true := by trivial) (h : A w w') :
    Simulated A (parameter user p d) (parameter user' p d) w w' := by
  obtain ⟨hs, hc⟩ := Bool.and_eq_true_iff.mp hp
  refine .ite (Reference.createProxy_simulated hA _ d h) (.guarded hA _ _ hs h ?_)
  exact Lookup.resolve_simulated hA hu _ d none hc (hA.flagged _ _ _ _ hs h)

theorem parameters_simulated (source : Source) (index : Nat) (types : List BeanType)
    (hp : own.processor p = true := by trivial) (h : A w w') :
    Simulated A (parameters user p source index types) (parameters user' p source index types)
      w w' := by
  induction types generalizing index w w' with
  | nil => exact .pure _ h
  | cons t rest ih =>
    refine .bind (parameter_simulated hA hu p _ hp h) fun _ v v' hv => ?_
    exact .bind (ih (index + 1) hv) fun _ _ _ hu => .pure _ hu

theorem specification_simulated (c : Configuration C) (f : Feature C)
    (hp : own.processor p = true := by trivial) (h : A w w') :
    Simulated A (specification user p c f) (specification user' p c f) w w' := by
  obtain ⟨hs, _⟩ := Bool.and_eq_true_iff.mp hp
  refine .guarded hA _ _ hs h ?_
  refine .bind (parameters_simulated hA hu p _ 0 f.parameters hp (hA.flagged _ _ _ _ hs h)) ?_
  exact fun args v v' hv => hu f.body _ v v' hv

theorem dispatch_simulated (s : Specification C) (hp : own.processor p = true := by trivial)
    (h : A w w') : Simulated A (dispatch lang user p s) (dispatch lang user' p s) w w' := by
  obtain ⟨_, hc⟩ := Bool.and_eq_true_iff.mp hp
  refine .bind (Specification.executorType_simulated hu s h) fun type v v' hv => ?_
  have described : s.describe lang v' = s.describe lang v := by
    cases s with
    | register n b source => simp only [Specification.describe, hA.typeName hv]
    | custom code => rfl
  split
  · exact .fail _ hv
  · refine .get_bind (by simp only [described]) (.bind (.record hA _ hv) fun _ v v' hv => ?_)
    exact Specification.applyTo_simulated hA hu _ _ s hc hv

theorem runFeature_simulated (c : Configuration C) (f : Feature C)
    (hp : own.processor p = true := by trivial) (h : A w w') :
    Simulated A (runFeature lang user p c f) (runFeature lang user' p c f) w w' := by
  refine .bind (specification_simulated hA hu p c f hp h) fun s v₁ v₁' h₁ => ?_
  refine .bind (Specification.setSource_simulated hu _ s h₁) fun s v₂ v₂' h₂ => ?_
  refine .bind (Specification.validate_simulated hu s h₂) fun _ v₃ v₃' h₃ => ?_
  exact dispatch_simulated hA hu p s hp h₃

theorem processFeature_simulated (c : Configuration C) (f : Feature C)
    (hp : own.processor p = true := by trivial) (h : A w w') :
    Simulated A (processFeature lang user p c f) (processFeature lang user' p c f) w w' := by
  simp only [processFeature]
  refine .followedBy (.record hA _ h) fun _ v₁ v₁' h₁ => ?_
  refine .followedBy (runFeature_simulated hA hu p c f hp h₁) fun o v₂ v₂' h₂ => ?_
  cases o with
  | ok a => exact .done _ h₂
  | panic text => exact .done _ h₂
  | error e => exact .bind (.record hA _ h₂) fun _ _ _ h₃ => .fail _ h₃

theorem processFeatures_simulated (c : Configuration C) (fs : List (Feature C))
    (hp : own.processor p = true := by trivial) (h : A w w') :
    Simulated A (processFeatures lang user p c fs) (processFeatures lang user' p c fs) w w' := by
  induction fs generalizing w w' with
  | nil => exact .pure () h
  | cons f rest ih =>
    exact .bind (processFeature_simulated hA hu p c f hp h) fun _ _ _ hv => ih hv

theorem processConfigurations_simulated (cs : List (Configuration C))
    (hp : own.processor p = true := by trivial) (h : A w w') :
    Simulated A (processConfigurations lang user p cs) (processConfigurations lang user' p cs)
      w w' := by
  induction cs generalizing w w' with
  | nil => exact .pure () h
  | cons c rest ih =>
    simp only [processConfigurations]
    refine .ite ?_ ?_
    · exact .bind (.record hA _ h) fun _ _ _ hv => ih hv
    · exact .bind (processFeatures_simulated hA hu p c c.features hp h) fun _ _ _ hv => ih hv

theorem process_simulated (hp : own.processor p = true := by trivial) (h : A w w') :
    Simulated A (process lang user p) (process lang user' p) w w' := by
  obtain ⟨_, hc⟩ := Bool.and_eq_true_iff.mp hp
  refine .followedBy (.record hA _ h) fun _ v v' hv => ?_
  refine .cleanup ?_ fun u u' hu => hA.recorded u u' _ hu
  refine .bind (processConfigurations_simulated hA hu p _ hp hv) fun _ u u' h' => ?_
  exact .ite (Lookup.preinstantiate_simulated hA hu _ hc h') (.pure () h')

end Processor

end

end Bootstrap

/-- Every request that touches nothing out of reach. -/
theorem serve_simulated (hA : Likeness own A) (hu : CallsSimulated A user user')
    (ha : AsksSimulated A ask ask') (q : Request C) (reach : own.request w q = true)
    (h : A w w') : Simulated A (serve lang user ask q) (serve lang user' ask' q) w w' := by
  cases q with
  | define c r => exact .modify (hA.define c r reach h)
  | registerSingleton c n b => exact Lookup.registerSingleton_simulated hA c n b reach h
  | getBean c n => exact Lookup.getBean_simulated hA hu c n reach h
  | resolve c d requesting => exact Lookup.resolve_simulated hA hu c d requesting reach h
  | preinstantiate c => exact Lookup.preinstantiate_simulated hA hu c reach h
  | container c =>
    rintro _ _ ⟨⟩
    exact ⟨w', by simp only [serve, hA.container h reach], h⟩
  | create t code =>
    rintro _ _ ⟨⟩
    exact ⟨_, by simp only [serve, World.addBean, hA.beans h], hA.object _ _ t code h⟩
  | bean b =>
    have same := hA.bean? h b
    intro o v hv
    cases hb : w.bean? b with
    | none =>
      cases (Run.bean_none b w hb).symm.trans hv
      exact ⟨w', Run.bean_none b w' (same.trans hb), h⟩
    | some x =>
      cases (Run.bean_some b x w hb).symm.trans hv
      exact ⟨w', Run.bean_some b x w' (same.trans hb), h⟩
  | invoke b call => exact Bean.invoke_simulated hA hu ha b call reach h
  | describe b => exact Bean.describe_simulated hA hu ha b reach h
  | equals b other => exact Bean.equals_simulated hA hu ha b other reach h
  | hashCode b => exact Bean.hashCode_simulated hA hu ha b reach h
  | dereference b => exact Bean.dereference_simulated hA hu b reach h
  | newStatus =>
    rintro _ _ ⟨⟩
    exact ⟨_, by simp only [serve, (hA.apart w w' h).size], hA.newStatus _ _ h⟩
  | status s =>
    rintro _ _ ⟨⟩
    exact ⟨w', by simp only [serve, hA.flag h reach], h⟩
  | setStatus s value => exact .modify (hA.flagged _ _ s value reach h)
  | createProxy k d => exact Reference.createProxy_simulated hA k d h
  | createMethodProxy k declaring m =>
    exact Reference.createMethodProxy_simulated hA k declaring m h
  | registerConfiguration p c =>
    exact Bootstrap.registerConfiguration_simulated hA p c reach h
  | process p => exact Bootstrap.process_simulated hA hu p reach h
  | beanMethod ctx n => exact Bootstrap.callProducer_simulated hA hu _ _ n reach h
  | beanMethodOn ctx configuration n =>
    exact Bootstrap.callProducerOn_simulated hA hu _ configuration n reach h
  | execute c s e => exact Specification.execute_simulated hA hu c e s reach h

/-- User code whose requests are simulated; its own state has to matter to neither world alone. -/
theorem Program.interpret_simulated (hA : Likeness own A)
    (poked : ∀ w w' s, A w w' → A { w with user := s } { w' with user := s })
    (ha : AsksSimulated A ask ask') (p : Program C S α) (h : A w w') :
    Simulated A (p.interpret ask) (p.interpret ask') w w' := by
  induction p generalizing w w' with
  | done o => exact .done o h
  | peek k ih =>
    intro o v hv
    obtain ⟨v', hv', h'⟩ := ih w.user h o v hv
    rw [← hA.user h] at hv'
    exact ⟨v', hv', h'⟩
  | poke s k ih => exact ih (poked w w' s h)
  | ask q k ih => exact .followedBy (ha q w w' h) fun o _ _ hv => ih o hv

section Answer

variable {A : World C S → World C S → Prop} (hA : Likeness .all A)
  (poked : ∀ w w' s, A w w' → A { w with user := s } { w' with user := s })

include hA poked

/-- Requests and user code from worlds that are alike come to the same. -/
theorem answer_simulated (lang : Language C S) (depth : Nat) :
    AsksSimulated A (answer lang depth) (answer lang depth) := by
  induction depth with
  | zero => exact fun q w w' _ o v hv => nomatch hv
  | succ depth ih =>
    have calls : CallsSimulated A (lang.user (answer lang depth)) (lang.user (answer lang depth)) :=
      fun code e w w' h => (lang.run code e).interpret_simulated hA poked ih h
    exact fun q w w' h => serve_simulated hA calls ih q (Reach.request_all w q) h

end Answer

end Wiring
