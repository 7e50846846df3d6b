import Wiring.Library
import Wiring.Proofs.Change
import Wiring.Proofs.Run

namespace Wiring

variable {C S α β : Type}

/-- No more has happened than that references without targets were made. -/
structure Frame (w w' : World C S) : Prop where
  containers : w'.containers = w.containers
  marks : w'.marks = w.marks
  kept : ∀ b x, w.bean? b = some x → w'.bean? b = some x
  fresh : ∀ b x, w.bean? b = none → w'.bean? b = some x → ∃ r, x = .early r ∧ r.resolved = none

/-- The bean is a reference without a target. -/
def World.Unresolved (w : World C S) (b : BeanId) : Prop :=
  ∃ r, w.bean? b = some (.early r) ∧ r.resolved = none

namespace Frame

/-- Nothing happens to containers, marks and beans. -/
theorem of_eq {w w' : World C S} (hc : w'.containers = w.containers) (hm : w'.marks = w.marks)
    (hb : w'.beans = w.beans) : Frame w w' := by
  have bean (b : BeanId) : w'.bean? b = w.bean? b := by simp [World.bean?, hb]
  refine ⟨hc, hm, fun b x h => by rwa [bean], fun b x h h' => ?_⟩
  rw [bean, h] at h'
  cases h'

theorem refl (w : World C S) : Frame w w := of_eq rfl rfl rfl

theorem trans {w₁ w₂ w₃ : World C S} (h : Frame w₁ w₂) (k : Frame w₂ w₃) : Frame w₁ w₃ where
  containers := k.containers.trans h.containers
  marks := k.marks.trans h.marks
  kept b x hb := k.kept b x (h.kept b x hb)
  fresh b x hb hb' := by
    cases hb₂ : w₂.bean? b with
    | none => exact k.fresh b x hb₂ hb'
    | some y =>
      have e := k.kept b y hb₂
      rw [hb'] at e
      cases e
      exact h.fresh b x hb hb₂

theorem unresolved {w w' : World C S} (h : Frame w w') {b : BeanId} (hb : w.Unresolved b) :
    w'.Unresolved b := by
  obtain ⟨r, hr, hn⟩ := hb
  exact ⟨r, h.kept b _ hr, hn⟩

theorem addBean (w : World C S) (r : EarlyReference C) (free : r.resolved = none) :
    Frame w (w.addBean (.early r)).2 := by
  refine ⟨rfl, rfl, World.bean?_addBean_of_some w (.early r), fun b x h h' => ?_⟩
  rw [World.bean?_addBean, h] at h'
  split at h'
  · cases h'
    exact ⟨r, rfl, free⟩
  · cases h'

end Frame

/-- From this world the computation ends, with no more done than references made; the beans that it
brings are such. -/
def OnlyRefers (beans : α → List BeanId) (r : Run C S α) (w : World C S) : Prop :=
  ∃ o w', r w = some (o, w') ∧ Frame w w' ∧ w'.statuses = w.statuses ∧ w'.user = w.user ∧
    ∀ a, o = .ok a → ∀ b ∈ beans a, w'.Unresolved b

namespace OnlyRefers

theorem fail (beans : α → List BeanId) (e : Error) (w : World C S) :
    OnlyRefers beans (Run.fail e) w :=
  ⟨_, w, rfl, .refl w, rfl, rfl, fun _ h => nomatch h⟩

theorem pure (beans : α → List BeanId) (a : α) (w : World C S)
    (h : ∀ b ∈ beans a, w.Unresolved b) : OnlyRefers beans (Pure.pure a) w := by
  refine ⟨_, w, rfl, .refl w, rfl, rfl, fun a' e => ?_⟩
  cases e
  exact h

theorem bind {beans : α → List BeanId} {beans' : β → List BeanId} {r : Run C S α}
    {f : α → Run C S β} {w : World C S} (h : OnlyRefers beans r w)
    (k : ∀ a w', Frame w w' → w'.statuses = w.statuses → (∀ b ∈ beans a, w'.Unresolved b) →
      OnlyRefers beans' (f a) w') : OnlyRefers beans' (r >>= f) w := by
  obtain ⟨o, w', hr, hf, hs, hu, hb⟩ := h
  cases o with
  | ok a =>
    obtain ⟨o', w'', hr', hf', hs', hu', hb'⟩ := k a w' hf hs (hb a rfl)
    refine ⟨o', w'', ?_, hf.trans hf', hs'.trans hs, hu'.trans hu, hb'⟩
    rw [Run.bind_ok r f w w' a hr, hr']
  | error e =>
    exact ⟨_, w', Run.bind_error r f w w' e hr, hf, hs, hu, fun _ h => nomatch h⟩
  | panic text =>
    exact ⟨_, w', Run.bind_panic r f w w' text hr, hf, hs, hu, fun _ h => nomatch h⟩

theorem get_bind {beans : α → List BeanId} {f : World C S → Run C S α} {w : World C S}
    (h : OnlyRefers beans (f w) w) : OnlyRefers beans (Run.get >>= f) w := h

theorem ite {beans : α → List BeanId} {p : Prop} [Decidable p] {r r' : Run C S α} {w : World C S}
    (h : OnlyRefers beans r w) (h' : OnlyRefers beans r' w) :
    OnlyRefers beans (if p then r else r') w := by
  split
  · exact h
  · exact h'

theorem ofExcept {beans : α → List BeanId} {x : Except Error α} {w : World C S}
    (h : ∀ a, x = .ok a → ∀ b ∈ beans a, w.Unresolved b) :
    OnlyRefers beans (Run.ofExcept x) w := by
  cases x with
  | ok a => exact pure beans a w (h a rfl)
  | error e => exact fail beans e w

theorem ofExcept_bind {beans : β → List BeanId} {x : Except Error α} {f : α → Run C S β}
    {w : World C S} (h : ∀ a, OnlyRefers beans (f a) w) :
    OnlyRefers beans (Run.ofExcept x >>= f) w := by
  cases x with
  | ok a => exact h a
  | error e => exact fail beans e w

theorem early_bind {beans : α → List BeanId} {f : Bean C → Run C S α} {w : World C S} {b : BeanId}
    {r : EarlyReference C} (early : w.bean? b = some (.early r))
    (h : OnlyRefers beans (f (.early r)) w) : OnlyRefers beans (Run.bean b >>= f) w := by
  unfold OnlyRefers at h ⊢
  rwa [Run.bind_ok _ f w w _ (Run.bean_some b _ w early)]

end OnlyRefers

namespace Reference

theorem make_onlyRefers (k : Creator C) (target : Target) (w : World C S) :
    OnlyRefers (fun b => [b]) (make k target) w := by
  let w₁ := w.record (.creatingReference target.type.name)
  have added := Frame.addBean w₁ (.make k target) rfl
  refine ⟨.ok ⟨w.beans.size⟩, (w₁.addBean (.early (.make k target))).2, rfl, ⟨rfl, rfl, added.kept,
    added.fresh⟩, rfl, rfl, fun a e b hb => ?_⟩
  cases e
  obtain rfl := List.mem_singleton.mp hb
  exact ⟨_, by rw [World.bean?_addBean]; exact if_pos rfl, rfl⟩

theorem createProxy_onlyRefers (k : Creator C) (d : Dependency) (w : World C S) :
    OnlyRefers (fun b => [b]) (createProxy k d) w :=
  .ofExcept_bind fun _ => make_onlyRefers k _ w

theorem createMethodProxy_onlyRefers (k : Creator C) (declaring : BeanType) (m : Method BeanType)
    (w : World C S) : OnlyRefers (fun b => [b]) (createMethodProxy k declaring m) w :=
  .ofExcept_bind fun target => make_onlyRefers k target w

theorem produce_onlyRefers (r : EarlyReference C) (m : Method BeanType) (w : World C S) :
    OnlyRefers (fun v => v.bean?.toList) (produce r m) w := by
  refine .get_bind (.ite ?_ (.fail _ _ w))
  refine .bind (createMethodProxy_onlyRefers r.creator r.type m w) fun b w' _ _ hb => ?_
  exact .pure _ _ w' hb

end Reference

/-- What these routes answer concerns no target. -/
def Route.Forward : Route → Prop
  | .produce _ | .object _ => True
  | .dereference | .delegate => False

namespace Reference

/-- A call on such a route goes nowhere but to the reference, whatever user code there is. -/
theorem invoke_onlyRefers (user : UserCode C S) (ask : (q : Request C) → Run C S q.Answer)
    (b : BeanId) (r : EarlyReference C) (call : Call BeanId) (w : World C S)
    (route : (r.routes.route call.method).Forward) :
    OnlyRefers (fun v => v.bean?.toList) (invoke user ask b r call) w := by
  unfold invoke
  cases hr : r.routes.route call.method with
  | produce m => exact produce_onlyRefers r m w
  | object m =>
    refine .ofExcept fun v hv b hb => ?_
    cases m with
    | describe =>
      cases hv
      cases hb
    | equals | hashCode => cases hv
  | dereference | delegate =>
    rw [hr] at route
    exact route.elim

theorem unexpected_onlyRefers (beans : α → List BeanId) (method : String) (x : Value BeanId)
    (w : World C S) : OnlyRefers beans (unexpected method x) w :=
  .get_bind (.fail beans _ w)

end Reference

namespace Bean

variable (user : UserCode C S) (ask : (q : Request C) → Run C S q.Answer) (b : BeanId)
  (r : EarlyReference C) (w : World C S) (early : w.bean? b = some (.early r))

include early

theorem invoke_onlyRefers (call : Call BeanId) (route : (r.routes.route call.method).Forward) :
    OnlyRefers (fun v => v.bean?.toList) (invoke user ask b call) w :=
  .early_bind early (Reference.invoke_onlyRefers user ask b r call w route)

theorem describe_onlyRefers (route : (r.routes.route describeMethod).Forward) :
    OnlyRefers (fun _ => []) (describe user ask b) w := by
  refine .early_bind early (.bind (Reference.invoke_onlyRefers user ask b r _ w route) ?_)
  intro v w' _ _ _
  cases v with
  | str s => exact .pure _ _ w' fun _ h => nomatch h
  | unit | bool | int | bean => exact Reference.unexpected_onlyRefers _ _ _ w'

theorem equals_onlyRefers (other : Value BeanId)
    (route : (r.routes.route equalsMethod).Forward) :
    OnlyRefers (fun _ => []) (equals user ask b other) w := by
  refine .early_bind early (.bind (Reference.invoke_onlyRefers user ask b r _ w route) ?_)
  intro v w' _ _ _
  cases v with
  | bool a => exact .pure _ _ w' fun _ h => nomatch h
  | unit | str | int | bean => exact Reference.unexpected_onlyRefers _ _ _ w'

theorem hashCode_onlyRefers (route : (r.routes.route hashCodeMethod).Forward) :
    OnlyRefers (fun _ => []) (hashCode user ask b) w := by
  refine .early_bind early (.bind (Reference.invoke_onlyRefers user ask b r _ w route) ?_)
  intro v w' _ _ _
  cases v with
  | int i => exact .pure _ _ w' fun _ h => nomatch h
  | unit | str | bool | bean => exact Reference.unexpected_onlyRefers _ _ _ w'

end Bean

namespace Bootstrap

theorem callProducer_onlyRefers (user : UserCode C S) (p : Processor C) (c : Configuration C)
    (n : String) (w : World C S) (on : w.creatingProxies p.status = true) :
    OnlyRefers (fun b => [b]) (callProducer user p c n) w := by
  unfold callProducer
  split
  · exact .fail _ _ w
  · refine .get_bind ?_
    rw [if_pos on]
    exact Reference.createMethodProxy_onlyRefers _ _ _ w

theorem callProducerOn_onlyRefers (user : UserCode C S) (p : Processor C)
    (configuration n : String) (w : World C S) (on : w.creatingProxies p.status = true) :
    OnlyRefers (fun b => [b]) (callProducerOn user p configuration n) w := by
  unfold callProducerOn
  split
  · exact .fail _ _ w
  · exact callProducer_onlyRefers user p _ n w on

theorem parameters_onlyRefers (user : UserCode C S) (p : Processor C) (source : Source)
    (index : Nat) (types : List BeanType) (w : World C S)
    (proxies : p.settings.proxyFeatureParameters = true) :
    OnlyRefers id (parameters user p source index types) w := by
  induction types generalizing index w with
  | nil => exact .pure _ _ w fun _ h => nomatch h
  | cons t rest ih =>
    unfold parameters parameter
    rw [if_pos proxies]
    refine .bind (Reference.createProxy_onlyRefers _ _ w) fun b w' _ _ hb => ?_
    -- The reference made first is still one after the others are made.
    obtain ⟨o, w'', hr, hf, hs, hu, more⟩ := ih (index + 1) w'
    have both : OnlyRefers (fun l => b :: l) (parameters user p source (index + 1) rest) w' := by
      refine ⟨o, w'', hr, hf, hs, hu, fun l e a ha => ?_⟩
      rcases List.mem_cons.mp ha with rfl | ha
      · exact hf.unresolved (hb a (List.mem_singleton_self a))
      · exact more l e a ha
    exact both.bind fun l w₃ _ _ h => .pure _ _ w₃ h

end Bootstrap

/-- The beans that come with the answer to a request. -/
def Request.beans : (q : Request C) → q.Answer → List BeanId
  | getBean _ _, b | resolve _ _ _, b | create _ _, b | dereference _, b | createProxy _ _, b
  | createMethodProxy _ _ _, b | beanMethod _ _, b | beanMethodOn _ _ _, b => [b]
  | invoke _ _, v => v.bean?.toList
  | _, _ => []

/-- What a body may ask for that only refers to beans: producer methods of its own context, and calls on
references by routes that concern no target. -/
inductive Request.Forward (ctx : Context C) (w : World C S) : Request C → Prop where
  | beanMethod (n : String) : Forward ctx w (.beanMethod ctx n)
  | beanMethodOn (configuration n : String) : Forward ctx w (.beanMethodOn ctx configuration n)
  | invoke (b : BeanId) (r : EarlyReference C) (call : Call BeanId)
      (early : w.bean? b = some (.early r)) (route : (r.routes.route call.method).Forward) :
      Forward ctx w (.invoke b call)
  | describe (b : BeanId) (r : EarlyReference C) (early : w.bean? b = some (.early r))
      (route : (r.routes.route describeMethod).Forward) : Forward ctx w (.describe b)
  | equals (b : BeanId) (r : EarlyReference C) (other : Value BeanId)
      (early : w.bean? b = some (.early r)) (route : (r.routes.route equalsMethod).Forward) :
      Forward ctx w (.equals b other)
  | hashCode (b : BeanId) (r : EarlyReference C) (early : w.bean? b = some (.early r))
      (route : (r.routes.route hashCodeMethod).Forward) : Forward ctx w (.hashCode b)

theorem serve_onlyRefers (lang : Language C S) (user : UserCode C S)
    (ask : (q : Request C) → Run C S q.Answer) (ctx : Context C) (q : Request C) (w : World C S)
    (on : w.creatingProxies ctx.processor.status = true) (h : q.Forward ctx w) :
    OnlyRefers q.beans (serve lang user ask q) w := by
  cases h with
  | beanMethod n => exact Bootstrap.callProducer_onlyRefers user _ _ n w on
  | beanMethodOn configuration n =>
    exact Bootstrap.callProducerOn_onlyRefers user _ configuration n w on
  | invoke b r call early route => exact Bean.invoke_onlyRefers user ask b r w early call route
  | describe b r early route => exact Bean.describe_onlyRefers user ask b r w early route
  | equals b r other early route => exact Bean.equals_onlyRefers user ask b r w early other route
  | hashCode b r early route => exact Bean.hashCode_onlyRefers user ask b r w early route

end Wiring
