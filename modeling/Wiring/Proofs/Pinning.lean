import Wiring.Proofs.Dereference
import Wiring.Proofs.Simulation

namespace Wiring

variable {C S α : Type} {lang : Language C S} {x : BeanId}

/-- By these moments a dereference of the reference has brought this bean: one that user code asked for, or
the one inside a call that the reference has passed on. -/
inductive Dereferenced (lang : Language C S) (moments : List (Moment C S)) (x t : BeanId) : Prop where
  | directly (w w' : World C S)
      (answered : Moment.answered (.dereference x) w (.ok t) w' ∈ moments)
  | byCall (args : List (Value BeanId)) (w w' : World C S) (r : EarlyReference C)
      (early : w.bean? x = some (.early r))
      (answered : Moment.answered (.invoke x ⟨dereferenceMethod, args⟩) w (.ok (.bean t)) w' ∈ moments)
  | passingOn (call : Call BeanId) (depth : Nat) (w w' : World C S) (r : EarlyReference C)
      (early : w.bean? x = some (.early r)) (delegated : r.routes.route call.method = .delegate)
      (asked : Moment.asked (.invoke x call) w ∈ moments)
      (found : answer lang depth (.dereference x) w = some (.ok t, w'))
      (passed : Moment.asked (.invoke t call) (w'.record (.delegating call.method (w'.typeName t))) ∈
        moments)

theorem Dereferenced.mono {moments more : List (Moment C S)} {t : BeanId}
    (h : Dereferenced lang moments x t) (sub : moments ⊆ more) : Dereferenced lang more x t := by
  cases h with
  | directly w w' answered => exact .directly w w' (sub answered)
  | byCall args w w' r early answered => exact .byCall args w w' r early (sub answered)
  | passingOn call depth w w' r early delegated asked found passed =>
    exact .passingOn call depth w w' r early delegated (sub asked) found (sub passed)

/-- The routes on which a reference may have to look for its target. -/
def Route.Searches : Route → Prop
  | dereference | delegate => True
  | produce _ | object _ => False

/-- The bean and the method that a request calls. -/
def Request.called? : Request C → Option (BeanId × String)
  | invoke b call => some (b, call.method)
  | describe b => some (b, describeMethod)
  | equals b _ => some (b, equalsMethod)
  | hashCode b => some (b, hashCodeMethod)
  | dereference b => some (b, dereferenceMethod)
  | _ => none

/-- By the request this reference may have to look for its target. -/
def Request.Searches (q : Request C) (w : World C S) (b : BeanId) : Prop :=
  ∃ r method, w.bean? b = some (.early r) ∧ q.called? = some (b, method) ∧
    (r.routes.route method).Searches

/-- All that there is, but for the target of one bean. -/
def Reach.but (x : BeanId) : Reach := { pins := (· != x) }

namespace Reach

theorem route_but {b : BeanId} {r : EarlyReference C} {route : Route}
    (h : route.Searches → b ≠ x) : (but x).route b r route = true := by
  cases route with
  | produce | object => rfl
  | dereference | delegate =>
    have pins : (but x).pins b = true := bne_iff_ne.mpr (h .intro)
    exact route_of_creator pins (registry_of_containers (fun _ => rfl) r.creator.registry) .dereference

/-- A request by which this reference does not look for its target leaves it without one. -/
theorem request_but {w : World C S} {q : Request C} (h : ∀ b, q.Searches w b → b ≠ x) :
    (but x).request w q = true := by
  have onBean (b : BeanId) (method : String) (called : q.called? = some (b, method)) :
      request.onBean (but x) w b method = true := by
    unfold request.onBean
    split
    · rename_i r early
      have searches (hs : (r.routes.route method).Searches) : b ≠ x := h b ⟨r, method, early, called, hs⟩
      unfold call
      cases route : r.routes.route method with
      | delegate =>
        rw [route] at searches
        exact route_but fun _ => searches .intro
      | produce | object | dereference =>
        rw [route] at searches
        exact route_but searches
    · rfl
  cases q with
  | invoke | describe | equals | hashCode | dereference => exact onBean _ _ rfl
  | _ => rfl

end Reach

namespace Routes

/-- Where there may be a search, the route is the standard one. -/
theorem route_of_searches {t : BeanType} {name : String} (h : ((forType t).route name).Searches) :
    (forType t).route name = standard.route name := by
  rcases route_forType_cases t name with same | ⟨m, produced⟩
  · exact same
  · rw [produced] at h
    exact h.elim

theorem method_of_standard {name : String} (h : standard.route name = .dereference) :
    name = dereferenceMethod := by
  by_contra other
  simp only [standard, route, Table.get?_insert, other, if_false] at h
  split at h
  · cases h
  · split at h
    · cases h
    · split at h <;> cases h

end Routes

/-- A reference whose target has just been pinned was one before. -/
theorem World.early_of_pin {w : World C S} {t : BeanId} {r : EarlyReference C}
    (h : (w.pin x t).bean? x = some (.early r)) :
    ∃ r₀, w.bean? x = some (.early r₀) ∧ r = { r₀ with resolved := some t } := by
  cases hb : w.bean? x with
  | none =>
    have beyond : w.beans[x.index]? = none := hb
    simp [pin, bean?, Array.getElem?_modify, beyond] at h
  | some v =>
    cases v with
    | object type code =>
      have here : w.beans[x.index]? = some (.object type code) := hb
      simp [pin, bean?, Array.getElem?_modify, here] at h
    | early r₀ =>
      rw [bean?_pin w x t x r₀ hb, if_pos rfl] at h
      cases h
      exact ⟨r₀, rfl, rfl⟩

theorem World.bean?_pin_other (w : World C S) {b : BeanId} (t : BeanId) (h : b ≠ x) :
    (w.pin b t).bean? x = w.bean? x := by
  have index : b.index ≠ x.index := by
    intro e
    obtain ⟨i⟩ := b
    obtain ⟨j⟩ := x
    exact h (congrArg BeanId.mk e)
  simp [pin, bean?, Array.getElem?_modify, index]

/-- Every target that the reference has, or had at a moment, is one that a dereference has brought, except
that the last search may just have brought its target. -/
structure Attained (lang : Language C S) (x : BeanId) (brought : Option BeanId)
    (v : World C (Noted C S)) : Prop where
  routes : ∀ r, v.bean? x = some (.early r) → r.routes = Routes.forType r.type
  targets : ∀ t, v.target? x = some t → Dereferenced lang v.past x t ∨ brought = some t
  moments : ∀ m older, (m :: older) <:+ v.past → ∀ t, m.world.target? x = some t →
    Dereferenced lang (m :: older) x t

namespace Attained

variable {v v' : World C (Noted C S)} {brought : Option BeanId}

theorem initial (s : S) : Attained (C := C) lang x none (World.initial s).chronicled where
  routes r h := by simp [World.initial, World.chronicled, World.bean?] at h
  targets t h := by simp [World.initial, World.chronicled, World.target?, World.bean?] at h
  moments m older h := by simp at h

theorem weaken (h : Attained lang x none v) (brought : Option BeanId) :
    Attained lang x brought v where
  routes := h.routes
  targets t ht := (h.targets t ht).imp_right nofun
  moments := h.moments

/-- A change that leaves the reference, if it is not what makes it. -/
theorem changed (h : Attained lang x brought v) (past : v'.past = v.past)
    (same : ∀ r, v'.bean? x = some (.early r) →
      v.bean? x = some (.early r) ∨ ∃ k target, r = .make k target) :
    Attained lang x brought v' where
  routes r early := by
    rcases same r early with early | ⟨k, target, rfl⟩
    · exact h.routes r early
    · rfl
  targets t ht := by
    obtain ⟨r, early, resolved⟩ := World.early_of_target? ht
    rcases same r early with early | ⟨k, target, rfl⟩
    · rw [past]
      exact h.targets t (World.target?_of_early early resolved)
    · cases resolved
  moments := by
    rw [past]
    exact h.moments

theorem untouched (h : Attained lang x brought v) (past : v'.past = v.past)
    (beans : v'.beans = v.beans) : Attained lang x brought v' :=
  h.changed past fun r early => .inl (by simpa [World.bean?, beans] using early)

theorem noted (h : Attained lang x brought v) (m : Moment C S) (now : m.world = v.plain)
    (told : ∀ t, brought = some t → Dereferenced lang (m :: v.past) x t) :
    Attained lang x none (v.note m) := by
  have targets (t : BeanId) (ht : v.target? x = some t) : Dereferenced lang (m :: v.past) x t := by
    rcases h.targets t ht with before | just
    · exact before.mono (List.subset_cons_self m v.past)
    · exact told t just
  refine ⟨h.routes, fun t ht => .inl (targets t ht), fun m' older suffix t ht => ?_⟩
  rcases List.suffix_cons_iff.mp suffix with same | earlier
  · cases same
    rw [now] at ht
    exact targets t ht
  · exact h.moments m' older earlier t ht

theorem pinned (h : Attained lang x none v) (t : BeanId) : Attained lang x (some t) (v.pin x t) where
  routes r early := by
    obtain ⟨r₀, early₀, rfl⟩ := World.early_of_pin early
    exact h.routes r₀ early₀
  targets t' ht := by
    obtain ⟨r, early, resolved⟩ := World.early_of_target? ht
    obtain ⟨r₀, _, rfl⟩ := World.early_of_pin early
    exact .inr resolved
  moments := h.moments

/-- All changes of the library but the pinning of the reference itself. -/
theorem likeness (lang : Language C S) (x : BeanId) :
    Likeness (.but x) (Self (Attained lang x none)) where
  apart := by
    rintro _ w ⟨rfl, _⟩
    exact .of_trace _ w w.trace
  recorded := by
    rintro _ w e ⟨rfl, h⟩
    exact ⟨rfl, h.untouched rfl rfl⟩
  contained := by
    rintro _ w c k _ ⟨rfl, h⟩
    exact ⟨rfl, h.untouched rfl rfl⟩
  marked := by
    rintro _ w marks ⟨rfl, h⟩
    exact ⟨rfl, h.untouched rfl rfl⟩
  flagged := by
    rintro _ w s value _ ⟨rfl, h⟩
    exact ⟨rfl, h.untouched rfl rfl⟩
  newStatus := by
    rintro _ w ⟨rfl, h⟩
    exact ⟨rfl, h.untouched rfl rfl⟩
  object := by
    rintro _ w type code ⟨rfl, h⟩
    refine ⟨rfl, h.changed rfl fun r early => ?_⟩
    rw [World.bean?_addBean] at early
    split at early
    · cases early
    · exact .inl early
  reference := by
    rintro _ w k target ⟨rfl, h⟩
    refine ⟨rfl, h.changed rfl fun r early => ?_⟩
    rw [World.bean?_addBean] at early
    split at early
    · cases early
      exact .inr ⟨k, target, rfl⟩
    · exact .inl early
  pinned := by
    rintro _ w b t other ⟨rfl, h⟩
    refine ⟨rfl, h.changed rfl fun r early => .inl ?_⟩
    rwa [World.bean?_pin_other w t (bne_iff_ne.mp other)] at early

/-- A program beside a chronicle, whose requests keep the targets attained. -/
theorem interpret {ask : (q : Request C) → Run C (Noted C S) q.Answer}
    (ha : AsksSimulated (Self (Attained lang x none)) ask ask) (p : Program C S α)
    {o : Outcome α} (h : Attained lang x none v) (run : p.chronicled.interpret ask v = some (o, v')) :
    Attained lang x none v' := by
  induction p generalizing v with
  | done o =>
    cases run
    exact h
  | peek k ih => exact ih v.user.1 h run
  | poke s k ih =>
    have poked : Attained lang x none { v with user := (s, v.past) } := h.untouched rfl rfl
    exact ih poked run
  | ask q k ih =>
    obtain ⟨a, v₁, hq, rest⟩ := Run.followedBy_cases run
    have kept : Attained lang x none v₁ := (ha q v v ⟨rfl, h⟩).kept hq
    exact ih a kept rest

/-- User code with its calls noted. -/
theorem witnessed {ask : (q : Request C) → Run C (Noted C S) q.Answer}
    (ha : AsksSimulated (Self (Attained lang x none)) ask ask) :
    CallsSimulated (Self (Attained lang x none)) (lang.witnessed ask) (lang.witnessed ask) := by
  rintro code e _ v ⟨rfl, h⟩ o v' run
  refine ⟨v', run, rfl, ?_⟩
  obtain ⟨v₁, ran, rfl⟩ := Run.noting_cases run
  have entered := h.noted (.entered code e v.plain) rfl nofun
  have left : Attained lang x none v₁ := interpret ha (lang.run code e) entered ran
  exact left.noted _ rfl nofun

section Dereference

variable {user : UserCode C (Noted C S)}
  (hu : CallsSimulated (Self (Attained lang x none)) user user) {r : EarlyReference C}

include hu

/-- The way to the target either brings it or fails, and then has pinned nothing. -/
theorem findTarget {o : Outcome BeanId} (h : Attained lang x none v)
    (run : Reference.findTarget user x r v = some (o, v')) : Attained lang x o.result? v' := by
  cases resolved : r.resolved with
  | some t =>
    rw [Reference.findTarget_pinned user x t r v resolved] at run
    cases run
    exact h.weaken _
  | none =>
    have searched : Simulated (Self (Attained lang x none)) (Reference.search user r)
        (Reference.search user r) v v := by
      refine .guarded (likeness lang x) _ _ rfl ⟨rfl, h⟩ ?_
      have registry : (Reach.but x).registry r.creator.registry = true :=
        Reach.registry_of_containers (fun _ => rfl) r.creator.registry
      exact Reference.lookUp_simulated (likeness lang x) hu _ _ registry ⟨rfl, h.untouched rfl rfl⟩
    rw [Reference.findTarget_free user x r resolved] at run
    rcases Run.bind_cases _ _ _ _ _ run with ⟨t, v₁, found, settled⟩ | ⟨fault, failed, rfl⟩
    · have kept : Attained lang x none v₁ := searched.kept found
      cases target : v₁.target? x with
      | some t' =>
        rw [Reference.settle_kept target] at settled
        cases settled
        exact kept.weaken _
      | none =>
        rw [Reference.settle_free target] at settled
        cases settled
        exact kept.pinned t
    · rw [Fault.result?]
      exact searched.kept failed

theorem dereference {o : Outcome BeanId} (h : Attained lang x none v)
    (early : v.bean? x = some (.early r))
    (run : Reference.dereference user x r v = some (o, v')) : Attained lang x o.result? v' := by
  rcases Routes.route_forType_cases r.type dereferenceMethod with standard | ⟨m, produced⟩
  · rw [← h.routes r early] at standard
    rw [Reference.dereference_own user x r v (standard.trans rfl)] at run
    exact h.findTarget hu run
  · -- A producer method stands in the place of the dereference, and there is no search.
    rw [← h.routes r early] at produced
    have reach : (Reach.but x).route x r (r.routes.route dereferenceMethod) = true := by
      rw [produced]
      rfl
    exact ((Reference.dereference_simulated (likeness lang x) hu x r reach ⟨rfl, h⟩).kept run).weaken _

end Dereference

/-- A dereference beside a chronicle is what the request for it is answered with. -/
theorem answer_of_dereference {depth : Nat} {r : EarlyReference C} {o : Outcome BeanId}
    {q : Request C} (callee : q.callee = some x) (early : v.bean? x = some (.early r))
    (asked : Moment.asked q v.plain ∈ v.past)
    (run : Reference.dereference (lang.witnessed (chronicle lang depth)) x r v = some (o, v')) :
    answer lang (depth + 1) (.dereference x) v.plain = some (o, v'.plain) ∧ v.past <:+ v'.past := by
  have steady := (Kept.trivial lang).steady
  have parallel := Reference.dereference_parallel steady (calls_parallel steady depth) x r v
    ⟨q, callee, asked⟩ early
  obtain ⟨plainly, after⟩ := parallel.ended run
  exact ⟨(Bean.dereference_early _ x r v.plain early).trans plainly, (after .intro).past⟩

/-- Up to this depth every request keeps the targets attained, from the moment on at which it is asked. -/
def Throughout (lang : Language C S) (x : BeanId) (depth : Nat) : Prop :=
  ∀ (q : Request C) (v v' : World C (Noted C S)) (o : Outcome q.Answer),
    Attained lang x none (v.note (.asked q v.plain)) → chronicle lang depth q v = some (o, v') →
      Attained lang x none v'

section Throughout

variable {depth : Nat} (ih : Throughout lang x depth) {r : EarlyReference C}

include ih

theorem Throughout.asks :
    AsksSimulated (Self (Attained lang x none)) (chronicle lang depth) (chronicle lang depth) := by
  rintro q _ v ⟨rfl, h⟩ o v' run
  exact ⟨v', run, rfl, ih q v v' o (h.noted _ rfl nofun) run⟩

theorem Throughout.calls : CallsSimulated (Self (Attained lang x none))
    (lang.witnessed (chronicle lang depth)) (lang.witnessed (chronicle lang depth)) :=
  witnessed ih.asks

/-- A call that the reference passes on: before the target is called, the dereference has brought it. -/
theorem Throughout.delegated {call : Call BeanId} {o : Outcome (Value BeanId)}
    (h : Attained lang x none v) (early : v.bean? x = some (.early r))
    (route : r.routes.route call.method = .delegate)
    (asked : Moment.asked (.invoke x call) v.plain ∈ v.past)
    (run : Reference.invoke (lang.witnessed (chronicle lang depth)) (chronicle lang depth) x r call v =
      some (o, v')) : Attained lang x none v' := by
  rw [Reference.invoke_delegated _ _ x r call route] at run
  rcases Run.bind_cases _ _ _ _ _ run with ⟨t, v₁, found, passed⟩ | ⟨fault, failed, rfl⟩
  · have brought : Attained lang x (some t) v₁ := h.dereference ih.calls early found
    obtain ⟨answered, grown⟩ := answer_of_dereference rfl early asked found
    let v₂ := v₁.record (.delegating call.method (v₁.typeName t))
    have told (t' : BeanId) (e : some t = some t') :
        Dereferenced lang (.asked (.invoke t call) v₂.plain :: v₂.past) x t' := by
      cases e
      refine .passingOn call (depth + 1) v.plain v₁.plain r early route ?_ answered ?_
      · exact List.mem_cons_of_mem _ (grown.subset asked)
      · exact List.mem_cons_self
    have reported : Attained lang x (some t) v₂ := brought.untouched rfl rfl
    exact ih (.invoke t call) v₂ v' o (reported.noted _ rfl told) passed
  · have nothing := h.dereference ih.calls early failed
    rwa [Fault.result?] at nothing

/-- A request in the answer to which the reference may look for its target. -/
theorem Throughout.searching {q : Request C} {o : Outcome q.Answer} {v v₁ : World C (Noted C S)}
    (h : Attained lang x none (v.note (.asked q v.plain)))
    (searches : q.Searches (v.note (.asked q v.plain)) x)
    (run : serve lang.chronicled (lang.witnessed (chronicle lang depth)) (chronicle lang depth) q
      (v.note (.asked q v.plain)) = some (o, v₁)) :
    Attained lang x none (v₁.note (.answered q v.plain o v₁.plain)) := by
  obtain ⟨r, method, early, called, searched⟩ := searches
  have proper := h.routes r early
  have standard : r.routes.route method = Routes.standard.route method := by
    rw [proper] at searched ⊢
    exact Routes.route_of_searches searched
  cases q
  case dereference b =>
    cases called
    change Bean.dereference _ x _ = _ at run
    rw [Bean.dereference_early _ x r _ early] at run
    refine (h.dereference ih.calls early run).noted _ rfl fun t brought => ?_
    rw [Outcome.ok_of_result? brought]
    exact .directly v.plain v₁.plain List.mem_cons_self
  case invoke b call =>
    cases called
    change Bean.invoke _ _ x call _ = _ at run
    rw [Bean.invoke_early _ _ x r call _ early] at run
    cases route : r.routes.route call.method with
    | produce | object =>
      rw [route] at searched
      exact searched.elim
    | delegate => exact (ih.delegated h early route List.mem_cons_self run).noted _ rfl nofun
    | dereference =>
      have named : call.method = dereferenceMethod :=
        Routes.method_of_standard (standard.symm.trans route)
      simp only [Reference.invoke, route, Reference.onRoute] at run
      rcases Run.bind_cases _ _ _ _ _ run with ⟨t, v₂, found, answered⟩ | ⟨fault, failed, rfl⟩
      · cases answered
        refine (h.findTarget ih.calls found).noted _ rfl fun t' brought => ?_
        cases brought
        obtain ⟨_, args⟩ := call
        cases named
        exact .byCall args v.plain v₁.plain r early List.mem_cons_self
      · have nothing := h.findTarget ih.calls failed
        rw [Fault.result?] at nothing
        exact nothing.noted _ rfl nofun
  case describe | equals | hashCode =>
    -- The object methods are answered on the spot.
    cases called
    rw [standard] at searched
    exact searched.elim
  all_goals cases called

end Throughout

theorem throughout (lang : Language C S) (x : BeanId) (depth : Nat) : Throughout lang x depth := by
  -- User code and calls that are passed on make their requests one level further in.
  induction depth with
  | zero => exact fun q v v' o h run => nomatch run
  | succ depth ih =>
    intro q v v' o h run
    obtain ⟨v₁, served, rfl⟩ := Run.noting_cases run
    by_cases searches : q.Searches (v.note (.asked q v.plain)) x
    · exact ih.searching h searches served
    · have pins (b : BeanId) (hb : q.Searches (v.note (.asked q v.plain)) b) : b ≠ x :=
        fun e => searches (e ▸ hb)
      have reach := Reach.request_but pins
      have kept := (serve_simulated (likeness lang x) ih.calls ih.asks q reach ⟨rfl, h⟩).kept served
      exact kept.noted _ rfl nofun

end Attained

/-- Wherever the reference is as it is here, its dereference brings this bean and does nothing else, whatever the
user code and the rest of the world, and a call that is passed on goes to this bean at once. -/
def World.Yields (v : World C S) (x t : BeanId) : Prop :=
  ∀ (user : UserCode C S) (u : World C S), u.bean? x = v.bean? x →
    Bean.dereference user x u = some (.ok t, u) ∧
      (∀ ask args,
        Bean.invoke user ask x ⟨dereferenceMethod, args⟩ u = some (.ok (.bean t), u)) ∧
      ∀ ask call r, v.bean? x = some (.early r) → r.routes.route call.method = .delegate →
        Bean.invoke user ask x call u = Reference.passOn ask call t u

/-- A dereference of the reference here looks for its target from the start: it fails as the search does, keeps
what the reference was given during the search, and else pins what the search has found. -/
structure EarlyReference.Afresh (user : UserCode C S) (x : BeanId) (r : EarlyReference C)
    (w : World C S) : Prop where
  found : ∀ t w₁, Reference.search user r w = some (.ok t, w₁) →
    Found w w₁ r.creator.registry r.target t
  failed : ∀ (fault : Fault) w₁, Reference.search user r w = some (fault.outcome, w₁) →
    Bean.dereference user x w = some (fault.outcome, w₁)
  kept : ∀ t kept w₁, Reference.search user r w = some (.ok t, w₁) → w₁.target? x = some kept →
    Bean.dereference user x w = some (.ok kept, w₁)
  pinned : ∀ t w₁, Reference.search user r w = some (.ok t, w₁) → w₁.target? x = none →
    Bean.dereference user x w = some (.ok t, w₁.pin x t)
  called : ∀ ask args, Bean.invoke user ask x ⟨dereferenceMethod, args⟩ w =
    (Bean.dereference user x >>= fun t => pure (.bean t)) w
  passed : ∀ ask call, r.routes.route call.method = .delegate →
    Bean.invoke user ask x call w = (Bean.dereference user x >>= Reference.passOn ask call) w

section Reference

variable {w w' : World C S} {t : BeanId} {r : EarlyReference C}

theorem World.yields_of_target? (h : w.target? x = some t)
    (own : ∀ r, w.bean? x = some (.early r) → r.routes.route dereferenceMethod = .dereference) :
    w.Yields x t := by
  intro user u same
  obtain ⟨r, early, resolved⟩ := World.early_of_target? h
  have early' : u.bean? x = some (.early r) := same.trans early
  have route := own r early
  have found : Bean.dereference user x u = some (.ok t, u) := by
    rw [Bean.dereference_early user x r u early', Reference.dereference_own user x r u route]
    exact Reference.findTarget_pinned user x t r u resolved
  refine ⟨found, fun ask args => ?_, fun ask call r' hr' delegated => ?_⟩
  · rw [Bean.invoke_own user ask x r args u early' route]
    exact Run.bind_ok _ _ _ _ t found
  · cases early.symm.trans hr'
    rw [Bean.invoke_delegated user ask x r call u early' delegated]
    exact Run.bind_ok _ _ _ _ t found

theorem EarlyReference.afresh (r : EarlyReference C) (user : UserCode C S)
    (early : w.bean? x = some (.early r))
    (own : r.routes.route dereferenceMethod = .dereference) (free : r.resolved = none) :
    r.Afresh user x w := by
  have way : Bean.dereference user x w = (Reference.search user r >>= Reference.settle x) w := by
    rw [Bean.dereference_early user x r w early, Reference.dereference_own user x r w own,
      Reference.findTarget_free user x r free]
  exact {
    found t w₁ := Reference.found_of_search user
    failed fault w₁ h := way.trans (Run.bind_fault _ _ _ _ fault h)
    kept t kept w₁ h target := way.trans ((Run.bind_ok _ _ _ _ t h).trans (Reference.settle_kept target))
    pinned t w₁ h target := way.trans ((Run.bind_ok _ _ _ _ t h).trans (Reference.settle_free target))
    called ask args := Bean.invoke_own user ask x r args w early own
    passed ask call route := Bean.invoke_delegated user ask x r call w early route }

/-- The routes of a reference stay. -/
theorem Later.route {method : String} {route : Route} (later : Later w w')
    (own : ∀ r, w'.bean? x = some (.early r) → r.routes.route method = route)
    (early : w.bean? x = some (.early r)) : r.routes.route method = route := by
  obtain ⟨r', early', same, _⟩ := early_of_later later x r early
  have routes : r'.routes = r.routes := congrArg (·.routes) same
  rw [← routes]
  exact own r' early'

/-- What the way to the target brings is the target then. -/
theorem target?_of_findTarget {user : UserCode C S} (later : Later w w')
    (early : w.bean? x = some (.early r))
    (found : Reference.findTarget user x r w = some (.ok t, w')) : w'.target? x = some t := by
  obtain ⟨r', early', _⟩ := early_of_later later x r early
  exact World.target?_of_early early'
    (Reference.resolved_of_findTarget user x t r r' w w' early found early')

variable {depth : Nat}
  (own : ∀ r, w'.bean? x = some (.early r) → r.routes.route dereferenceMethod = .dereference)

include own

theorem target?_of_dereference
    (h : answer lang depth (.dereference x) w = some (.ok t, w')) : w'.target? x = some t := by
  have later := answer_later h
  cases depth with
  | zero => cases h
  | succ depth =>
    obtain ⟨r, early⟩ := Bean.early_of_dereference h
    have found := target_of_dereference _ x t r w w' early (later.route own early) h
    exact target?_of_findTarget later early found

theorem target?_of_invoke {args : List (Value BeanId)} (early : w.bean? x = some (.early r))
    (h : answer lang depth (.invoke x ⟨dereferenceMethod, args⟩) w = some (.ok (.bean t), w')) :
    w'.target? x = some t := by
  have later := answer_later h
  cases depth with
  | zero => cases h
  | succ depth =>
    have found := target_of_invoke _ _ x t r args w w' early (later.route own early) h
    exact target?_of_findTarget later early found

end Reference

section History

variable {depth : Nat} {p : Program C S α} {s : S} {o : Outcome α} {w' : World C S}
  {moments past future : List (Moment C S)} {m : Moment C S} {t : BeanId}

theorem attained_of_history (h : p.history lang depth (.initial s) = some (o, w', moments)) (x : BeanId) :
    ∃ v, Attained lang x none v ∧ v.plain = w' ∧ v.past.reverse = moments := by
  unfold Program.history Run.history at h
  obtain ⟨⟨o', v⟩, ran, e⟩ := Option.map_eq_some_iff.mp h
  cases e
  have asks := (Attained.throughout lang x depth).asks
  exact ⟨v, Attained.interpret asks p (.initial s) ran, rfl, rfl⟩

/-- A target at a moment was brought by then. -/
theorem dereferenced_of_target?
    (h : p.history lang depth (.initial s) = some (o, w', past ++ m :: future))
    (target : m.world.target? x = some t) : Dereferenced lang (past ++ [m]) x t := by
  obtain ⟨v, attained, _, rest⟩ := attained_of_history h x
  have split : v.past = future.reverse ++ m :: past.reverse := by
    rw [← List.reverse_reverse v.past, rest]
    simp
  have brought := attained.moments m past.reverse ⟨future.reverse, split.symm⟩ t target
  exact brought.mono fun _ hm => by simpa [or_comm] using hm

/-- In every world of the run, the reference is dereferenced by its own route. -/
theorem route_of_history (h : p.history lang depth (.initial s) = some (o, w', moments))
    (own : ∀ r, w'.bean? x = some (.early r) → r.Dereferenceable) :
    ∀ v ∈ moments.map Moment.world ++ [w'], ∀ r, v.bean? x = some (.early r) →
      r.routes.route dereferenceMethod = .dereference := by
  intro v hv r early
  have later : Later v w' := by
    have all := history_later h
    rcases List.mem_append.mp hv with before | last
    · exact (List.pairwise_append.mp all).2.2 v (List.mem_cons_of_mem _ before) w' (by simp)
    · rw [List.mem_singleton.mp last]
      exact .refl w'
  obtain ⟨r', early', same, _⟩ := early_of_later later x r early
  have target : r'.target = r.target := congrArg (·.target) same
  have type : r'.type = r.type := congrArg Target.type target
  have own' : r.Dereferenceable := by
    have declared := own r' early'
    rwa [EarlyReference.Dereferenceable, type] at declared
  exact route_dereference (history_coherent h v hv) x r r early rfl own'

/-- What a dereference has brought is the target of the reference in all worlds later than the moments that tell
of it. -/
theorem Dereferenced.target? {known : List (Moment C S)} {v : World C S}
    (h : p.history lang depth (.initial s) = some (o, w', moments))
    (own : ∀ r, w'.bean? x = some (.early r) → r.Dereferenceable)
    (brought : Dereferenced lang known x t) (sub : known ⊆ moments)
    (later : ∀ m ∈ known, Later m.world v) : v.target? x = some t := by
  have holds (m : Moment C S) (hm : m ∈ known) : m.Holds lang m.world := history_holds h m (sub hm)
  have route (m : Moment C S) (hm : m ∈ known) := route_of_history h own m.world
    (List.mem_append_left _ (List.mem_map_of_mem (sub hm)))
  cases brought with
  | directly w w₁ answered =>
    obtain ⟨_, depth, ha⟩ := holds _ answered
    exact (later _ answered).target? (target?_of_dereference (route _ answered) ha)
  | passingOn call depth w w₁ r early delegated asked found passed =>
    have target : w₁.target? x = some t := target?_of_dereference (route _ passed) found
    exact (later _ passed).target? target
  | byCall args w w₁ r early answered =>
    obtain ⟨_, depth, ha⟩ := holds _ answered
    exact (later _ answered).target? (target?_of_invoke (route _ answered) early ha)

end History

/-- In every run from the empty world, of a reference whose type declares no producer method in the place of the
dereference: all dereferences bring the same bean, also those inside of others or of delegated calls; from the
moment on at which the first one has brought it, they do so without looking at anything but the reference; and
before that, whatever has failed, the reference is as it was made and is dereferenced afresh. -/
theorem targets_pinned (lang : Language C S) (depth : Nat) (p : Program C S α) (s : S)
    (o : Outcome α) (w' : World C S) (moments : List (Moment C S)) (x : BeanId)
    (run : p.history lang depth (.initial s) = some (o, w', moments))
    (own : ∀ r, w'.bean? x = some (.early r) → r.Dereferenceable) :
    (∀ t t', Dereferenced lang moments x t → Dereferenced lang moments x t' → t = t') ∧
    ∀ past m future, moments = past ++ m :: future →
      (∀ t, Dereferenced lang (past ++ [m]) x t →
        ∀ v ∈ m.world :: future.map Moment.world ++ [w'], v.Yields x t) ∧
      ((∀ t, ¬Dereferenced lang (past ++ [m]) x t) →
        ∀ r, m.world.bean? x = some (.early r) →
          r = .make r.creator r.target ∧ ∀ user, r.Afresh user x m.world) := by
  have route := route_of_history run own
  have last (m : Moment C S) (hm : m ∈ moments) : Later m.world w' := by
    obtain ⟨past, future, rfl⟩ := List.append_of_mem hm
    exact history_later_from run w' (by simp)
  refine ⟨fun t t' brought brought' => ?_, fun past m future split => ⟨?_, ?_⟩⟩
  · have target := brought.target? run own (List.Subset.refl moments) last
    have target' := brought'.target? run own (List.Subset.refl moments) last
    exact Option.some.inj (target.symm.trans target')
  · intro t brought v hv
    subst split
    have later (m' : Moment C S) (hm' : m' ∈ past ++ [m]) : Later m'.world v :=
      history_later_between run hm' v hv
    have sub : past ++ [m] ⊆ past ++ m :: future := by simp
    have target := brought.target? run own sub later
    refine World.yields_of_target? target (route v ?_)
    simp only [List.map_append, List.map_cons, List.append_assoc] at hv ⊢
    exact List.mem_append_right _ hv
  · intro nothing r early
    subst split
    have here : m.world ∈ (past ++ m :: future).map Moment.world ++ [w'] := by simp
    have free : r.resolved = none := by
      cases resolved : r.resolved with
      | none => rfl
      | some t =>
        have target := World.target?_of_early early resolved
        exact absurd (dereferenced_of_target? run target) (nothing t)
    have new : r = .make r.creator r.target := by
      have routes := (history_coherent run m.world here).routes x r early
      calc
        r = ⟨r.target, r.routes, r.creator, r.resolved⟩ := rfl
        _ = .make r.creator r.target := by rw [routes, free]; rfl
    exact ⟨new, fun user => r.afresh user early (route m.world here r early) free⟩

/-- The factory of the first bean defines another bean in front of it, dereferences the reference, and makes its own
bean only then. -/
def overtaking : Language Bool Unit where
  run first
    | .make c => do
      let type : BeanType := .interface "app::I"
      if first then
        .request (.define c { name := "b", type, primary := true, factory := false })
        let _ ← .request (.dereference ⟨0⟩)
      .request (.create type false)
    | _ => .fail (.illegalState "")
  describe _ := ""

/-- Dereferences a reference before there is a bean for it, and again when there is one. -/
def retrying (c : ContainerId) : Program Bool Unit BeanId := do
  let type : BeanType := .interface "app::I"
  let status ← .request .newStatus
  let early ← .request (.createProxy ⟨.container c, status⟩ ⟨type, none⟩)
  let _ ← (Program.request (.dereference early)).attempt
  .request (.define c { name := "a", type, factory := true })
  .request (.dereference early)

/-- The search has found the one bean, and the dereference brings the other. -/
theorem targets_pinned_overtaking : ∃ w' moments,
    (retrying ⟨0⟩).history overtaking 3 (.initial ()) = some (.ok ⟨1⟩, w', moments) ∧
    (w'.container ⟨0⟩).singleton? "a" = some ⟨2⟩ ∧
    ∀ t, Dereferenced overtaking moments ⟨0⟩ t ↔ t = ⟨1⟩ := by
  obtain ⟨w', r, ran, found, early, plain, resolved⟩ : ∃ w' r,
      (retrying ⟨0⟩).interpret (answer overtaking 3) (.initial ()) = some (.ok ⟨1⟩, w') ∧
      (w'.container ⟨0⟩).singleton? "a" = some ⟨2⟩ ∧
      w'.bean? ⟨0⟩ = some (.early r) ∧ r.type.allMethods = [] ∧ r.resolved = some ⟨1⟩ :=
    ⟨_, _, rfl, rfl, rfl, rfl, rfl⟩
  obtain ⟨moments, run⟩ := history_of_interpret ran
  have own (r' : EarlyReference Bool) (early' : w'.bean? ⟨0⟩ = some (.early r')) :
      r'.Dereferenceable := by
    cases early.symm.trans early'
    exact .of_plain plain
  have brought : Dereferenced overtaking moments ⟨0⟩ ⟨1⟩ := by
    obtain ⟨v, attained, rfl, rfl⟩ := attained_of_history run ⟨0⟩
    have told := (attained.targets ⟨1⟩ (World.target?_of_early early resolved)).resolve_right nofun
    exact told.mono fun _ hm => List.mem_reverse.mpr hm
  obtain ⟨same, _⟩ := targets_pinned overtaking 3 (retrying ⟨0⟩) () _ w' moments ⟨0⟩ run own
  refine ⟨w', moments, run, found, fun t => ⟨fun other => same t ⟨1⟩ other brought, ?_⟩⟩
  rintro rfl
  exact brought

end Wiring
