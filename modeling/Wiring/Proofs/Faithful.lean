import Wiring.Proofs.Parallel

namespace Wiring

variable {C S : Type} {lang : Language C S} {R : World C (Noted C S) → World C (Noted C S) → Prop}
  {user : UserCode C S} {user' : UserCode C (Noted C S)}
  {ask : (q : Request C) → Run C S q.Answer} {ask' : (q : Request C) → Run C (Noted C S) q.Answer}

namespace Lookup

theorem finish_plain (c : ContainerId) (d : Definition C) (o : Outcome BeanId)
    (v : World C (Noted C S)) :
    finish c d (some (o, v.plain)) = (finish c d (some (o, v))).map fun x => (x.1, x.2.plain) := by
  match o with
  | .error e => rfl
  | .panic text => rfl
  | .ok b =>
    cases hb : v.bean? b with
    | none =>
      simp only [finish, World.plain_bean?, hb]
      rfl
    | some x =>
      cases ht : x.type.isAssignableTo d.type with
      | true =>
        simp only [finish, World.plain_bean?, hb, ht, if_true, Option.map_some,
          World.plain_complete]
        rfl
      | false =>
        simp only [finish, World.plain_bean?, hb, ht]
        rfl

/-- The creation of a bean: its mark is set, and goes again however the factory ends. -/
private theorem create_parallel (hR : Steady lang R) (hu : CallsParallel lang R user user')
    (c : ContainerId) (d : Definition C) (v : World C (Noted C S)) (begins : Begins v.plain c d) :
    Parallel R (fun w => finish c d (user d.factory (.make c) (w.mark d.name)))
      (fun w => finish c d (user' d.factory (.make c) (w.mark d.name))) v := by
  rcases hu d.factory (.make c) (v.mark d.name) with ⟨h', h⟩ | ⟨o, v₁, h', h, ran, ended⟩
  · exact .inl ⟨congrArg (finish c d) h', congrArg (finish c d) h⟩
  · obtain ⟨o', v', finished⟩ := finish_ends c d o (v₁.leave v c d o)
    refine .inr ⟨o', v', (congrArg (finish c d) h').trans finished, ?_,
      hR.created v c d o v₁ o' v' begins ran ended finished⟩
    refine (congrArg (finish c d) h).trans ?_
    have plain := finish_plain c d o (v₁.leave v c d o)
    rw [finished] at plain
    exact plain

theorem getBean_parallel (hR : Steady lang R) (hu : CallsParallel lang R user user') (c : ContainerId)
    (n : String) (v : World C (Noted C S)) :
    Parallel R (getBean user c n) (getBean user' c n) v := by
  unfold Parallel
  cases hs : (v.container c).singleton? n with
  | some b =>
    rw [getBean_registered user c n b v.plain hs, getBean_registered user' c n b v hs]
    exact .inr ⟨_, v, rfl, rfl, hR.refl v⟩
  | none =>
    cases hd : (v.container c).definition? n with
    | none =>
      rw [getBean_unknown user c n v.plain hs hd, getBean_unknown user' c n v hs hd]
      exact .inr ⟨_, v, rfl, rfl, hR.refl v⟩
    | some d =>
      cases hc : d.created with
      | some b =>
        rw [getBean_adopted user c n d b v.plain hs hd hc, getBean_adopted user' c n d b v hs hd hc]
        exact .inr ⟨_, _, rfl, rfl, hR.step v _ rfl (.adopted v.plain c n d b hd hc hs)⟩
      | none =>
        by_cases hm : n ∈ v.marks
        · rw [getBean_marked user c n d v.plain hs hd hc hm, getBean_marked user' c n d v hs hd hc hm]
          exact .inr ⟨_, v, rfl, rfl, hR.refl v⟩
        · obtain rfl : d.name = n := Container.name_of_definition? _ n d hd
          rw [getBean_create user c _ d v.plain hs hd hc hm, getBean_create user' c _ d v hs hd hc hm]
          exact create_parallel hR hu c d v ⟨hd, hc, hs, hm⟩

theorem resolve_parallel (hR : Steady lang R) (hu : CallsParallel lang R user user') (c : ContainerId)
    (d : Dependency) (requesting : Option String) (v : World C (Noted C S)) :
    Parallel R (resolve user c d requesting) (resolve user' c d requesting) v := by
  refine .get_bind (.bind hR (.ofExcept hR _) fun n v' => ?_)
  exact getBean_parallel hR hu c n v'

theorem registerSingleton_parallel (hR : Steady lang R) (c : ContainerId) (n : String) (b : BeanId)
    (v : World C (Noted C S)) (ordered : v.Ordered c n b) :
    Parallel R (registerSingleton c n b) (registerSingleton c n b) v := by
  refine .bean_bind hR b fun x hx => .get_bind (.ite (fun _ => .fail hR _) fun hs => ?_)
  · refine .modify hR rfl rfl (.registered v.plain c n b ordered ?_ ?_)
    · simp [hx]
    · simpa [Container.hasSingleton] using hs

theorem preinstantiateOne_parallel (hR : Steady lang R) (hu : CallsParallel lang R user user')
    (c : ContainerId) (n : String) (v : World C (Noted C S)) :
    Parallel R (preinstantiateOne user c n) (preinstantiateOne user' c n) v := by
  refine .get_bind (.ite (fun _ => ?_) fun _ => .pure hR ())
  refine .bind hR (.record hR _ rfl) fun _ v' => ?_
  exact .bind hR (getBean_parallel hR hu c n v') fun _ _ => .pure hR ()

theorem preinstantiateEach_parallel (hR : Steady lang R) (hu : CallsParallel lang R user user')
    (c : ContainerId) (names : List String) (v : World C (Noted C S)) :
    Parallel R (preinstantiateEach user c names) (preinstantiateEach user' c names) v := by
  induction names generalizing v with
  | nil => exact .pure hR ()
  | cons n rest ih =>
    exact .bind hR (preinstantiateOne_parallel hR hu c n v) fun _ v' => ih v'

theorem preinstantiate_parallel (hR : Steady lang R) (hu : CallsParallel lang R user user')
    (c : ContainerId) (v : World C (Noted C S)) :
    Parallel R (preinstantiate user c) (preinstantiate user' c) v :=
  .get_bind (preinstantiateEach_parallel hR hu c _ v)

end Lookup

namespace Reference

theorem make_parallel (hR : Steady lang R) (k : Creator C) (target : Target)
    (v : World C (Noted C S)) : Parallel R (make k target) (make k target) v := by
  let v₁ := v.record (.creatingReference target.type.name)
  have recorded : R v v₁ := hR.step v v₁ rfl (.recorded v.plain _ rfl)
  have added : R v₁ (v₁.addBean (.early (.make k target))).2 :=
    hR.step v₁ _ rfl (.reference v₁.plain k target)
  exact .inr ⟨_, _, rfl, rfl, hR.trans v v₁ _ recorded added⟩

theorem createProxy_parallel (hR : Steady lang R) (k : Creator C) (d : Dependency)
    (v : World C (Noted C S)) : Parallel R (createProxy k d) (createProxy k d) v :=
  .bind hR (.ofExcept hR _) fun _ v' => make_parallel hR k _ v'

theorem createMethodProxy_parallel (hR : Steady lang R) (k : Creator C) (declaring : BeanType)
    (m : Method BeanType) (v : World C (Noted C S)) :
    Parallel R (createMethodProxy k declaring m) (createMethodProxy k declaring m) v :=
  .bind hR (.ofExcept hR _) fun target v' => make_parallel hR k target v'

theorem produce_parallel (hR : Steady lang R) (r : EarlyReference C) (m : Method BeanType)
    (v : World C (Noted C S)) : Parallel R (produce r m) (produce r m) v := by
  refine .get_bind ?_
  rw [World.plain_creatingProxies]
  refine .ite (fun _ => ?_) fun _ => .fail hR _
  exact .bind hR (createMethodProxy_parallel hR r.creator r.type m v) fun _ _ => .pure hR _

private theorem existing_parallel (hR : Steady lang R) {r : Run C S BeanId}
    {r' : Run C (Noted C S) BeanId} {v : World C (Noted C S)} (h : Parallel R r r' v) :
    Parallel R (Lookup.existing r) (Lookup.existing r') v :=
  .bind hR h fun b _ => .bean_bind hR b fun _ _ => .pure hR b

theorem lookUp_parallel (hR : Steady lang R) (hu : CallsParallel lang R user user')
    (registry : Registry C) (target : Target) (v : World C (Noted C S)) :
    Parallel R (lookUp user registry target) (lookUp user' registry target) v := by
  refine .bind hR (.record hR _ (by cases target <;> rfl)) fun _ v' => ?_
  match registry, target with
  | .container c, .dependency d => exact Lookup.resolve_parallel hR hu c d none v'
  | .container c, .named n _ => exact Lookup.getBean_parallel hR hu c n v'
  | .custom code, .dependency d => exact existing_parallel hR (.call hR hu code _ nofun .intro)
  | .custom code, .named n _ => exact existing_parallel hR (.call hR hu code _ nofun .intro)

private theorem exists_of_existing (r : Run C S BeanId) (w w' : World C S) (t : BeanId)
    (h : Lookup.existing r w = some (.ok t, w')) : (w'.bean? t).isSome := by
  obtain ⟨b, w₁, _, h₁⟩ := Run.ok_of_bind _ _ _ _ _ h
  obtain ⟨x, w₂, hx, h₂⟩ := Run.ok_of_bind _ _ _ _ _ h₁
  cases h₂
  cases hb : w₁.bean? t with
  | none => simp [Run.bean_none t w₁ hb] at hx
  | some y =>
    rw [Run.bean_some t y w₁ hb] at hx
    cases hx
    simp [hb]

/-- What a look-up for a reference brings, by where and for what it looks. -/
theorem found_of_lookUp (user : UserCode C S) (registry : Registry C) (target : Target)
    (w w' : World C S) (t : BeanId) (h : lookUp user registry target w = some (.ok t, w')) :
    Found w w' registry target t := by
  obtain ⟨_, w₁, h₀, h⟩ := Run.ok_of_bind _ _ _ _ _ h
  cases h₀
  match registry, target with
  | .container c, .dependency d =>
    exact Lookup.registered_of_resolve user c d none t (w.record (report (.dependency d))) w' h
  | .container c, .named n _ => exact Lookup.registered_of_getBean user c n t _ w' h
  | .custom code, .dependency d => exact exists_of_existing _ _ w' t h
  | .custom code, .named n _ => exact exists_of_existing _ _ w' t h

/-- The flag plays no part in what is found. -/
theorem found_of_flagged (w₀ w : World C S) (s : StatusId) (x y : Bool)
    (registry : Registry C) (target : Target) (t : BeanId)
    (h : Found (w₀.setCreatingProxies s x) w registry target t) :
    Found w₀ (w.setCreatingProxies s y) registry target t := by
  match registry, target with
  | .container c, .dependency d => exact h
  | .container c, .named n _ => exact h
  | .custom code, .dependency d => exact h
  | .custom code, .named n _ => exact h

theorem findTarget_parallel (hR : Steady lang R) (hu : CallsParallel lang R user user') (b : BeanId)
    (r : EarlyReference C) (v : World C (Noted C S)) (called : v.Called b)
    (hr : v.bean? b = some (.early r)) :
    Parallel R (findTarget user b r) (findTarget user' b r) v := by
  unfold findTarget
  cases hres : r.resolved with
  | some t => exact .pure hR t
  | none =>
    change Parallel R (Run.guarded r.creator.status false (lookUp user r.creator.registry r.target) >>=
      settle b) (Run.guarded r.creator.status false (lookUp user' r.creator.registry r.target) >>=
      settle b) v
    have search := Parallel.guarded hR r.creator.status false
      (lookUp_parallel hR hu r.creator.registry r.target (v.setCreatingProxies r.creator.status false))
    -- What was found is still so once the flag is back.
    have found (t : BeanId) (w : World C S)
        (h : Run.guarded r.creator.status false (lookUp user r.creator.registry r.target) v.plain =
          some (.ok t, w)) : Found v.plain w r.creator.registry r.target t := by
      simp only [Run.guarded, Run.cleanup] at h
      split at h
      · cases h
      · rename_i o w₁ hl
        cases h
        exact found_of_flagged _ _ _ _ _ _ _ t (found_of_lookUp user _ _ _ w₁ t hl)
    rcases search with ⟨h', h⟩ | ⟨o, v₁, h', h, ha⟩
    · exact .inl ⟨Run.bind_none _ _ _ h', Run.bind_none _ _ _ h⟩
    · cases o with
      | error e =>
        exact .inr ⟨_, v₁, Run.bind_error _ _ _ _ e h', Run.bind_error _ _ _ _ e h, ha⟩
      | panic text =>
        exact .inr ⟨_, v₁, Run.bind_panic _ _ _ _ text h', Run.bind_panic _ _ _ _ text h, ha⟩
      | ok t =>
        unfold Parallel
        rw [Run.bind_ok _ _ _ _ t h', Run.bind_ok _ _ _ _ t h]
        right
        simp only [settle, World.plain_bean?]
        cases hk : (v₁.bean? b).bind fun x => x.early?.bind (·.resolved) with
        | some kept => exact ⟨_, v₁, rfl, rfl, ha⟩
        | none =>
          exact ⟨_, _, rfl, rfl, hR.pinned v v₁ b r t called hr hres ha hk (found t v₁.plain h)⟩

theorem onRoute_parallel (hR : Steady lang R) (hu : CallsParallel lang R user user') (b : BeanId)
    (r : EarlyReference C) (route : Route) (v : World C (Noted C S))
    (called : v.Called b) (hr : v.bean? b = some (.early r)) :
    Parallel R (onRoute user b r route) (onRoute user' b r route) v := by
  cases route with
  | produce m => exact produce_parallel hR r m v
  | object m => exact .ofExcept hR _
  | dereference | delegate =>
    exact .bind hR (findTarget_parallel hR hu b r v called hr) fun _ _ => .pure hR _

theorem unexpected_parallel {α : Type} (hR : Steady lang R) (method : String) (x : Value BeanId)
    (v : World C (Noted C S)) :
    Parallel R (unexpected method x : Run C S α) (unexpected method x) v := by
  refine .get_bind ?_
  rw [World.plain_typeName]
  exact .fail hR _

theorem dereference_parallel (hR : Steady lang R) (hu : CallsParallel lang R user user') (b : BeanId)
    (r : EarlyReference C) (v : World C (Noted C S)) (called : v.Called b)
    (hr : v.bean? b = some (.early r)) :
    Parallel R (dereference user b r) (dereference user' b r) v := by
  refine .bind hR (onRoute_parallel hR hu b r _ v called hr) fun x v' => ?_
  cases x with
  | bean t => exact .pure hR t
  | unit | bool | int | str => exact unexpected_parallel hR _ _ v'

theorem invoke_parallel (hR : Steady lang R) (hu : CallsParallel lang R user user')
    (hask : AsksParallel R ask ask') (b : BeanId) (r : EarlyReference C) (call : Call BeanId)
    (v : World C (Noted C S)) (called : v.Called b)
    (hr : v.bean? b = some (.early r)) :
    Parallel R (invoke user ask b r call) (invoke user' ask' b r call) v := by
  unfold invoke
  cases r.routes.route call.method with
  | produce | object | dereference => exact onRoute_parallel hR hu b r _ v called hr
  | delegate =>
    refine .bind hR (dereference_parallel hR hu b r v called hr) fun t v' => .get_bind ?_
    refine .bind hR (.record hR _ rfl) fun _ v'' => ?_
    exact hask _ v''

end Reference

namespace Bean

theorem invoke_parallel (hR : Steady lang R) (hu : CallsParallel lang R user user')
    (hask : AsksParallel R ask ask') (b : BeanId) (call : Call BeanId) (v : World C (Noted C S))
    (called : v.Called b) :
    Parallel R (invoke user ask b call) (invoke user' ask' b call) v := by
  refine .bean_bind hR b fun x hx => ?_
  cases x with
  | object t code => exact .call hR hu code _ nofun .intro
  | early r => exact Reference.invoke_parallel hR hu hask b r call v called hx

theorem describe_parallel (hR : Steady lang R) (hu : CallsParallel lang R user user')
    (hask : AsksParallel R ask ask') (b : BeanId) (v : World C (Noted C S))
    (called : v.Called b) :
    Parallel R (describe user ask b) (describe user' ask' b) v := by
  refine .bean_bind hR b fun x hx => ?_
  cases x with
  | object t code => exact .pure hR _
  | early r =>
    refine .bind hR (Reference.invoke_parallel hR hu hask b r _ v called hx) fun a v' => ?_
    cases a with
    | str s => exact .pure hR _
    | unit | bool | int | bean => exact Reference.unexpected_parallel hR _ _ v'

theorem equals_parallel (hR : Steady lang R) (hu : CallsParallel lang R user user')
    (hask : AsksParallel R ask ask') (b : BeanId) (other : Value BeanId) (v : World C (Noted C S))
    (called : v.Called b) :
    Parallel R (equals user ask b other) (equals user' ask' b other) v := by
  refine .bean_bind hR b fun x hx => ?_
  cases x with
  | object t code => exact .pure hR _
  | early r =>
    refine .bind hR (Reference.invoke_parallel hR hu hask b r _ v called hx) fun a v' => ?_
    cases a with
    | bool a => exact .pure hR _
    | unit | str | int | bean => exact Reference.unexpected_parallel hR _ _ v'

theorem hashCode_parallel (hR : Steady lang R) (hu : CallsParallel lang R user user')
    (hask : AsksParallel R ask ask') (b : BeanId) (v : World C (Noted C S))
    (called : v.Called b) :
    Parallel R (hashCode user ask b) (hashCode user' ask' b) v := by
  refine .bean_bind hR b fun x hx => ?_
  cases x with
  | object t code => exact .pure hR _
  | early r =>
    refine .bind hR (Reference.invoke_parallel hR hu hask b r _ v called hx) fun a v' => ?_
    cases a with
    | int i => exact .pure hR _
    | unit | str | bool | bean => exact Reference.unexpected_parallel hR _ _ v'

theorem dereference_parallel (hR : Steady lang R) (hu : CallsParallel lang R user user') (b : BeanId)
    (v : World C (Noted C S)) (called : v.Called b) :
    Parallel R (dereference user b) (dereference user' b) v := by
  refine .bean_bind hR b fun x hx => ?_
  cases x with
  | object t code => exact .panic hR _
  | early r => exact Reference.dereference_parallel hR hu b r v called hx

end Bean

namespace Specification

theorem setSource_parallel (hR : Steady lang R) (hu : CallsParallel lang R user user')
    (source : Source) (s : Specification C) (v : World C (Noted C S)) :
    Parallel R (setSource user source s) (setSource user' source s) v := by
  cases s with
  | register n b _ => exact .pure hR _
  | custom code => exact .bind hR (.call hR hu code _ nofun .intro) fun _ _ => .pure hR _

theorem validate_parallel (hR : Steady lang R) (hu : CallsParallel lang R user user')
    (s : Specification C) (v : World C (Noted C S)) :
    Parallel R (validate user s) (validate user' s) v := by
  cases s with
  | register n b _ => exact .ite (fun _ => .fail hR _) fun _ => .pure hR ()
  | custom code => exact .call hR hu code _ nofun .intro

theorem executorType_parallel (hR : Steady lang R) (hu : CallsParallel lang R user user')
    (s : Specification C) (v : World C (Noted C S)) :
    Parallel R (executorType user s) (executorType user' s) v := by
  cases s with
  | register n b _ => exact .pure hR _
  | custom code => exact .call hR hu code _ nofun .intro

theorem applyTo_parallel (hR : Steady lang R) (hu : CallsParallel lang R user user') (c : ContainerId)
    (e : Executor C) (s : Specification C) (v : World C (Noted C S))
    (ordered : ∀ n b source, s = .register n b source → e = .registering → v.Ordered c n b) :
    Parallel R (applyTo lang user c e s) (applyTo lang.chronicled user' c e s) v := by
  cases e with
  | custom code => exact .call hR hu code _ nofun .intro
  | registering =>
    cases s with
    | register n b source =>
      exact Lookup.registerSingleton_parallel hR c n b v (ordered n b source rfl rfl)
    | custom code => exact .fail hR _

/-- A valid specification that registers a bean is found so without any change. -/
private theorem validate_register {D T : Type} {user : UserCode D T} {n : String} {b : BeanId}
    {source : Option Source} {w w' : World D T}
    (h : validate user (.register n b source) w = some (.ok (), w')) : w' = w := by
  simp only [validate] at h
  split at h
  · cases h
  · cases h
    rfl

theorem execute_parallel (hR : Steady lang R) (hu : CallsParallel lang R user user') (c : ContainerId)
    (e : Executor C) (s : Specification C) (v : World C (Noted C S))
    (ordered : ∀ n b source, s = .register n b source → e = .registering → v.Ordered c n b) :
    Parallel R (execute lang user c e s) (execute lang.chronicled user' c e s) v := by
  refine .bind_of hR (validate_parallel hR hu s v) fun _ v' valid _ => ?_
  refine applyTo_parallel hR hu c e s v' fun n b source hs he => ?_
  subst hs
  exact validate_register valid ▸ ordered n b source rfl he

theorem describe_chronicled (lang : Language C S) (v : World C (Noted C S)) (s : Specification C) :
    describe lang v.plain s = describe lang.chronicled v s := by
  cases s <;> rfl

end Specification

namespace Bootstrap

theorem defineAll_parallel (hR : Steady lang R) (c : ContainerId) (producers : List (Producer C))
    (v : World C (Noted C S)) :
    R v (defineAll c producers v) ∧
      (defineAll c producers v).plain = defineAll c producers v.plain := by
  induction producers generalizing v with
  | nil => exact ⟨hR.refl v, rfl⟩
  | cons p rest ih =>
    have first : R v (v.define c p.recipe) := by
      refine hR.step v _ (World.past_define v c p.recipe) ?_
      rw [World.plain_define]
      exact .defined v.plain c p.recipe
    obtain ⟨ha, e⟩ := ih (v.define c p.recipe)
    refine ⟨hR.trans v _ _ first ha, e.trans ?_⟩
    rw [World.plain_define]
    rfl

theorem registerConfiguration_parallel (hR : Steady lang R) (p : Processor C) (c : Configuration C)
    (v : World C (Noted C S)) :
    Parallel R (registerConfiguration p c) (registerConfiguration p c) v := by
  refine .ite (fun _ => .fail hR _) fun _ => ?_
  obtain ⟨ha, e⟩ := defineAll_parallel hR p.container c.producers v
  have defined : Parallel R (Run.modify (defineAll p.container c.producers))
      (Run.modify (defineAll p.container c.producers)) v := .inr ⟨_, _, rfl, by rw [e]; rfl, ha⟩
  refine .bind hR defined fun _ v' => ?_
  exact .bind hR (.record hR _ rfl) fun _ _ => .pure hR _

theorem callProducer_parallel (hR : Steady lang R) (hu : CallsParallel lang R user user')
    (p : Processor C) (c : Configuration C) (n : String) (v : World C (Noted C S)) :
    Parallel R (callProducer user p c n) (callProducer user' p c n) v := by
  unfold callProducer
  split
  · exact .fail hR _
  · refine .get_bind ?_
    rw [World.plain_creatingProxies]
    exact .ite (fun _ => Reference.createMethodProxy_parallel hR _ _ _ v)
      fun _ => Lookup.getBean_parallel hR hu _ n v

theorem callProducerOn_parallel (hR : Steady lang R) (hu : CallsParallel lang R user user')
    (p : Processor C) (configuration n : String) (v : World C (Noted C S)) :
    Parallel R (callProducerOn user p configuration n) (callProducerOn user' p configuration n) v := by
  unfold callProducerOn
  split
  · exact .fail hR _
  · exact callProducer_parallel hR hu p _ n v

theorem parameter_parallel (hR : Steady lang R) (hu : CallsParallel lang R user user')
    (p : Processor C) (d : Dependency) (v : World C (Noted C S)) :
    Parallel R (parameter user p d) (parameter user' p d) v :=
  .ite (fun _ => Reference.createProxy_parallel hR _ d v) fun _ =>
    .guarded hR _ _ (Lookup.resolve_parallel hR hu _ d none _)

theorem parameters_parallel (hR : Steady lang R) (hu : CallsParallel lang R user user')
    (p : Processor C) (source : Source) (index : Nat) (types : List BeanType)
    (v : World C (Noted C S)) :
    Parallel R (parameters user p source index types) (parameters user' p source index types) v := by
  induction types generalizing index v with
  | nil => exact .pure hR _
  | cons t rest ih =>
    refine .bind hR (parameter_parallel hR hu p _ v) fun b v' => ?_
    exact .bind hR (ih (index + 1) v') fun _ _ => .pure hR _

theorem specification_parallel (hR : Steady lang R) (hu : CallsParallel lang R user user')
    (p : Processor C) (c : Configuration C) (f : Feature C) (v : World C (Noted C S)) :
    Parallel R (specification user p c f) (specification user' p c f) v := by
  refine .guarded hR _ _ ?_
  refine .bind_of hR (parameters_parallel hR hu p _ 0 f.parameters _) fun args _ _ ran => ?_
  exact .call hR hu f.body _ nofun fun proxied => (bound_of_parameters proxied ran).2

/-- The specification that a feature method returns is about to be executed. -/
private theorem ordered_of_specification (hu : CallsParallel lang R user user') {p : Processor C}
    {c : Configuration C} {f : Feature C} {v v' : World C (Noted C S)} {n : String} {b : BeanId}
    {source : Option Source}
    (h : specification user' p c f v = some (.ok (.register n b source), v'))
    (executor : p.executors.get? registeringType = some .registering) :
    v'.Ordered p.container n b := by
  obtain ⟨v₁, ran, rfl⟩ := Run.guarded_cases h
  obtain ⟨args, v₂, _, called⟩ := Run.ok_of_bind _ _ _ _ _ ran
  obtain ⟨v₃, rfl, _, _⟩ := hu.ended called
  exact ⟨_, v₃.past, rfl, .returned f.body ⟨p, c⟩ args _ source _ rfl executor, rfl⟩

theorem dispatch_parallel (hR : Steady lang R) (hu : CallsParallel lang R user user')
    (p : Processor C) (s : Specification C) (v : World C (Noted C S))
    (ordered : ∀ n b source, s = .register n b source →
      p.executors.get? registeringType = some .registering → v.Ordered p.container n b) :
    Parallel R (dispatch lang user p s) (dispatch lang.chronicled user' p s) v := by
  refine .bind_of hR (Specification.executorType_parallel hR hu s v) fun type v₁ typed _ => ?_
  split
  · exact .fail hR _
  · rename_i e executor
    refine .get_bind ?_
    rw [Specification.describe_chronicled]
    refine .bind_of hR (.record hR _ rfl) fun _ v' recorded _ => ?_
    cases recorded
    refine Specification.applyTo_parallel hR hu _ _ s _ fun n b source hs he => ?_
    subst hs he
    cases typed
    exact (ordered n b source rfl executor).of_eq rfl rfl

theorem runFeature_parallel (hR : Steady lang R) (hu : CallsParallel lang R user user')
    (p : Processor C) (c : Configuration C) (f : Feature C) (v : World C (Noted C S)) :
    Parallel R (runFeature lang user p c f) (runFeature lang.chronicled user' p c f) v := by
  refine .bind_of hR (specification_parallel hR hu p c f v) fun s v₁ specified _ => ?_
  refine .bind_of hR (Specification.setSource_parallel hR hu _ s v₁) fun s' v₂ sourced _ => ?_
  refine .bind_of hR (Specification.validate_parallel hR hu s' v₂) fun _ v₃ valid _ => ?_
  refine dispatch_parallel hR hu p s' v₃ fun n b source hs executor => ?_
  subst hs
  cases s with
  | register n b _ =>
    -- Neither its source nor the check of its name takes another moment.
    cases sourced
    exact Specification.validate_register valid ▸ ordered_of_specification hu specified executor
  | custom code =>
    obtain ⟨_, _, _, custom⟩ := Run.ok_of_bind _ _ _ _ _ sourced
    cases custom

theorem processFeature_parallel (hR : Steady lang R) (hu : CallsParallel lang R user user')
    (p : Processor C) (c : Configuration C) (f : Feature C) (v : World C (Noted C S)) :
    Parallel R (processFeature lang user p c f) (processFeature lang.chronicled user' p c f) v := by
  simp only [processFeature]
  refine .followedBy hR (.record hR _ rfl) fun _ v₁ => ?_
  refine .followedBy hR (runFeature_parallel hR hu p c f v₁) fun o v₂ => ?_
  cases o with
  | ok a => exact .done hR _
  | panic text => exact .done hR _
  | error e => exact .bind hR (.record hR _ rfl) fun _ v₃ => .fail hR _

theorem processFeatures_parallel (hR : Steady lang R) (hu : CallsParallel lang R user user')
    (p : Processor C) (c : Configuration C) (fs : List (Feature C)) (v : World C (Noted C S)) :
    Parallel R (processFeatures lang user p c fs) (processFeatures lang.chronicled user' p c fs) v := by
  induction fs generalizing v with
  | nil => exact .pure hR ()
  | cons f rest ih =>
    exact .bind hR (processFeature_parallel hR hu p c f v) fun _ v' => ih v'

theorem processConfigurations_parallel (hR : Steady lang R) (hu : CallsParallel lang R user user')
    (p : Processor C) (cs : List (Configuration C)) (v : World C (Noted C S)) :
    Parallel R (processConfigurations lang user p cs)
      (processConfigurations lang.chronicled user' p cs) v := by
  induction cs generalizing v with
  | nil => exact .pure hR ()
  | cons c rest ih =>
    simp only [processConfigurations]
    refine .ite (fun _ => ?_) fun _ => ?_
    · exact .bind hR (.record hR _ rfl) fun _ v' => ih v'
    · exact .bind hR (processFeatures_parallel hR hu p c c.features v) fun _ v' => ih v'

theorem process_parallel (hR : Steady lang R) (hu : CallsParallel lang R user user') (p : Processor C)
    (v : World C (Noted C S)) :
    Parallel R (process lang user p) (process lang.chronicled user' p) v := by
  refine .followedBy hR (.record hR _ rfl) fun _ v₁ => ?_
  refine .cleanup hR ?_ (fun _ => rfl) fun v₂ => hR.step v₂ _ rfl (.recorded v₂.plain _ rfl)
  refine .bind hR (processConfigurations_parallel hR hu p _ v₁) fun _ v₂ => ?_
  exact .ite (fun _ => Lookup.preinstantiate_parallel hR hu _ v₂) fun _ => .pure hR ()

end Bootstrap

/-- Every request, from the world in which it was just noted. -/
theorem serve_parallel (hR : Steady lang R) (hu : CallsParallel lang R user user')
    (hask : AsksParallel R ask ask') (q : Request C) (v : World C (Noted C S))
    (latest : v.past.head? = some (.asked q v.plain)) :
    Parallel R (serve lang user ask q) (serve lang.chronicled user' ask' q) v := by
  have seen : v.Seen q v.plain := List.mem_of_head? latest
  cases q with
  | define c r =>
    exact .modify hR (World.plain_define v c r) (World.past_define v c r) (.defined v.plain c r)
  | registerSingleton c n b =>
    exact Lookup.registerSingleton_parallel hR c n b v (.of_latest latest rfl (.requested _))
  | getBean c n => exact Lookup.getBean_parallel hR hu c n v
  | resolve c d requesting => exact Lookup.resolve_parallel hR hu c d requesting v
  | preinstantiate c => exact Lookup.preinstantiate_parallel hR hu c v
  | container c => exact .inr ⟨_, v, rfl, rfl, hR.refl v⟩
  | create t code => exact .inr ⟨_, _, rfl, rfl, hR.step v _ rfl (.object v.plain t code)⟩
  | bean b =>
    cases hb : v.bean? b with
    | none => exact .inr ⟨_, v, Run.bean_none b v hb, Run.bean_none b v.plain hb, hR.refl v⟩
    | some x => exact .inr ⟨_, v, Run.bean_some b x v hb, Run.bean_some b x v.plain hb, hR.refl v⟩
  | invoke b call => exact Bean.invoke_parallel hR hu hask b call v ⟨_, rfl, seen⟩
  | describe b => exact Bean.describe_parallel hR hu hask b v ⟨_, rfl, seen⟩
  | equals b other => exact Bean.equals_parallel hR hu hask b other v ⟨_, rfl, seen⟩
  | hashCode b => exact Bean.hashCode_parallel hR hu hask b v ⟨_, rfl, seen⟩
  | dereference b => exact Bean.dereference_parallel hR hu b v ⟨_, rfl, seen⟩
  | newStatus => exact .inr ⟨_, _, rfl, rfl, hR.step v _ rfl (.newStatus v.plain)⟩
  | status s => exact .inr ⟨_, v, rfl, rfl, hR.refl v⟩
  | setStatus s value => exact .modify hR rfl rfl (.flagged v.plain s value)
  | createProxy k d => exact Reference.createProxy_parallel hR k d v
  | createMethodProxy k declaring m => exact Reference.createMethodProxy_parallel hR k declaring m v
  | registerConfiguration p c => exact Bootstrap.registerConfiguration_parallel hR p c v
  | process p => exact Bootstrap.process_parallel hR hu p v
  | beanMethod ctx n => exact Bootstrap.callProducer_parallel hR hu _ _ n v
  | beanMethodOn ctx configuration n => exact Bootstrap.callProducerOn_parallel hR hu _ _ n v
  | execute c s e =>
    refine Specification.execute_parallel hR hu c e s v fun n b source hs he => ?_
    subst hs he
    exact .of_latest latest rfl (.executed source _)

/-- Calls of user code, noted, where its requests are parallel. -/
theorem witnessed_parallel (hR : Steady lang R) (depth : Nat)
    (hask : AsksParallel R (answer lang depth) ask') :
    CallsParallel lang R (lang.user (answer lang depth)) (lang.witnessed ask') := by
  intro code e v
  have run : Parallel R (lang.user (answer lang depth) code e) (lang.chronicled.user ask' code e)
      (v.note (.entered code e v.plain)) := .interpret hR hask (lang.run code e) _
  rcases run with ⟨h', h⟩ | ⟨o, v₁, h', h, ran⟩
  · exact .inl ⟨by simp only [Language.witnessed, Run.noting, h'], h⟩
  · exact .inr ⟨o, v₁, by simp only [Language.witnessed, Run.noting, h'], h, ran, rfl, depth, h⟩

/-- The chronicle changes nothing: beside it, every request comes to what it comes to without. -/
theorem chronicle_parallel (hR : Steady lang R) (depth : Nat) :
    AsksParallel R (answer lang depth) (chronicle lang depth) := by
  induction depth with
  | zero => exact fun q v => .inl ⟨rfl, rfl⟩
  | succ depth ih =>
    intro q v
    refine .noting hR _ _ rfl rfl (fun _ _ h => ⟨⟨rfl, depth + 1, h⟩, rfl⟩) ?_
    exact serve_parallel hR (witnessed_parallel hR depth ih) ih q _ rfl

/-- Calls of user code that is answered beside the chronicle. -/
theorem calls_parallel (hR : Steady lang R) (depth : Nat) :
    CallsParallel lang R (lang.user (answer lang depth)) (lang.witnessed (chronicle lang depth)) :=
  witnessed_parallel hR depth (chronicle_parallel hR depth)

/-- A steady relation holds from a request beside a chronicle to its answer. -/
theorem steady_of_chronicle (hR : Steady lang R) {depth : Nat} {q : Request C} {o : Outcome q.Answer}
    {v v' : World C (Noted C S)} (h : chronicle lang depth q v = some (o, v')) : R v v' :=
  ((chronicle_parallel hR depth q v).ended h).2

end Wiring
