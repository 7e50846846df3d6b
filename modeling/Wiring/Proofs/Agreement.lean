import Wiring.Proofs.Coherence
import Wiring.Proofs.Permanence

namespace Wiring

variable {C S α : Type}

namespace Reference

/-- A dereference that succeeds leaves its answer as the target of the reference. -/
private theorem resolved_of_settle (b x t : BeanId) (r : EarlyReference C) (w w' : World C S)
    (h : settle b x w = some (.ok t, w')) (hr : w'.bean? b = some (.early r)) :
    r.resolved = some t := by
  unfold settle at h
  cases hk : (w.bean? b).bind fun v => v.early?.bind (·.resolved) with
  | some kept =>
    rw [hk] at h
    cases h
    simpa [hr, Bean.early?] using hk
  | none =>
    rw [hk] at h
    cases h
    -- The bean was a reference already, since giving it a target made it none.
    cases hb : w.bean? b with
    | none =>
      have hi : w.beans[b.index]? = none := hb
      simp [World.pin, World.bean?, Array.getElem?_modify, hi] at hr
    | some v =>
      have hi : w.beans[b.index]? = some v := hb
      cases v with
      | object type code => simp [World.pin, World.bean?, Array.getElem?_modify, hi] at hr
      | early r' =>
        rw [World.bean?_pin w b x b r' hb, if_pos rfl] at hr
        cases hr
        rfl

theorem resolved_of_findTarget (user : UserCode C S) (b t : BeanId) (r r' : EarlyReference C)
    (w w' : World C S) (hb : w.bean? b = some (.early r))
    (h : findTarget user b r w = some (.ok t, w')) (hb' : w'.bean? b = some (.early r')) :
    r'.resolved = some t := by
  unfold findTarget at h
  cases hr : r.resolved with
  | some kept =>
    rw [hr] at h
    cases h
    rw [hb] at hb'
    cases hb'
    exact hr
  | none =>
    rw [hr] at h
    obtain ⟨x, w₁, _, hs⟩ := Run.ok_of_bind _ _ _ _ _ h
    exact resolved_of_settle b x t r' w₁ w' hs hb'

theorem findTarget_of_onRoute (user : UserCode C S) (b t : BeanId) (r : EarlyReference C)
    (w w' : World C S) (h : onRoute user b r .dereference w = some (.ok (.bean t), w')) :
    findTarget user b r w = some (.ok t, w') := by
  obtain ⟨x, w₁, hf, hx⟩ := Run.ok_of_bind _ _ _ _ _ h
  cases hx
  exact hf

end Reference

/-- The type of a reference declares no producer method under the name of the dereferencing method. -/
def EarlyReference.Dereferenceable (r : EarlyReference C) : Prop :=
  ∀ m ∈ r.type.allMethods, m.name = dereferenceMethod → m.isProducer = false

theorem EarlyReference.Dereferenceable.of_plain {r : EarlyReference C}
    (plain : r.type.allMethods = []) : r.Dereferenceable := by
  intro m hm
  rw [plain] at hm
  cases hm

namespace Moment

/-- By this moment the reference leads to a bean: a dereference has just been answered with it, or it is
the target already, as after a call that was passed on. -/
inductive Reaches (x : BeanId) (r : EarlyReference C) (t : BeanId) : Moment C S → Prop where
  | dereference (w w' : World C S) (early : w.bean? x = some (.early r))
      (own : r.Dereferenceable) : Reaches x r t (.answered (.dereference x) w (.ok t) w')
  | invoke (args : List (Value BeanId)) (w w' : World C S) (early : w.bean? x = some (.early r))
      (own : r.Dereferenceable) :
      Reaches x r t (.answered (.invoke x ⟨dereferenceMethod, args⟩) w (.ok (.bean t)) w')
  | pinned (m : Moment C S) (early : m.world.bean? x = some (.early r))
      (target : r.resolved = some t) : Reaches x r t m

/-- The moment brings a bean for a name in a container. -/
inductive Brings (c : ContainerId) (n : String) (b : BeanId) : Moment C S → Prop where
  | getBean (w w' : World C S) : Brings c n b (.answered (.getBean c n) w (.ok b) w')
  | beanMethod (ctx : Context C) (w w' : World C S) (container : ctx.processor.container = c)
      (off : w.creatingProxies ctx.processor.status = false) :
      Brings c n b (.answered (.beanMethod ctx n) w (.ok b) w')
  | beanMethodOn (ctx : Context C) (configuration : String) (w w' : World C S)
      (container : ctx.processor.container = c)
      (off : w.creatingProxies ctx.processor.status = false) :
      Brings c n b (.answered (.beanMethodOn ctx configuration n) w (.ok b) w')
  | reference (x : BeanId) (r : EarlyReference C) (type : BeanType) (m : Moment C S)
      (registry : r.creator.registry = .container c) (target : r.target = .named n type)
      (reaches : m.Reaches x r b) : Brings c n b m

end Moment

theorem target_of_dereference (user : UserCode C S) (b t : BeanId) (r : EarlyReference C)
    (w w' : World C S) (hb : w.bean? b = some (.early r))
    (route : r.routes.route dereferenceMethod = .dereference)
    (h : Bean.dereference user b w = some (.ok t, w')) :
    Reference.findTarget user b r w = some (.ok t, w') := by
  rw [Bean.dereference, Run.bind_ok _ _ _ _ _ (Run.bean_some b _ w hb)] at h
  obtain ⟨x, w₁, hx, h⟩ := Run.ok_of_bind _ _ _ _ _ h
  rw [route] at hx
  cases x with
  | bean a =>
    cases h
    exact Reference.findTarget_of_onRoute user b t r w w' hx
  | unit | bool | int | str => cases h

theorem target_of_invoke (user : UserCode C S)
    (ask : (q : Request C) → Run C S q.Answer) (b t : BeanId) (r : EarlyReference C)
    (args : List (Value BeanId)) (w w' : World C S) (hb : w.bean? b = some (.early r))
    (route : r.routes.route dereferenceMethod = .dereference)
    (h : Bean.invoke user ask b ⟨dereferenceMethod, args⟩ w = some (.ok (.bean t), w')) :
    Reference.findTarget user b r w = some (.ok t, w') := by
  rw [Bean.invoke, Run.bind_ok _ _ _ _ _ (Run.bean_some b _ w hb)] at h
  simp only [Reference.invoke, route] at h
  exact Reference.findTarget_of_onRoute user b t r w w' h

/-- A reference that has become another one is the same up to its target. -/
theorem early_of_later {w w' : World C S} (h : Later w w') (b : BeanId)
    (r : EarlyReference C) (hb : w.bean? b = some (.early r)) :
    ∃ r', w'.bean? b = some (.early r') ∧ r'.unresolved = r.unresolved ∧
      (r.resolved.isSome → r' = r) := by
  obtain ⟨v, hv, hbecomes⟩ := h.beans b _ hb
  cases hbecomes with
  | same => exact ⟨r, hv, rfl, fun _ => rfl⟩
  | pinned _ t free => exact ⟨_, hv, rfl, fun hs => by simp [free] at hs⟩

theorem route_dereference {w : World C S} {Seen : Request C → World C S → Prop}
    (h : Coherent Seen w) (b : BeanId) (r r' : EarlyReference C) (hb : w.bean? b = some (.early r'))
    (e : r'.unresolved = r.unresolved) (own : r.Dereferenceable) :
    r.routes.route dereferenceMethod = .dereference := by
  have routes : r'.routes = r.routes := congrArg (·.routes) e
  have target : r'.target = r.target := congrArg (·.target) e
  have type : r'.type = r.type := congrArg Target.type target
  rw [← routes, h.routes b r' hb, type, Routes.route_forType r.type dereferenceMethod own]
  rfl

namespace Moment

/-- The reference has the bean as its target then. -/
theorem Reaches.leads {lang : Language C S} {Seen : Request C → World C S → Prop} {m : Moment C S}
    {x t : BeanId} {r : EarlyReference C} (h : m.Reaches x r t) (hm : m.Holds lang m.world)
    (hc : Coherent Seen m.world) :
    ∃ r', m.world.bean? x = some (.early r') ∧ r'.resolved = some t ∧
      r'.unresolved = r.unresolved := by
  cases h with
  | pinned _ early target => exact ⟨r, early, target, rfl⟩
  | dereference w w' early own =>
    obtain ⟨_, depth, ha⟩ := hm
    obtain ⟨r', hr', e, _⟩ := early_of_later (answer_later ha) x r early
    have route := route_dereference hc x r r' hr' e own
    cases depth with
    | zero => cases ha
    | succ depth =>
      have hf := target_of_dereference _ x t r w w' early route ha
      exact ⟨r', hr', Reference.resolved_of_findTarget _ x t r r' w w' early hf hr', e⟩
  | invoke args w w' early own =>
    obtain ⟨_, depth, ha⟩ := hm
    obtain ⟨r', hr', e, _⟩ := early_of_later (answer_later ha) x r early
    have route := route_dereference hc x r r' hr' e own
    cases depth with
    | zero => cases ha
    | succ depth =>
      have hf := target_of_invoke _ _ x t r args w w' early route ha
      exact ⟨r', hr', Reference.resolved_of_findTarget _ x t r r' w w' early hf hr', e⟩

end Moment

namespace Bootstrap

theorem registered_of_callProducer (user : UserCode C S) (p : Processor C) (c : Configuration C)
    (n : String) (b : BeanId) (w w' : World C S) (off : w.creatingProxies p.status = false)
    (h : callProducer user p c n w = some (.ok b, w')) :
    (w'.container p.container).singleton? n = some b := by
  unfold callProducer at h
  cases hm : c.declaringType.methods.find? fun m => m.name == n && m.isProducer with
  | none =>
    rw [hm] at h
    cases h
  | some m =>
    simp only [hm, Run.get_bind, off, Bool.false_eq_true, if_false] at h
    exact Lookup.registered_of_getBean user p.container n b w w' h

theorem registered_of_callProducerOn (user : UserCode C S) (p : Processor C)
    (configuration n : String) (b : BeanId) (w w' : World C S)
    (off : w.creatingProxies p.status = false)
    (h : callProducerOn user p configuration n w = some (.ok b, w')) :
    (w'.container p.container).singleton? n = some b := by
  unfold callProducerOn at h
  cases hc : p.configuration? configuration with
  | none =>
    rw [hc] at h
    cases h
  | some c =>
    rw [hc] at h
    exact registered_of_callProducer user p c n b w w' off h

end Bootstrap

/-- What a look-up by name brings is registered under the name then. -/
theorem Moment.Brings.registered {lang : Language C S} {Seen : Request C → World C S → Prop}
    {m : Moment C S} {c : ContainerId} {n : String} {b : BeanId} (h : m.Brings c n b)
    (hm : m.Holds lang m.world) (hc : Coherent Seen m.world) :
    (m.world.container c).singleton? n = some b := by
  cases h with
  | getBean w w' =>
    obtain ⟨_, depth, ha⟩ := hm
    exact registered_of_answer ha
  | beanMethod ctx w w' container off =>
    obtain ⟨_, depth, ha⟩ := hm
    cases depth with
    | zero => cases ha
    | succ depth =>
      rw [← container]
      exact Bootstrap.registered_of_callProducer _ ctx.processor ctx.configuration n b w w' off ha
  | beanMethodOn ctx configuration w w' container off =>
    obtain ⟨_, depth, ha⟩ := hm
    cases depth with
    | zero => cases ha
    | succ depth =>
      rw [← container]
      exact Bootstrap.registered_of_callProducerOn _ ctx.processor configuration n b w w' off ha
  | reference x r type _ registry target reaches =>
    obtain ⟨r', hr', ht, e⟩ := reaches.leads hm hc
    have registry' : r'.creator.registry = .container c :=
      (congrArg (·.creator.registry) e).trans registry
    have target' : r'.target = .named n type := (congrArg (·.target) e).trans target
    obtain ⟨q, w₀, _, _, _, found⟩ := hc.targets x r' b hr' ht
    rw [registry', target'] at found
    exact found

/-- The target of a reference that has one. -/
def World.target? (w : World C S) (b : BeanId) : Option BeanId :=
  (w.bean? b).bind fun v => v.early?.bind (·.resolved)

theorem Container.mem_candidates_of_select (plainType : BeanId → Option BeanType) (c : Container C)
    (d : Dependency) (requesting : Option String) (n : String)
    (h : c.select plainType d requesting = .ok n) :
    n ∈ c.candidates plainType d.type requesting := by
  unfold select at h
  split at h
  · cases h
  · rename_i only hc
    cases h
    rw [hc]
    exact List.mem_singleton_self n
  · split at h
    · rename_i chosen hp
      cases h
      have mem : n ∈ (c.candidates plainType d.type requesting).filter c.isPrimary := by
        rw [hp]
        exact List.mem_singleton_self n
      exact (List.mem_filter.mp mem).1
    · cases h

section Run

variable {lang : Language C S} {depth : Nat} {p : Program C S α} {w w' : World C S} {o : Outcome α}
  {past future : List (Moment C S)} {m : Moment C S}

/-- What was asked while a reference had no target was asked before it has one. -/
private theorem asked_before (h : p.history lang depth w = some (o, w', past ++ m :: future))
    {q : Request C} {w₀ : World C S} {x t : BeanId} {r r' : EarlyReference C}
    (asked : Moment.asked q w₀ ∈ past ++ m :: future) (vacant : w₀.bean? x = some (.early r))
    (free : r.resolved = none) (early : m.world.bean? x = some (.early r'))
    (target : r'.resolved = some t) : Moment.asked q w₀ ∈ past := by
  rcases List.mem_append.mp asked with before | rest
  · exact before
  · have mem : w₀ ∈ (m :: future).map Moment.world := List.mem_map.mpr ⟨_, rest, rfl⟩
    have hl : Later m.world w₀ := history_later_from h w₀ (List.mem_append_left [w'] mem)
    obtain ⟨r'', hr'', _, same⟩ := early_of_later hl x r' early
    obtain rfl : r'' = r' := same (by simp [target])
    rw [vacant] at hr''
    cases hr''
    rw [free] at target
    cases target

end Run

/-- In every run from the empty world, all beans that look-ups by name bring are the one registered under
the name from then on, whichever way they took; and a reference by type has for its target, from then
on, the singleton of a name that was a candidate when a call of the reference looked for it. -/
theorem lookups_agree (lang : Language C S) (depth : Nat) (p : Program C S α) (s : S)
    (w' : World C S) (o : Outcome α)
    (run : p.interpret (answer lang depth) (.initial s) = some (o, w')) :
    ∃ moments, p.history lang depth (.initial s) = some (o, w', moments) ∧
      (∀ past m future c n b, moments = past ++ m :: future → m.Brings c n b →
        ∀ v ∈ m.world :: future.map Moment.world ++ [w'], (v.container c).singleton? n = some b) ∧
      (∀ c n, ∀ m ∈ moments, ∀ m' ∈ moments, ∀ b b', m.Brings c n b → m'.Brings c n b' → b = b') ∧
      ∀ past m future x r t c d, moments = past ++ m :: future → m.Reaches x r t →
        r.creator.registry = .container c → r.target = .dependency d →
        ∃ n, (∃ q w₀, .asked q w₀ ∈ past ∧ q.callee = some x ∧
            w₀.bean? x = some (.early r.unresolved) ∧
            n ∈ (w₀.container c).candidates w₀.plainType d.type none) ∧
          ∀ v ∈ m.world :: future.map Moment.world ++ [w'],
            v.target? x = some t ∧ (v.container c).singleton? n = some t := by
  obtain ⟨moments, h⟩ := history_of_interpret run
  have coherent (m : Moment C S) (hm : m ∈ moments) :
      Coherent (fun q x => Moment.asked q x ∈ moments) m.world :=
    history_coherent h m.world (List.mem_append_left _ (List.mem_map_of_mem hm))
  have brings (m : Moment C S) (hm : m ∈ moments) (c : ContainerId) (n : String) (b : BeanId)
      (hb : m.Brings c n b) : (m.world.container c).singleton? n = some b :=
    hb.registered (history_holds h m hm) (coherent m hm)
  refine ⟨moments, h, ?_, ?_, ?_⟩
  · intro past m future c n b split hb v hv
    subst split
    exact (history_later_from h v hv).singletons c n b (brings m (by simp) c n b hb)
  · intro c n m hm m' hm' b b' hb hb'
    -- Both are the singleton of the name at the end.
    have last (m : Moment C S) (hm : m ∈ moments) (b : BeanId) (hb : m.Brings c n b) :
        (w'.container c).singleton? n = some b := by
      obtain ⟨past, future, rfl⟩ := List.append_of_mem hm
      have hl : Later m.world w' := history_later_from h w' (by simp)
      exact hl.singletons c n b (brings m hm c n b hb)
    have e := (last m hm b hb).symm.trans (last m' hm' b' hb')
    exact Option.some.inj e
  · intro past m future x r t c d split hr registry target
    subst split
    have mem : m ∈ past ++ m :: future := by simp
    obtain ⟨r', hr', ht, e⟩ := hr.leads (history_holds h m mem) (coherent m mem)
    obtain ⟨q, w₀, hq, seen, vacant, found⟩ := (coherent m mem).targets x r' t hr' ht
    have registry' : r'.creator.registry = .container c :=
      (congrArg (·.creator.registry) e).trans registry
    have target' : r'.target = .dependency d := (congrArg (·.target) e).trans target
    rw [registry', target'] at found
    obtain ⟨n, selected, hn⟩ := found
    have before := asked_before h seen vacant rfl hr' ht
    rw [e] at vacant
    refine ⟨n, ⟨q, w₀, before, hq, vacant, ?_⟩, fun v hv => ⟨?_, ?_⟩⟩
    · exact Container.mem_candidates_of_select _ _ d none n selected
    · obtain ⟨r'', hr'', _, same⟩ := early_of_later (history_later_from h v hv) x r' hr'
      obtain rfl : r'' = r' := same (by simp [ht])
      simp [World.target?, hr'', Bean.early?, ht]
    · exact (history_later_from h v hv).singletons c n t hn

/-- Dereferences a reference by name and one by type while nothing is made yet, and looks the bean up. -/
def threeWays (c : ContainerId) (name : String) : Program Unit Unit (BeanId × BeanId × BeanId) := do
  let type : BeanType := .interface name
  .request (.define c { name, type, factory := () })
  let status ← .request .newStatus
  let byName ← .request (.createMethodProxy ⟨.container c, status⟩ type ⟨name, some type⟩)
  let byType ← .request (.createProxy ⟨.container c, status⟩ ⟨type, none⟩)
  let first ← .request (.dereference byName)
  let second ← .request (.dereference byType)
  let third ← .request (.getBean c name)
  .done (.ok (first, second, third))

theorem lookups_agree_threeWays : ∃ (w' : World Unit Unit) (moments : List (Moment Unit Unit)),
    (threeWays ⟨0⟩ "a").interpret (answer (selfRegistering "a") 2) (.initial ()) =
      some (.ok (⟨2⟩, ⟨2⟩, ⟨2⟩), w') ∧
    ∀ m ∈ moments, ∀ m' ∈ moments, ∀ b b', m.Brings ⟨0⟩ "a" b → m'.Brings ⟨0⟩ "a" b' → b = b' := by
  obtain ⟨w', run⟩ : ∃ w', (threeWays ⟨0⟩ "a").interpret (answer (selfRegistering "a") 2)
      (.initial ()) = some (.ok (⟨2⟩, ⟨2⟩, ⟨2⟩), w') := ⟨_, rfl⟩
  obtain ⟨moments, _, _, agree, _⟩ :=
    lookups_agree (selfRegistering "a") 2 (threeWays ⟨0⟩ "a") () w' _ run
  exact ⟨w', moments, run, agree ⟨0⟩ "a"⟩

end Wiring
