import Wiring.Proofs.Chronicle
import Wiring.Proofs.Origin

namespace Wiring

variable {C S : Type}

/-- At this moment the library is to register a bean under a name: user code asks for it, or returns a
specification that the pass it is called in executes by registering the bean. -/
inductive Moment.Orders (c : ContainerId) (n : String) (b : BeanId) : Moment C S → Prop where
  | requested (w : World C S) : Orders c n b (.asked (.registerSingleton c n b) w)
  | executed (source : Option Source) (w : World C S) :
      Orders c n b (.asked (.execute c (.register n b source) .registering) w)
  | returned (code : C) (ctx : Context C) (args : List BeanId) (before : World C S)
      (source : Option Source) (after : World C S) (container : ctx.processor.container = c)
      (executor : ctx.processor.executors.get? registeringType = some .registering) :
      Orders c n b (.left code (.body ctx args) before (.ok (.register n b source)) after)

namespace World

@[simp] theorem plain_container (v : World C (Noted C S)) (c : ContainerId) :
    v.plain.container c = v.container c := rfl

@[simp] theorem plain_bean? (v : World C (Noted C S)) (b : BeanId) :
    v.plain.bean? b = v.bean? b := rfl

@[simp] theorem plain_typeName (v : World C (Noted C S)) : v.plain.typeName = v.typeName := rfl

@[simp] theorem plain_creatingProxies (v : World C (Noted C S)) (s : StatusId) :
    v.plain.creatingProxies s = v.creatingProxies s := rfl

@[simp] theorem plain_chronicled (w : World C S) : w.chronicled.plain = w := rfl

@[simp] theorem past_chronicled (w : World C S) : w.chronicled.past = [] := rfl

theorem plain_define (v : World C (Noted C S)) (c : ContainerId) (r : Recipe C) :
    (v.define c r).plain = v.plain.define c r := by
  unfold define
  rw [plain_container]
  split <;> rfl

theorem past_define (v : World C (Noted C S)) (c : ContainerId) (r : Recipe C) :
    (v.define c r).past = v.past := by
  unfold define
  split <;> rfl

theorem plain_complete (v : World C (Noted C S)) (c : ContainerId) (d : Definition C) (b : BeanId) :
    (v.complete c d b).plain = v.plain.complete c d b := by
  by_cases h : (((v.accept c d.serial b).unmark d.name).container c).hasSingleton d.name = true
  · have hp : (((v.plain.accept c d.serial b).unmark d.name).container c).hasSingleton d.name =
        true := h
    simp only [complete, h, hp, if_true]
    rfl
  · have hp : ¬(((v.plain.accept c d.serial b).unmark d.name).container c).hasSingleton d.name =
        true := h
    simp only [complete, h, hp]
    rfl

theorem past_complete (v : World C (Noted C S)) (c : ContainerId) (d : Definition C) (b : BeanId) :
    (v.complete c d b).past = v.past := by
  simp only [complete]
  split <;> rfl

/-- What user code has asked for, and in which worlds. -/
def Seen (v : World C (Noted C S)) (q : Request C) (w : World C S) : Prop := Moment.asked q w ∈ v.past

/-- User code is just calling this bean. -/
def Called (v : World C (Noted C S)) (b : BeanId) : Prop :=
  ∃ q : Request C, q.callee = some b ∧ v.Seen q v.plain

/-- A bean is just to be registered: this was the latest moment, and no container has changed since. -/
def Ordered (v : World C (Noted C S)) (c : ContainerId) (n : String) (b : BeanId) : Prop :=
  ∃ m older, v.past = m :: older ∧ m.Orders c n b ∧ m.world.containers = v.containers

theorem Ordered.of_latest {v : World C (Noted C S)} {m : Moment C S} {c : ContainerId} {n : String}
    {b : BeanId} (latest : v.past.head? = some m) (present : m.world = v.plain)
    (orders : m.Orders c n b) : v.Ordered c n b := by
  obtain ⟨older, past⟩ := List.head?_eq_some_iff.mp latest
  exact ⟨m, older, past, orders, congrArg World.containers present⟩

theorem Ordered.of_eq {v v' : World C (Noted C S)} {c : ContainerId} {n : String} {b : BeanId}
    (h : v.Ordered c n b) (past : v'.past = v.past) (containers : v'.containers = v.containers) :
    v'.Ordered c n b := by
  obtain ⟨m, older, latest, orders, same⟩ := h
  exact ⟨m, older, past.trans latest, orders, same.trans containers.symm⟩

end World

/-- A moment that can be noted in a world: it is one of this world, user code is given there what it has to
be, and what is told of a request or a piece of user code is what that comes to. -/
def Moment.Holds (lang : Language C S) (w : World C S) : Moment C S → Prop
  | asked _ w' => w' = w
  | answered q before o after => after = w ∧ ∃ depth, answer lang depth q before = some (o, after)
  | entered _ e w' => w' = w ∧ e.Given w
  | left code e before o after =>
    after = w ∧ ∃ depth, lang.user (answer lang depth) code e before = some (o, after)

/-- What is kept by the changes of the library, by user code's changes of its own state, and by the
noting of moments. -/
structure Kept (lang : Language C S) (P : World C (Noted C S) → Prop) : Prop where
  changed : ∀ v v', P v → v'.past = v.past → Change v.Seen v.plain v'.plain → P v'
  poked : ∀ v s, P v → P { v with user := (s, v.past) }
  noted : ∀ v m, P v → m.Holds lang v.plain → P (v.note m)

/-- How a later world of a run stands to an earlier one. -/
structure After (P : World C (Noted C S) → Prop) (v v' : World C (Noted C S)) : Prop where
  past : v.past <:+ v'.past
  later : Later v.plain v'.plain
  kept : P v'

theorem After.refl {P : World C (Noted C S) → Prop} (v : World C (Noted C S)) (h : P v) :
    After P v v := ⟨List.suffix_rfl, .refl _, h⟩

theorem After.trans {P : World C (Noted C S) → Prop} {v₁ v₂ v₃ : World C (Noted C S)}
    (h : After P v₁ v₂) (k : After P v₂ v₃) : After P v₁ v₃ :=
  ⟨h.past.trans k.past, h.later.trans k.later, k.kept⟩

theorem After.seen {P : World C (Noted C S) → Prop} {v v' : World C (Noted C S)} {q : Request C}
    {w : World C S} (h : After P v v') (hs : v.Seen q w) : v'.Seen q w := h.past.subset hs

theorem Kept.change {lang : Language C S} {P : World C (Noted C S) → Prop} (hP : Kept lang P)
    {v v' : World C (Noted C S)} (hv : P v) (hp : v'.past = v.past)
    (h : Change v.Seen v.plain v'.plain) : After P v v' :=
  ⟨hp ▸ List.suffix_rfl, h.later, hP.changed v v' hv hp h⟩

theorem Kept.note {lang : Language C S} {P : World C (Noted C S) → Prop} (hP : Kept lang P)
    {v : World C (Noted C S)} {m : Moment C S} (hv : P v) (h : m.Holds lang v.plain) :
    After P v (v.note m) :=
  ⟨List.suffix_cons m v.past, .of_eq rfl rfl, hP.noted v m hv h⟩

/-- Whether a factory is entered or left at the moment. -/
def Moment.ofFactory : Moment C S → Bool
  | entered _ (.make _) _ | left _ (.make _) _ _ _ => true
  | _ => false

/-- No factory is entered or left in another call of user code. -/
theorem Moment.ofFactory_of_other {code : C} {e : Entry C} (other : ∀ c, e ≠ .make c)
    (w w' : World C S) (o : Outcome e.Answer) : (entered code e w).ofFactory = false ∧
      (left code e w o w').ofFactory = false := by
  cases e with
  | make c => exact absurd rfl (other c)
  | _ => exact ⟨rfl, rfl⟩

namespace World

/-- The factory of a definition is entered, under the mark of its name. -/
def enter (v : World C (Noted C S)) (c : ContainerId) (d : Definition C) : World C (Noted C S) :=
  (v.mark d.name).note (.entered d.factory (.make c) (v.mark d.name).plain)

/-- The factory that was entered from `v` is left. -/
def leave (v₁ v : World C (Noted C S)) (c : ContainerId) (d : Definition C) (o : Outcome BeanId) :
    World C (Noted C S) :=
  v₁.note (.left d.factory (.make c) (v.mark d.name).plain o v₁.plain)

end World

/-- A relation from the world before a part of a run to the one after it, which the run as a whole has if
its parts have it. A creation is one part: what holds of the run of the factory has to give what holds of
the creation. -/
structure Steady (lang : Language C S) (R : World C (Noted C S) → World C (Noted C S) → Prop) :
    Prop where
  refl : ∀ v, R v v
  trans : ∀ v₁ v₂ v₃, R v₁ v₂ → R v₂ v₃ → R v₁ v₃
  step : ∀ v v', v'.past = v.past → Step v.Ordered v.plain v'.plain → R v v'
  pinned : ∀ v v₁ b r t, v.Called b → v.bean? b = some (.early r) → r.resolved = none → R v v₁ →
    ((v₁.bean? b).bind fun x => x.early?.bind (·.resolved)) = none →
    Found v.plain v₁.plain r.creator.registry r.target t → R v (v₁.pin b t)
  poked : ∀ v s, R v { v with user := (s, v.past) }
  noted : ∀ v m, m.Holds lang v.plain → m.ofFactory = false → R v (v.note m)
  created : ∀ v c d o v₁ o' v', Begins v.plain c d → R (v.enter c d) v₁ →
    (Moment.left d.factory (.make c) (v.mark d.name).plain o v₁.plain).Holds lang v₁.plain →
    Lookup.finish c d (some (o, v₁.leave v c d o)) = some (o', v') → R v v'

theorem Steady.trivial (lang : Language C S) : Steady lang fun _ _ => True where
  refl _ := .intro
  trans _ _ _ _ _ := .intro
  step _ _ _ _ := .intro
  pinned _ _ _ _ _ _ _ _ _ _ _ := .intro
  poked _ _ := .intro
  noted _ _ _ _ := .intro
  created _ _ _ _ _ _ _ _ _ _ _ := .intro

theorem Kept.steady {lang : Language C S} {P : World C (Noted C S) → Prop} (hP : Kept lang P) :
    Steady lang fun v v' => P v → After P v v' where
  refl := After.refl
  trans _ _ _ h k hv := (h hv).trans (k (h hv).kept)
  step _ _ hp h hv := hP.change hv hp h.change
  pinned v v₁ b r t called hr hres h free found hv := by
    have ha := h hv
    refine ha.trans (hP.change ha.kept rfl ?_)
    obtain ⟨q, hq, hs⟩ := called
    exact .pinned q v.plain v₁.plain b r t hq (ha.seen hs) hr ha.later
      (ha.later.unresolved b r hr free) hres found
  poked v s hv := ⟨List.suffix_rfl, .of_eq rfl rfl, hP.poked v s hv⟩
  noted _ _ hm _ hv := hP.note hv hm
  created v c d o v₁ o' v' begins h ended finished hv := by
    have marked : After P v (v.mark d.name) := hP.change hv rfl (.marked v.plain d.name begins.unmarked)
    have entered := marked.trans (hP.note (m := .entered d.factory (.make c) _) marked.kept ⟨rfl, .intro⟩)
    have ran := entered.trans (h entered.kept)
    have left := ran.trans (hP.note ran.kept ended)
    cases Lookup.finish_cases finished with
    | accepted b x hb fits =>
      refine left.trans (hP.change left.kept (World.past_complete _ c d b) ?_)
      rw [World.plain_complete]
      exact .completed v.plain v₁.plain c d b x begins.current begins.uncreated begins.free
        begins.unmarked left.later hb fits
    | givenUp => exact left.trans (hP.change left.kept rfl (.unmarked v₁.plain d.name))

/-- From this world both computations come to the same, in worlds to which the relation holds. -/
def Parallel {α : Type} (R : World C (Noted C S) → World C (Noted C S) → Prop) (r : Run C S α)
    (r' : Run C (Noted C S) α) (v : World C (Noted C S)) : Prop :=
  r' v = none ∧ r v.plain = none ∨
    ∃ o v', r' v = some (o, v') ∧ r v.plain = some (o, v'.plain) ∧ R v v'

/-- The same for all calls of user code, where the relation holds of what happens between the two moments
of a call. -/
def CallsParallel (lang : Language C S) (R : World C (Noted C S) → World C (Noted C S) → Prop)
    (user : UserCode C S) (user' : UserCode C (Noted C S)) : Prop :=
  ∀ code e v, user' code e v = none ∧ user code e v.plain = none ∨
    ∃ o v₁, user' code e v = some (o, v₁.note (.left code e v.plain o v₁.plain)) ∧
      user code e v.plain = some (o, v₁.plain) ∧ R (v.note (.entered code e v.plain)) v₁ ∧
      (Moment.left code e v.plain o v₁.plain).Holds lang v₁.plain

/-- A call of user code that ends, with its two moments. -/
theorem CallsParallel.ended {lang : Language C S} {R : World C (Noted C S) → World C (Noted C S) → Prop}
    {user : UserCode C S} {user' : UserCode C (Noted C S)} (h : CallsParallel lang R user user') {code : C}
    {e : Entry C} {o : Outcome e.Answer} {v v' : World C (Noted C S)}
    (ran : user' code e v = some (o, v')) :
    ∃ v₁, v' = v₁.note (.left code e v.plain o v₁.plain) ∧ user code e v.plain = some (o, v₁.plain) ∧
      R (v.note (.entered code e v.plain)) v₁ := by
  rcases h code e v with ⟨endless, _⟩ | ⟨_, v₁, ended, plainly, steady, _⟩
  · cases endless.symm.trans ran
  · cases ended.symm.trans ran
    exact ⟨v₁, rfl, plainly, steady⟩

/-- The same for all requests. -/
def AsksParallel (R : World C (Noted C S) → World C (Noted C S) → Prop)
    (ask : (q : Request C) → Run C S q.Answer)
    (ask' : (q : Request C) → Run C (Noted C S) q.Answer) : Prop :=
  ∀ q v, Parallel R (ask q) (ask' q) v

namespace Parallel

variable {α β : Type} {lang : Language C S} {R : World C (Noted C S) → World C (Noted C S) → Prop}
  {v : World C (Noted C S)}

/-- A computation that ends beside a chronicle. -/
theorem ended {r : Run C S α} {r' : Run C (Noted C S) α} {o : Outcome α} {v' : World C (Noted C S)}
    (h : Parallel R r r' v) (ran : r' v = some (o, v')) : r v.plain = some (o, v'.plain) ∧ R v v' := by
  rcases h with ⟨endless, _⟩ | ⟨_, _, ended, plainly, steady⟩
  · cases endless.symm.trans ran
  · cases ended.symm.trans ran
    exact ⟨plainly, steady⟩

theorem get_bind {f : World C S → Run C S α} {f' : World C (Noted C S) → Run C (Noted C S) α}
    (h : Parallel R (f v.plain) (f' v) v) : Parallel R (Run.get >>= f) (Run.get >>= f') v := h

theorem ite {p : Prop} [Decidable p] {r₁ r₂ : Run C S α} {r₁' r₂' : Run C (Noted C S) α}
    (h₁ : p → Parallel R r₁ r₁' v) (h₂ : ¬p → Parallel R r₂ r₂' v) :
    Parallel R (if p then r₁ else r₂) (if p then r₁' else r₂') v := by
  by_cases hp : p
  · simpa only [hp, if_true] using h₁ hp
  · simpa only [hp, if_false] using h₂ hp

section Steady

variable (hR : Steady lang R)

include hR

theorem done (o : Outcome α) : Parallel R (Run.done o) (Run.done o) v :=
  .inr ⟨o, v, rfl, rfl, hR.refl v⟩

theorem pure (a : α) : Parallel R (Pure.pure a) (Pure.pure a) v := done hR (.ok a)

theorem fail (e : Error) : Parallel R (Run.fail e : Run C S α) (Run.fail e) v := done hR (.error e)

theorem panic (text : String) : Parallel R (Run.panic text : Run C S α) (Run.panic text) v :=
  done hR (.panic text)

theorem ofExcept (x : Except Error α) : Parallel R (Run.ofExcept x) (Run.ofExcept x) v := by
  cases x with
  | ok a => exact done hR (.ok a)
  | error e => exact done hR (.error e)

/-- The second computation goes on from where the first one ends. -/
theorem followedBy_of {r : Run C S α} {r' : Run C (Noted C S) α} {f : Outcome α → Run C S β}
    {f' : Outcome α → Run C (Noted C S) β} (h : Parallel R r r' v)
    (k : ∀ o v', r' v = some (o, v') → r v.plain = some (o, v'.plain) → Parallel R (f o) (f' o) v') :
    Parallel R (r.followedBy f) (r'.followedBy f') v := by
  rcases h with ⟨h', h⟩ | ⟨o, v', h', h, ha⟩
  · left
    simp only [Run.followedBy, h, h', and_self]
  · have e' := Run.followedBy_some r' f' v v' o h'
    have e := Run.followedBy_some r f v.plain v'.plain o h
    rcases k o v' h' h with ⟨k', k⟩ | ⟨o', v'', k', k, hb⟩
    · exact .inl ⟨e'.trans k', e.trans k⟩
    · exact .inr ⟨o', v'', e'.trans k', e.trans k, hR.trans v v' v'' ha hb⟩

theorem followedBy {r : Run C S α} {r' : Run C (Noted C S) α} {f : Outcome α → Run C S β}
    {f' : Outcome α → Run C (Noted C S) β} (h : Parallel R r r' v)
    (k : ∀ o v', Parallel R (f o) (f' o) v') :
    Parallel R (r.followedBy f) (r'.followedBy f') v := followedBy_of hR h fun o v' _ _ => k o v'

theorem bind_of {r : Run C S α} {r' : Run C (Noted C S) α} {f : α → Run C S β}
    {f' : α → Run C (Noted C S) β} (h : Parallel R r r' v)
    (k : ∀ a v', r' v = some (.ok a, v') → r v.plain = some (.ok a, v'.plain) →
      Parallel R (f a) (f' a) v') :
    Parallel R (r >>= f) (r' >>= f') v := by
  refine followedBy_of hR h fun o v' ran' ran => ?_
  cases o with
  | ok a => exact k a v' ran' ran
  | error e => exact fail hR e
  | panic text => exact panic hR text

theorem bind {r : Run C S α} {r' : Run C (Noted C S) α} {f : α → Run C S β}
    {f' : α → Run C (Noted C S) β} (h : Parallel R r r' v)
    (k : ∀ a v', Parallel R (f a) (f' a) v') :
    Parallel R (r >>= f) (r' >>= f') v := bind_of hR h fun a v' _ _ => k a v'

theorem bean_bind {f : Bean C → Run C S α} {f' : Bean C → Run C (Noted C S) α} (b : BeanId)
    (h : ∀ x, v.bean? b = some x → Parallel R (f x) (f' x) v) :
    Parallel R (Run.bean b >>= f) (Run.bean b >>= f') v := by
  cases hb : v.bean? b with
  | none =>
    have e := Run.bind_panic _ f v.plain v.plain _ (Run.bean_none b v.plain hb)
    have e' := Run.bind_panic _ f' v v _ (Run.bean_none b v hb)
    exact .inr ⟨_, v, e', e, hR.refl v⟩
  | some x =>
    have e := Run.bind_ok _ f v.plain v.plain _ (Run.bean_some b x v.plain hb)
    have e' := Run.bind_ok _ f' v v _ (Run.bean_some b x v hb)
    have hx := h x hb
    unfold Parallel at hx ⊢
    rwa [e, e']

/-- A single change of the library. -/
theorem modify {f : World C S → World C S} {f' : World C (Noted C S) → World C (Noted C S)}
    (plain : (f' v).plain = f v.plain) (past : (f' v).past = v.past)
    (h : Step v.Ordered v.plain (f v.plain)) : Parallel R (Run.modify f) (Run.modify f') v :=
  .inr ⟨.ok (), f' v, rfl, by rw [plain]; rfl, hR.step v _ past (plain ▸ h)⟩

theorem record (e : Event) (apart : e.ofContainer = false) :
    Parallel R (Run.record e) (Run.record e) v :=
  modify hR rfl rfl (.recorded v.plain e apart)

theorem cleanup {r : Run C S α} {r' : Run C (Noted C S) α} {f : World C S → World C S}
    {f' : World C (Noted C S) → World C (Noted C S)} (h : Parallel R r r' v)
    (plain : ∀ v', (f' v').plain = f v'.plain) (k : ∀ v', R v' (f' v')) :
    Parallel R (r.cleanup f) (r'.cleanup f') v := by
  rcases h with ⟨h', h⟩ | ⟨o, v', h', h, ha⟩
  · left
    simp only [Run.cleanup, h, h', and_self]
  · refine .inr ⟨o, f' v', Run.cleanup_some r' f' v v' o h', ?_, hR.trans v v' _ ha (k v')⟩
    rw [Run.cleanup_some r f v.plain v'.plain o h, plain]

theorem guarded (s : StatusId) (value : Bool) {r : Run C S α} {r' : Run C (Noted C S) α}
    (h : Parallel R r r' (v.setCreatingProxies s value)) :
    Parallel R (Run.guarded s value r) (Run.guarded s value r') v := by
  have start : R v (v.setCreatingProxies s value) := hR.step v _ rfl (.flagged v.plain s value)
  have body : Parallel R (r.cleanup (·.setCreatingProxies s (v.plain.creatingProxies s)))
      (r'.cleanup (·.setCreatingProxies s (v.creatingProxies s))) (v.setCreatingProxies s value) :=
    cleanup hR h (fun _ => rfl) fun v' => hR.step v' _ rfl (.flagged v'.plain s _)
  rcases body with ⟨h', h⟩ | ⟨o, v', h', h, ha⟩
  · exact .inl ⟨h', h⟩
  · exact .inr ⟨o, v', h', h, hR.trans v _ v' start ha⟩

/-- The moments before and after a computation are noted. -/
theorem noting {r : Run C S α} {r' : Run C (Noted C S) α} (start : World C S → Moment C S)
    (finish : World C S → Outcome α → World C S → Moment C S)
    (begins : (start v.plain).Holds lang v.plain) (plainly : (start v.plain).ofFactory = false)
    (ends : ∀ o w, r v.plain = some (o, w) → (finish v.plain o w).Holds lang w ∧
      (finish v.plain o w).ofFactory = false)
    (h : Parallel R r r' (v.note (start v.plain))) :
    Parallel R r (Run.noting start finish r') v := by
  have first := hR.noted v _ begins plainly
  rcases h with ⟨h', h⟩ | ⟨o, v', h', h, ha⟩
  · refine .inl ⟨?_, h⟩
    simp only [Run.noting, h']
  · obtain ⟨holds, plainly'⟩ := ends o v'.plain h
    have last := hR.noted v' _ holds plainly'
    refine .inr ⟨o, v'.note (finish v.plain o v'.plain), ?_, h,
      hR.trans v _ _ first (hR.trans _ v' _ ha last)⟩
    simp only [Run.noting, h']

/-- A program beside a chronicle, where its requests are parallel. -/
theorem interpret {ask : (q : Request C) → Run C S q.Answer}
    {ask' : (q : Request C) → Run C (Noted C S) q.Answer} (ha : AsksParallel R ask ask')
    (p : Program C S α) (v : World C (Noted C S)) :
    Parallel R (p.interpret ask) (p.chronicled.interpret ask') v := by
  induction p generalizing v with
  | done o => exact done hR o
  | peek k ih => exact ih v.user.1 v
  | poke s k ih =>
    have first := hR.poked v s
    rcases ih { v with user := (s, v.past) } with ⟨h', h⟩ | ⟨o, v', h', h, hb⟩
    · exact .inl ⟨h', h⟩
    · exact .inr ⟨o, v', h', h, hR.trans v _ v' first hb⟩
  | ask q k ih => exact followedBy hR (ha q v) ih

/-- A call of user code that is no factory. -/
theorem call {user : UserCode C S} {user' : UserCode C (Noted C S)}
    (hu : CallsParallel lang R user user') (code : C) (e : Entry C) (other : ∀ c, e ≠ .make c)
    (given : e.Given v.plain) : Parallel R (user code e) (user' code e) v := by
  rcases hu code e v with ⟨h', h⟩ | ⟨o, v₁, h', h, hr, left⟩
  · exact .inl ⟨h', h⟩
  · obtain ⟨first, last⟩ := Moment.ofFactory_of_other other v.plain v₁.plain o
    have entered := hR.noted v (.entered code e v.plain) ⟨rfl, given⟩ first
    have ended := hR.noted v₁ (.left code e v.plain o v₁.plain) left last
    exact .inr ⟨o, _, h', h, hR.trans v _ _ entered (hR.trans _ v₁ _ hr ended)⟩

end Steady

end Parallel

end Wiring
