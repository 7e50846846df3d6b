import Wiring.Proofs.Acceptance
import Wiring.Proofs.Creation
import Wiring.Proofs.Names
import Wiring.Proofs.Pipeline

namespace Wiring

variable {C S α : Type}

/-- Every run of a factory that the loop itself comes to ends, at some depth of calls. -/
def Language.FactoriesEnd (lang : Language C S) (c : ContainerId) (w : World C S) : Prop :=
  ∀ (depth : Nat) (done rest : List String) (x : World C S) (d : Definition C),
    (w.container c).definitionNames = done ++ d.name :: rest →
    Lookup.preinstantiateEach (lang.user (answer lang depth)) c done w = some (.ok (), x) →
    Begins x c d → d.lazy = false → ∃ depth' o y, lang.user (answer lang depth') d.factory (.make c)
      ((x.record (.preinstantiating d.name)).mark d.name) = some (o, y)

/-- Among the moments, this one lies within the answering of a request that was made under these marks. -/
def AskedUnder (marks : List String) (moments : List (Moment C S)) (m : Moment C S) : Prop :=
  ∃ (q : Request C) (x : World C S) (o : Outcome q.Answer) (x' : World C S)
    (before during after : List (Moment C S)),
    moments = before ++ .asked q x :: (during ++ .answered q x o x' :: after) ∧ m ∈ during ∧
      x.marks = marks

namespace Lookup

variable (user : UserCode C S) {c : ContainerId} {n : String} {w w' : World C S}

/-- Where nothing is wanted, nothing happens. -/
theorem preinstantiateEach_unwanted {names : List String}
    (h : ∀ n ∈ names, ¬(w.container c).Wanted n) :
    preinstantiateEach user c names w = some (.ok (), w) := by
  induction names with
  | nil => rfl
  | cons n rest ih =>
    obtain ⟨first, others⟩ := List.forall_mem_cons.mp h
    have turn := preinstantiateOne_unwanted user first
    exact (Run.bind_ok _ _ w w () turn).trans (ih others)

end Lookup

theorem Later.hasDefinition {w w' : World C S} (h : Later w w') {c : ContainerId} {n : String}
    (defined : (w.container c).hasDefinition n = true) : (w'.container c).hasDefinition n = true := by
  obtain ⟨d, hd, name⟩ := (Container.hasDefinition_iff _ n).mp defined
  obtain ⟨d', hd', recipe, _⟩ := h.definitions c d hd
  exact (Container.hasDefinition_iff _ n).mpr ⟨d', hd', (congrArg Recipe.name recipe).trans name⟩

/-- What no turn loses is lost neither before nor after any of them. -/
theorem Turn.Chain.later {w w' : World C S} {turns : List (Turn C S)} (h : Turn.Chain w turns w')
    (each : ∀ t ∈ turns, Later t.before t.after) :
    Later w w' ∧ ∀ t ∈ turns, Later w t.before ∧ Later t.after w' := by
  induction turns generalizing w with
  | nil =>
    cases h
    exact ⟨.refl _, fun _ ht => absurd ht List.not_mem_nil⟩
  | cons t turns ih =>
    obtain ⟨rfl, rest⟩ := h
    obtain ⟨first, others⟩ := List.forall_mem_cons.mp each
    obtain ⟨whole, within⟩ := ih rest others
    refine ⟨first.trans whole, List.forall_mem_cons.mpr ⟨⟨.refl _, whole⟩, fun s hs => ?_⟩⟩
    exact ⟨first.trans (within s hs).1, (within s hs).2⟩

section Moments

variable {lang : Language C S} {depth : Nat} {v v' : World C (Noted C S)}

/-- The same as `AskedUnder`, with the latest moment first. -/
private def Within (marks : List String) (new : List (Moment C S)) (m : Moment C S) : Prop :=
  ∃ (q : Request C) (x : World C S) (o : Outcome q.Answer) (x' : World C S)
    (after during before : List (Moment C S)),
    new = after ++ .answered q x o x' :: (during ++ .asked q x :: before) ∧ m ∈ during ∧ x.marks = marks

private theorem Within.append {marks : List String} {new : List (Moment C S)} {m : Moment C S}
    (h : Within marks new m) (later earlier : List (Moment C S)) :
    Within marks (later ++ new ++ earlier) m := by
  obtain ⟨q, x, o, x', after, during, before, rfl, mem, hx⟩ := h
  exact ⟨q, x, o, x', later ++ after, during, before ++ earlier, by simp, mem, hx⟩

private theorem Within.reverse {marks : List String} {new : List (Moment C S)} {m : Moment C S}
    (h : Within marks new m) : AskedUnder marks new.reverse m := by
  obtain ⟨q, x, o, x', after, during, before, rfl, mem, hx⟩ := h
  exact ⟨q, x, o, x', before.reverse, during.reverse, after.reverse, by simp, List.mem_reverse.mpr mem, hx⟩

/-- A part of a run that adds these moments, the latest first, and leaves marks as they were. -/
private structure Adds (new : List (Moment C S)) (v v' : World C (Noted C S)) : Prop where
  past : v'.past = new ++ v.past
  marks : v'.marks = v.marks
  orderly : ∀ c, (v'.container c).Orderly

private theorem Adds.trans {new₁ new₂ : List (Moment C S)} {v₁ v₂ v₃ : World C (Noted C S)}
    (h : Adds new₁ v₁ v₂) (k : Adds new₂ v₂ v₃) : Adds (new₂ ++ new₁) v₁ v₃ where
  past := by rw [k.past, h.past, List.append_assoc]
  marks := k.marks.trans h.marks
  orderly := k.orderly

private theorem adds_of_chronicle {q : Request C} {o : Outcome q.Answer}
    (orderly : ∀ c, (v.container c).Orderly) (h : chronicle lang depth q v = some (o, v')) :
    ∃ during, Adds (.answered q v.plain o v'.plain :: (during ++ [.asked q v.plain])) v v' := by
  cases depth with
  | zero => cases h
  | succ depth =>
    obtain ⟨v₁, served, rfl⟩ := Run.noting_cases h
    have parallel := serve_parallel (Accepting.steady lang) (calls_parallel (Accepting.steady lang) depth)
      (chronicle_parallel (Accepting.steady lang) depth) q (v.note (.asked q v.plain)) rfl
    obtain ⟨during, accepting⟩ := (parallel.ended served).2 orderly
    refine ⟨during, ?_, accepting.marks, accepting.orderly⟩
    rw [List.cons_append, List.append_assoc]
    exact congrArg (_ :: ·) accepting.past

/-- Whatever factory is entered or left in a run of a program, it is in the answering of a request that
the program made. -/
private theorem within_of_interpret {p : Program C S α} {o : Outcome α}
    (orderly : ∀ c, (v.container c).Orderly)
    (h : p.chronicled.interpret (chronicle lang depth) v = some (o, v')) :
    ∃ new, Adds new v v' ∧ ∀ m ∈ new, m.ofFactory = true → Within v.marks new m := by
  induction p generalizing v with
  | done a =>
    cases h
    exact ⟨[], ⟨rfl, rfl, orderly⟩, fun _ hm => absurd hm List.not_mem_nil⟩
  | peek k ih => exact ih v.user.1 orderly h
  | poke s k ih =>
    obtain ⟨new, adds, within⟩ := ih (v := { v with user := (s, v.past) }) orderly h
    exact ⟨new, ⟨adds.past, adds.marks, adds.orderly⟩, within⟩
  | ask q k ih =>
    obtain ⟨a, v₁, asked, rest⟩ := Run.followedBy_cases h
    obtain ⟨during, first⟩ := adds_of_chronicle orderly asked
    obtain ⟨new, more, within⟩ := ih a first.orderly rest
    refine ⟨_, first.trans more, fun m hm factory => ?_⟩
    rcases List.mem_append.mp hm with hm | hm
    · have later := within m hm factory
      rw [first.marks] at later
      simpa using later.append [] _
    · have here : m ∈ during := by
        rcases List.mem_cons.mp hm with rfl | hm
        · cases factory
        · rcases List.mem_append.mp hm with hm | hm
          · exact hm
          · rw [List.mem_singleton.mp hm] at factory
            cases factory
      exact ⟨q, v.plain, a, v₁.plain, new, during, [], rfl, here, rfl⟩

/-- The factory is entered by the look-up of the name itself, or while a request is answered that was made
under its mark. -/
private def BegunFor (c : ContainerId) (n : String) (marks : List String) (new : List (Moment C S))
    (m : Moment C S) : Prop :=
  ∀ code c' u, m = .entered code (.make c') u →
    (c' = c ∧ u.marks = n :: marks ∧ ∃ d, Creates m d) ∨ Within (n :: marks) new m

private theorem BegunFor.append {c : ContainerId} {n : String} {marks : List String}
    {new : List (Moment C S)} {m : Moment C S} (h : BegunFor c n marks new m)
    (later earlier : List (Moment C S)) : BegunFor c n marks (later ++ new ++ earlier) m :=
  fun code c' u hm => (h code c' u hm).imp_right fun within => within.append later earlier

private theorem begunFor_of_getBean {c : ContainerId} {n : String} {o : Outcome BeanId}
    (orderly : ∀ c, (v.container c).Orderly)
    (h : Lookup.getBean (lang.witnessed (chronicle lang depth)) c n v = some (o, v')) :
    ∃ new, Adds new v v' ∧ ∀ m ∈ new, BegunFor c n v.marks new m := by
  have parallel :=
    Lookup.getBean_parallel (Accepting.steady lang) (calls_parallel (Accepting.steady lang) depth) c n v
  obtain ⟨marks, orderly'⟩ : v'.marks = v.marks ∧ ∀ c, (v'.container c).Orderly := by
    obtain ⟨_, accepting⟩ := (parallel.ended h).2 orderly
    exact ⟨accepting.marks, accepting.orderly⟩
  have silent (past : v'.past = v.past) : ∃ new, Adds new v v' ∧ ∀ m ∈ new, BegunFor c n v.marks new m :=
    ⟨[], ⟨past, marks, orderly'⟩, fun _ hm => absurd hm List.not_mem_nil⟩
  cases Lookup.getBean_cases h with
  | registered | unknown | adopted | marked => exact silent rfl
  | ran d made v₂ _ _ name begins run finished =>
    subst name
    obtain ⟨v₁, ran, rfl⟩ := Run.noting_cases run
    have past : v'.past = .left d.factory (.make c) (v.mark d.name).plain made v₁.plain :: v₁.past := by
      cases Lookup.finish_cases finished with
      | accepted b _ _ _ => exact World.past_complete _ c d b
      | givenUp => rfl
    obtain ⟨inner, adds, within⟩ := within_of_interpret (v := v.enter c d) orderly ran
    refine ⟨.left d.factory (.make c) (v.mark d.name).plain made v₁.plain ::
      (inner ++ [.entered d.factory (.make c) (v.mark d.name).plain]), ⟨?_, marks, orderly'⟩, ?_⟩
    · rw [past, adds.past, List.cons_append, List.append_assoc]
      rfl
    · rintro m hm code c' u rfl
      have begun := (List.mem_cons.mp hm).resolve_left nofun
      rcases List.mem_append.mp begun with hm | hm
      · exact .inr ((within _ hm rfl).append [_] [_])
      · cases List.mem_singleton.mp hm
        exact .inl ⟨rfl, rfl, d, .intro c d _ begins.current begins.uncreated begins.free rfl⟩

private theorem begunFor_of_preinstantiateOne {c : ContainerId} {n : String} {o : Outcome Unit}
    (orderly : ∀ c, (v.container c).Orderly)
    (h : Lookup.preinstantiateOne (lang.witnessed (chronicle lang depth)) c n v = some (o, v')) :
    ∃ new, Adds new v v' ∧ ∀ m ∈ new, BegunFor c n v.marks new m := by
  by_cases wanted : (v.container c).Wanted n
  · rw [Lookup.preinstantiateOne_wanted _ wanted] at h
    obtain ⟨⟨a, v₁⟩, found, hx⟩ := Option.map_eq_some_iff.mp h
    cases hx
    obtain ⟨new, adds, begun⟩ :=
      begunFor_of_getBean (v := v.record (.preinstantiating n)) orderly found
    exact ⟨new, ⟨adds.past, adds.marks, adds.orderly⟩, begun⟩
  · cases (Lookup.preinstantiateOne_unwanted _ wanted).symm.trans h
    exact ⟨[], ⟨rfl, rfl, orderly⟩, fun _ hm => absurd hm List.not_mem_nil⟩

private theorem begunFor_of_preinstantiateEach {c : ContainerId} {names : List String} {o : Outcome Unit}
    (orderly : ∀ c, (v.container c).Orderly)
    (h : Lookup.preinstantiateEach (lang.witnessed (chronicle lang depth)) c names v = some (o, v')) :
    ∃ new, Adds new v v' ∧ ∀ m ∈ new, ∃ n ∈ names, BegunFor c n v.marks new m := by
  induction names generalizing v with
  | nil =>
    cases h
    exact ⟨[], ⟨rfl, rfl, orderly⟩, fun _ hm => absurd hm List.not_mem_nil⟩
  | cons n rest ih =>
    rcases Run.bind_cases _ _ _ _ _ h with ⟨⟨⟩, v₁, first, more⟩ | ⟨fault, first, rfl⟩
    · obtain ⟨new₁, adds₁, begun₁⟩ := begunFor_of_preinstantiateOne orderly first
      obtain ⟨new₂, adds₂, begun₂⟩ := ih adds₁.orderly more
      refine ⟨_, adds₁.trans adds₂, fun m hm => ?_⟩
      rcases List.mem_append.mp hm with hm | hm
      · obtain ⟨m', hn, begun⟩ := begun₂ m hm
        rw [adds₁.marks] at begun
        exact ⟨m', List.mem_cons_of_mem n hn, by simpa using begun.append [] new₁⟩
      · exact ⟨n, List.mem_cons_self, by simpa using (begun₁ m hm).append new₂ []⟩
    · obtain ⟨new, adds, begun⟩ := begunFor_of_preinstantiateOne orderly first
      exact ⟨new, adds, fun m hm => ⟨n, List.mem_cons_self, begun m hm⟩⟩

end Moments

section Termination

namespace Lookup

variable {user : UserCode C S} {c : ContainerId} {w : World C S}

/-- A look-up ends if the factory that it runs does. -/
theorem getBean_ends {n : String}
    (ends : ∀ d : Definition C, d.name = n → Begins w c d →
      ∃ o y, user d.factory (.make c) (w.mark n) = some (o, y)) :
    ∃ x, getBean user c n w = some x := by
  cases hs : (w.container c).singleton? n with
  | some b => exact ⟨_, getBean_registered user c n b w hs⟩
  | none =>
    cases hd : (w.container c).definition? n with
    | none => exact ⟨_, getBean_unknown user c n w hs hd⟩
    | some d =>
      obtain rfl : d.name = n := Container.name_of_definition? _ n d hd
      cases hc : d.created with
      | some b => exact ⟨_, getBean_adopted user c _ d b w hs hd hc⟩
      | none =>
        by_cases hm : d.name ∈ w.marks
        · exact ⟨_, getBean_marked user c _ d w hs hd hc hm⟩
        · obtain ⟨o, y, ran⟩ := ends d rfl ⟨hd, hc, hs, hm⟩
          rw [getBean_create user c _ d w hs hd hc hm, ran]
          obtain ⟨_, _, finished⟩ := finish_ends c d o y
          exact ⟨_, finished⟩

/-- One more turn after turns that succeeded. -/
theorem preinstantiateEach_concat {done : List String} {n : String} {x y : World C S}
    (h : preinstantiateEach user c done w = some (.ok (), x))
    (turn : preinstantiateOne user c n x = some (.ok (), y)) :
    preinstantiateEach user c (done ++ [n]) w = some (.ok (), y) := by
  induction done generalizing w with
  | nil =>
    cases h
    exact Run.bind_ok _ _ x y () turn
  | cons m done ih =>
    obtain ⟨⟨⟩, w₁, first, more⟩ := Run.ok_of_bind _ _ _ _ _ h
    exact (Run.bind_ok _ _ w w₁ () first).trans (ih more)

end Lookup

variable {lang : Language C S} {c : ContainerId} {w : World C S}

/-- A turn ends if the factory that it runs does. -/
private theorem turn_ends (ends : lang.FactoriesEnd c w) {depth : Nat} {done rest : List String}
    {n : String} {x : World C S} (names : (w.container c).definitionNames = done ++ n :: rest)
    (before : Lookup.preinstantiateEach (lang.user (answer lang depth)) c done w = some (.ok (), x)) :
    ∃ depth', depth ≤ depth' ∧ ∃ o y,
      Lookup.preinstantiateOne (lang.user (answer lang depth')) c n x = some (o, y) := by
  by_cases wanted : (x.container c).Wanted n
  · obtain ⟨d, current, eager⟩ := wanted.1
    have deeper : ∃ depth', depth ≤ depth' ∧ ∀ e : Definition C, e.name = n → Begins x c e → ∃ o y,
        lang.user (answer lang depth') e.factory (.make c) ((x.record (.preinstantiating n)).mark n) =
          some (o, y) := by
      by_cases begins : d.name = n ∧ Begins x c d
      · obtain ⟨rfl, begins⟩ := begins
        obtain ⟨depth', o, y, ran⟩ := ends depth done rest x d names before begins eager
        refine ⟨max depth depth', Nat.le_max_left _ _, fun e name begins' => ⟨o, y, ?_⟩⟩
        obtain rfl : e = d := Option.some.inj (begins'.current.symm.trans (name ▸ current))
        exact lang.user_below (Nat.le_max_right depth depth') e.factory (.make c) _ _ ran
      · refine ⟨depth, Nat.le_refl _, fun e name begins' => absurd ?_ begins⟩
        subst name
        obtain rfl : e = d := Option.some.inj (begins'.current.symm.trans current)
        exact ⟨rfl, begins'⟩
    obtain ⟨depth', more, run⟩ := deeper
    obtain ⟨⟨o, y⟩, found⟩ : ∃ a, Lookup.getBean (lang.user (answer lang depth')) c n
        (x.record (.preinstantiating n)) = some a :=
      Lookup.getBean_ends fun e name begins =>
        run e name ⟨begins.current, begins.uncreated, begins.free, begins.unmarked⟩
    refine ⟨depth', more, o.map fun _ => (), y, ?_⟩
    rw [Lookup.preinstantiateOne_wanted _ wanted, found]
    rfl
  · exact ⟨depth, Nat.le_refl _, _, _, Lookup.preinstantiateOne_unwanted _ wanted⟩

private theorem turns_end (ends : lang.FactoriesEnd c w) {depth : Nat} {done rest : List String}
    {x : World C S} (names : (w.container c).definitionNames = done ++ rest)
    (before : Lookup.preinstantiateEach (lang.user (answer lang depth)) c done w = some (.ok (), x)) :
    ∃ depth' o y,
      Lookup.preinstantiateEach (lang.user (answer lang depth')) c rest x = some (o, y) := by
  induction rest generalizing done x depth with
  | nil => exact ⟨depth, _, _, rfl⟩
  | cons n rest ih =>
    obtain ⟨depth₁, more, o, x₁, turn⟩ := turn_ends ends names before
    rcases o.ok_or_fault with ⟨⟨⟩, rfl⟩ | ⟨fault, rfl⟩
    · have so_far := Lookup.preinstantiateEach_below (lang.user_below more) c done w _ before
      have names' : (w.container c).definitionNames = (done ++ [n]) ++ rest := by simp [names]
      obtain ⟨depth₂, o, y, others⟩ := ih names' (Lookup.preinstantiateEach_concat so_far turn)
      refine ⟨max depth₁ depth₂, o, y, ?_⟩
      have first := Lookup.preinstantiateOne_below (lang.user_below (Nat.le_max_left depth₁ depth₂)) c n
        x _ turn
      have last := Lookup.preinstantiateEach_below (lang.user_below (Nat.le_max_right depth₁ depth₂)) c
        rest x₁ _ others
      exact (Run.bind_ok _ _ x x₁ () first).trans last
    · exact ⟨depth₁, fault.outcome, x₁, Run.bind_fault _ _ x x₁ fault turn⟩

end Termination

/-- What a turn does: it looks up the name if that is wanted then, and else nothing. -/
inductive Turn.Taken (lang : Language C S) (depth : Nat) (c : ContainerId) (t : Turn C S) : Prop where
  | looked (a : Outcome BeanId) (wanted : (t.before.container c).Wanted t.name)
      (found : answer lang (depth + 1) (.getBean c t.name) (t.before.record (.preinstantiating t.name)) =
        some (a, t.after)) (outcome : t.outcome = a.map fun _ => ())
  | skipped (unwanted : ¬(t.before.container c).Wanted t.name) (outcome : t.outcome = .ok ())
      (same : t.after = t.before)

namespace Turn

variable {lang : Language C S} {depth : Nat} {c : ContainerId} {t : Turn C S}

theorem taken (turn : t.Of (Lookup.preinstantiateOne (lang.user (answer lang depth)) c t.name)) :
    t.Taken lang depth c := by
  by_cases wanted : (t.before.container c).Wanted t.name
  · rw [Deed.Of, Lookup.preinstantiateOne_wanted _ wanted] at turn
    obtain ⟨⟨a, y⟩, found, hx⟩ := Option.map_eq_some_iff.mp turn
    obtain ⟨outcome, after⟩ := Prod.mk.inj hx
    exact .looked a wanted (after ▸ found) outcome.symm
  · rw [Deed.Of, Lookup.preinstantiateOne_unwanted _ wanted] at turn
    obtain ⟨outcome, after⟩ := Prod.mk.inj (Option.some.inj turn)
    exact .skipped wanted outcome.symm after.symm

namespace Taken

theorem later (h : t.Taken lang depth c) : Later t.before t.after := by
  cases h with
  | looked a _ found _ =>
    have recorded : Later t.before (t.before.record (.preinstantiating t.name)) := .of_eq rfl rfl
    exact recorded.trans (answer_later found)
  | skipped _ _ same =>
    rw [same]
    exact .refl _

/-- After a turn that succeeds, a name that has a definition is registered unless that is lazy. -/
theorem registered_or_lazy (h : t.Taken lang depth c) (ok : t.outcome = .ok ())
    (defined : (t.before.container c).hasDefinition t.name = true) :
    (t.after.container c).hasSingleton t.name = true ∨
      ∃ d, (t.before.container c).definition? t.name = some d ∧ d.lazy = true := by
  cases h with
  | looked a _ found outcome =>
    rcases a.ok_or_fault with ⟨b, rfl⟩ | ⟨fault, rfl⟩
    · exact .inl ((Container.hasSingleton_iff _ _).mpr ⟨b, registered_of_answer found⟩)
    · rw [ok] at outcome
      cases fault <;> cases outcome
  | skipped unwanted _ same =>
    obtain ⟨d, current⟩ := Option.isSome_iff_exists.mp defined
    by_cases eager : d.lazy = false
    · left
      rw [same]
      by_contra vacant
      refine unwanted ⟨⟨d, current, eager⟩, ?_⟩
      simpa [Container.hasSingleton] using vacant
    · exact .inr ⟨d, current, by simpa using eager⟩

/-- A turn fails as its look-up does. -/
theorem failed (h : t.Taken lang depth c) {fault : Fault} (failure : t.outcome = fault.outcome) :
    (t.before.container c).Wanted t.name ∧
      answer lang (depth + 1) (.getBean c t.name) (t.before.record (.preinstantiating t.name)) =
        some (fault.outcome, t.after) := by
  cases h with
  | looked a wanted found outcome =>
    have same : a = fault.outcome := Outcome.eq_of_map_fault (outcome.symm.trans failure)
    exact ⟨wanted, same ▸ found⟩
  | skipped _ outcome _ => exact absurd (failure.symm.trans outcome) (fault.ne_ok ())

end Taken

end Turn

/-- The turns of a loop that has ended. -/
private theorem turns_of_preinstantiate {lang : Language C S} {depth : Nat} {c : ContainerId}
    {w w' : World C S} {o : Outcome Unit}
    (run : answer lang (depth + 1) (.preinstantiate c) w = some (o, w')) :
    ∃ turns : List (Turn C S), turns.map (·.name) <+: (w.container c).definitionNames ∧
      Turn.Chain w turns w' ∧
      (∀ t ∈ turns, t.Of (Lookup.preinstantiateOne (lang.user (answer lang depth)) c t.name)) ∧
      (∀ t ∈ turns, t.outcome = .ok () → (w'.container c).hasSingleton t.name = true ∨
        ∃ d, (t.before.container c).definition? t.name = some d ∧ d.lazy = true) ∧
      (o = .ok () → turns.map (·.name) = (w.container c).definitionNames ∧
        ∀ t ∈ turns, t.outcome = .ok ()) ∧
      ∀ fault : Fault, o = fault.outcome → ∃ before t, turns = before ++ [t] ∧
        (∀ s ∈ before, s.outcome = .ok ()) ∧ (t.before.container c).Wanted t.name ∧
        answer lang (depth + 1) (.getBean c t.name) (t.before.record (.preinstantiating t.name)) =
          some (fault.outcome, w') := by
  obtain ⟨turns, part, chain, done, ended⟩ := Lookup.preinstantiateEach_turns _ run
  obtain ⟨_, within⟩ := chain.later fun t ht => (Turn.taken (done t ht)).later
  refine ⟨turns, part, chain, done, fun t ht ok => ?_, fun ok => ?_, fun fault failed => ?_⟩
  · -- The name had a definition at the start, and so has one at its turn.
    have defined : (t.before.container c).hasDefinition t.name = true :=
      (within t ht).1.hasDefinition (List.mem_filter.mp (part.subset (List.mem_map_of_mem ht))).2
    refine ((Turn.taken (done t ht)).registered_or_lazy ok defined).imp_left fun taken => ?_
    obtain ⟨b, hb⟩ := (Container.hasSingleton_iff _ _).mp taken
    exact (Container.hasSingleton_iff _ _).mpr ⟨b, (within t ht).2.singletons c t.name b hb⟩
  · rcases ended with ⟨_, all, succeeded⟩ | ⟨fault, _, _, rfl, _⟩
    · exact ⟨all, succeeded⟩
    · exact absurd ok (fault.ne_ok ())
  · rcases ended with ⟨rfl, _⟩ | ⟨fault', before, t, rfl, rfl, outcome, rfl, succeeded⟩
    · exact absurd failed.symm (fault.ne_ok ())
    · have ht : t ∈ before ++ [t] := List.mem_append_right _ (List.mem_singleton_self t)
      obtain ⟨wanted, found⟩ := (Turn.taken (done t ht)).failed (outcome.trans failed)
      exact ⟨before, t, rfl, succeeded, wanted, found⟩

/-- The factories that are entered in the course of a loop that has ended. -/
private theorem entered_of_preinstantiate {lang : Language C S} {depth : Nat} {c : ContainerId}
    {w w' : World C S} (orderly : ∀ c, (w.container c).Orderly) {o : Outcome Unit}
    {moments : List (Moment C S)}
    (run : (Program.request (.preinstantiate c)).history lang (depth + 1) w = some (o, w', moments))
    {code : C} {c' : ContainerId} {u : World C S} (mem : .entered code (.make c') u ∈ moments) :
    (∃ d, Creates (.entered code (.make c') u) d ∧ c' = c ∧
      d.name ∈ (w.container c).definitionNames ∧ u.marks = d.name :: w.marks) ∨
    ∃ n ∈ (w.container c).definitionNames,
      AskedUnder (n :: w.marks) moments (.entered code (.make c') u) := by
  obtain ⟨v, chronicled, rfl, rfl⟩ := chronicle_of_history run
  obtain ⟨v₁, served, rfl⟩ := Run.noting_cases chronicled
  obtain ⟨new, adds, begun⟩ := begunFor_of_preinstantiateEach (v := w.chronicled.note _) orderly served
  have whole : (v₁.note (.answered (.preinstantiate c) w.chronicled.plain o v₁.plain)).past =
      [.answered (.preinstantiate c) w o v₁.plain] ++ new ++ [.asked (.preinstantiate c) w] :=
    congrArg (_ :: ·) adds.past
  rw [whole] at mem ⊢
  have here : .entered code (.make c') u ∈ new := by
    have latest := (List.mem_cons.mp (List.mem_reverse.mp mem)).resolve_left nofun
    rcases List.mem_append.mp latest with hm | hm
    · exact hm
    · cases List.mem_singleton.mp hm
  obtain ⟨n, hn, begunFor⟩ := begun _ here
  rcases begunFor code c' u rfl with ⟨rfl, marks, d, creates⟩ | within
  · left
    obtain ⟨_, _, _, _, _, _, head⟩ := id creates
    have name : n = d.name := by
      rw [marks] at head
      exact Option.some.inj head
    exact ⟨d, creates, rfl, name ▸ hn, name ▸ marks⟩
  · exact .inr ⟨n, hn, (within.append [_] [_]).reverse⟩

/-- Creating the singletons of a container is one turn for each name that has a definition at the start, in
the order of first registration, whatever factories do meanwhile. If it succeeds, every such name has a
singleton in the end or had a lazy definition at its turn. Otherwise the last turn taken is that of the first
name for which the look-up failed, and the loop fails as this look-up did. All factories are run by the
look-ups of these turns or in the answering of requests that their factories make; so a name that is defined
later has its bean made only where such a request asks for it. The loop ends if each of the factories that
it runs does, however many definitions they add. -/
theorem preinstantiation_exact (lang : Language C S) (w : World C S) (reachable : Reachable w)
    (c : ContainerId) :
    let names := (w.container c).definitionNames
    (∀ n, n ∈ names ↔ (w.container c).hasDefinition n = true) ∧ names.Nodup ∧
    names.Sublist (w.container c).names ∧
    (∀ depth o w' moments,
      (Program.request (.preinstantiate c)).history lang (depth + 1) w = some (o, w', moments) →
      (∃ turns : List (Turn C S), turns.map (·.name) <+: names ∧ Turn.Chain w turns w' ∧
        (∀ t ∈ turns, t.Of (Lookup.preinstantiateOne (lang.user (answer lang depth)) c t.name)) ∧
        (∀ t ∈ turns, t.outcome = .ok () → (w'.container c).hasSingleton t.name = true ∨
          ∃ d, (t.before.container c).definition? t.name = some d ∧ d.lazy = true) ∧
        (o = .ok () → turns.map (·.name) = names ∧ ∀ t ∈ turns, t.outcome = .ok ()) ∧
        ∀ fault : Fault, o = fault.outcome → ∃ before t, turns = before ++ [t] ∧
          (∀ s ∈ before, s.outcome = .ok ()) ∧ (t.before.container c).Wanted t.name ∧
          answer lang (depth + 1) (.getBean c t.name) (t.before.record (.preinstantiating t.name)) =
            some (fault.outcome, w')) ∧
      ∀ code c' u, .entered code (.make c') u ∈ moments →
        (∃ d, Creates (.entered code (.make c') u) d ∧ c' = c ∧ d.name ∈ names ∧
          u.marks = d.name :: w.marks) ∨
        ∃ n ∈ names, AskedUnder (n :: w.marks) moments (.entered code (.make c') u)) ∧
    (lang.FactoriesEnd c w → ∃ depth o w', answer lang depth (.preinstantiate c) w = some (o, w')) := by
  have named := reachable.named c
  have sublist : (w.container c).definitionNames.Sublist (w.container c).names := List.filter_sublist
  refine ⟨fun n => ⟨fun hn => (List.mem_filter.mp hn).2, fun defined => ?_⟩,
    named.distinct.sublist sublist, sublist, fun depth o w' moments run => ⟨?_, ?_⟩, fun ends => ?_⟩
  · have known := (named.known n).mpr ((Container.hasBean_iff _ n).mpr (.inl defined))
    exact List.mem_filter.mpr ⟨known, defined⟩
  · obtain ⟨v, chronicled, rfl, rfl⟩ := chronicle_of_history run
    exact turns_of_preinstantiate (history_of_chronicle chronicled).1
  · exact fun code c' u mem => entered_of_preinstantiate reachable.orderly run mem
  · have none : Lookup.preinstantiateEach (lang.user (answer lang 0)) c [] w = some (.ok (), w) := rfl
    obtain ⟨depth, o, w', ran⟩ := turns_end ends (List.nil_append _).symm none
    exact ⟨depth + 1, o, w', ran⟩

/-- A definition whose factory defines another name while it runs. -/
def definingLater (c : ContainerId) (first later : String) : World Unit Unit :=
  (World.initial ()).define c { name := first, type := .interface later, factory := () }

theorem preinstantiation_exact_redefining : ∃ w' moments, ∃ t : Turn Unit Unit,
    (Program.request (.preinstantiate ⟨0⟩)).history (redefining "b") 2 (definingLater ⟨0⟩ "a" "b") =
      some (.ok (), w', moments) ∧
    t.name = "a" ∧ Turn.Chain (definingLater ⟨0⟩ "a" "b") [t] w' ∧
    (w'.container ⟨0⟩).hasSingleton t.name = true ∧
    (w'.container ⟨0⟩).hasDefinition "b" = true ∧ (w'.container ⟨0⟩).hasSingleton "b" = false ∧
    ∃ depth o w₁, answer (redefining "b") depth (.preinstantiate ⟨0⟩) (definingLater ⟨0⟩ "a" "b") =
      some (o, w₁) := by
  let w := definingLater ⟨0⟩ "a" "b"
  let r : Recipe Unit := { name := "a", type := .interface "b", factory := () }
  have defined : (Program.request (.define ⟨0⟩ r)).interpret (answer (redefining "b") 1) (.initial ()) =
      some (.ok (), w) := rfl
  have reachable : Reachable w := .of_interpret defined
  obtain ⟨_, _, _, loops, ended⟩ := preinstantiation_exact (redefining "b") w reachable ⟨0⟩
  have run : ∃ w' moments, (Program.request (.preinstantiate ⟨0⟩)).history (redefining "b") 2 w =
      some (.ok (), w', moments) ∧ (w'.container ⟨0⟩).hasDefinition "b" = true ∧
      (w'.container ⟨0⟩).hasSingleton "b" = false := ⟨_, _, rfl, rfl, rfl⟩
  obtain ⟨w', moments, run, later, missing⟩ := run
  obtain ⟨⟨turns, _, chain, _, created, all, _⟩, _⟩ := loops 1 _ _ _ run
  obtain ⟨names, ok⟩ := all rfl
  obtain ⟨t, rfl, name⟩ : ∃ t, turns = [t] ∧ t.name = "a" := List.map_eq_singleton_iff.mp names
  have taken : (w'.container ⟨0⟩).hasSingleton t.name = true := by
    have t_mem : t ∈ [t] := List.mem_singleton_self t
    refine (created t t_mem (ok t t_mem)).resolve_right ?_
    rintro ⟨d, current, eager⟩
    rw [chain.1, name] at current
    cases current
    cases eager
  exact ⟨w', moments, t, run, name, chain, taken, later, missing,
    ended fun _ _ _ _ _ _ _ _ _ => ⟨1, _, _, rfl⟩⟩

end Wiring
