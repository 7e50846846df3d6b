import Wiring.Proofs.Preinstantiation
import Wiring.Proofs.Registration

namespace Wiring

variable {C S : Type}

section Loop

variable {start : Container C} {deps : String → List String} {c : ContainerId}

/-- What was made by a second world, but for the trace, in which the loop tells of its turns. -/
def MadeSilently (start : Container C) (deps : String → List String) (c : ContainerId)
    (v v' : World C (Noted C S)) (order : List String) : Prop :=
  ∃ trace, Made start deps c v { v' with trace } order

theorem Made.retrace {v v' : World C (Noted C S)} {order : List String}
    (h : Made start deps c v v' order) (trace : Array Event) :
    Made start deps c { v with trace }
      { v' with trace := trace ++ (order.map Event.registeredSingleton).toArray } order :=
  ⟨h.marks, h.others, h.rest, h.fresh, h.nodup, h.before, rfl, h.runs⟩

namespace MadeSilently

theorem of_made {v v' : World C (Noted C S)} {order : List String} {e : Event}
    (h : Made start deps c (v.record e) v' order) : MadeSilently start deps c v v' order :=
  ⟨_, h.retrace v.trace⟩

theorem trans {v v₁ v₂ : World C (Noted C S)} {o₁ o₂ : List String}
    (h : MadeSilently start deps c v v₁ o₁) (k : MadeSilently start deps c v₁ v₂ o₂) :
    MadeSilently start deps c v v₂ (o₁ ++ o₂) := by
  obtain ⟨trace, h⟩ := h
  obtain ⟨_, k⟩ := k
  exact ⟨_, h.trans (k.retrace trace)⟩

theorem refl (v : World C (Noted C S)) : MadeSilently start deps c v v [] :=
  ⟨v.trace, .quiet [] rfl rfl rfl rfl rfl⟩

theorem marks {v v' : World C (Noted C S)} {order : List String}
    (h : MadeSilently start deps c v v' order) : v'.marks = v.marks := by
  obtain ⟨_, made⟩ := h
  exact made.marks

theorem keeps {v v' : World C (Noted C S)} {order : List String}
    (h : MadeSilently start deps c v v' order) {n : String} {b : BeanId}
    (hn : (v.container c).singleton? n = some b) : (v'.container c).singleton? n = some b := by
  obtain ⟨_, made⟩ := h
  exact made.keeps hn

theorem asked {v v' : World C (Noted C S)} {order : List String} (m : Moment C S)
    (hm : m.creation? = none) (h : MadeSilently start deps c (v.note m) v' order) :
    MadeSilently start deps c v v' order := by
  obtain ⟨trace, made⟩ := h
  exact ⟨trace, made.asked m hm⟩

theorem noted {v v' : World C (Noted C S)} {order : List String} (m : Moment C S)
    (hm : m.creation? = none) (h : MadeSilently start deps c v v' order) :
    MadeSilently start deps c v (v'.note m) order := by
  obtain ⟨trace, made⟩ := h
  exact ⟨trace, made.noted m hm⟩

end MadeSilently

/-- A wanted name is wanted since the start. -/
theorem Advanced.wanted {k : Container C} (h : Advanced start deps k) {n : String} (wanted : k.Wanted n) :
    start.Wanted n := by
  obtain ⟨⟨d, current, eager⟩, free⟩ := wanted
  exact ⟨⟨d, (h.definitions n free).symm.trans current, eager⟩, h.free free⟩

/-- A name that was wanted at the start is wanted until it is registered. -/
theorem Advanced.registered {k : Container C} (h : Advanced start deps k) {n : String}
    (wanted : start.Wanted n) (unwanted : ¬k.Wanted n) : k.hasSingleton n = true := by
  by_contra vacant
  have free : k.singleton? n = none := by simpa [Container.hasSingleton] using vacant
  obtain ⟨d, current, eager⟩ := wanted.1
  exact unwanted ⟨⟨d, (h.definitions n free).trans current, eager⟩, free⟩

/-- Turns for these names either create what is wanted of them, after what that needs, or fail at one whose
creation cannot succeed. -/
def Closes (start : Container C) (deps : String → List String) (c : ContainerId) (names : List String)
    (v : World C (Noted C S)) (r : Option (Outcome Unit × World C (Noted C S))) : Prop :=
  (∃ v' order, r = some (.ok (), v') ∧ Advanced start deps (v'.container c) ∧
    MadeSilently start deps c v v' order ∧
    (∀ n ∈ names, start.Wanted n → (v'.container c).hasSingleton n = true) ∧
    ∀ m ∈ order, ∃ n ∈ names, start.Wanted n ∧ Reaches start deps n m) ∨
  ∃ e v' n, r = some (.error e, v') ∧ v'.marks = v.marks ∧ n ∈ names ∧ start.Wanted n ∧
    FirstFailure start deps v.marks n e

variable (lang : Language C S) (depth : Nat)
  (factories : ∀ n d, start.definition? n = some d →
    (lang.run d.factory (.make c)).Wires c d.type (deps n))

include factories

private theorem preinstantiateOne_closes (n : String) (v : World C (Noted C S))
    (hv : Advanced start deps (v.container c)) (enough : start.room v.marks ≤ depth) :
    Closes start deps c [n] v
      (Lookup.preinstantiateOne (lang.witnessed (chronicle lang depth)) c n v) := by
  by_cases wanted : (v.container c).Wanted n
  · rw [Lookup.preinstantiateOne_wanted _ wanted]
    have first : start.Wanted n := hv.wanted wanted
    rcases lookUp_within lang depth factories n (v.record (.preinstantiating n)) hv enough with
      ⟨b, v', order, hr, ha, made, hb, reach⟩ | ⟨e, v', hr, he, hf⟩
    · rw [hr]
      refine .inl ⟨v', order, rfl, ha, .of_made made, fun m hm _ => ?_, fun m hm => ?_⟩
      · rw [List.mem_singleton.mp hm]
        exact (Container.hasSingleton_iff _ n).mpr ⟨b, hb⟩
      · exact ⟨n, List.mem_singleton_self n, first, reach m hm⟩
    · rw [hr]
      exact .inr ⟨e, v', n, rfl, he, List.mem_singleton_self n, first, hf⟩
  · rw [Lookup.preinstantiateOne_unwanted _ wanted]
    refine .inl ⟨v, [], rfl, hv, .refl v, fun m hm old => ?_, fun _ hm => absurd hm List.not_mem_nil⟩
    rw [List.mem_singleton.mp hm] at old ⊢
    exact hv.registered old wanted

/-- By induction on the names: each turn goes on from what the turns before it have made. -/
theorem preinstantiateEach_closes (names : List String) (v : World C (Noted C S))
    (hv : Advanced start deps (v.container c)) (enough : start.room v.marks ≤ depth) :
    Closes start deps c names v
      (Lookup.preinstantiateEach (lang.witnessed (chronicle lang depth)) c names v) := by
  induction names generalizing v with
  | nil =>
    exact .inl ⟨v, [], rfl, hv, .refl v, fun _ hm => absurd hm List.not_mem_nil,
      fun _ hm => absurd hm List.not_mem_nil⟩
  | cons n rest ih =>
    rcases preinstantiateOne_closes lang depth factories n v hv enough with
      ⟨v₁, o₁, turn, ha₁, made₁, taken₁, reach₁⟩ | ⟨e, v₁, m, turn, marks, hm, wanted, hf⟩
    · have marks := made₁.marks
      have run := Run.bind_ok _ (fun _ => Lookup.preinstantiateEach
        (lang.witnessed (chronicle lang depth)) c rest) v v₁ () turn
      rcases ih v₁ ha₁ (marks ▸ enough) with
        ⟨v₂, o₂, more, ha₂, made₂, taken₂, reach₂⟩ | ⟨e, v₂, m, more, marks₂, hm, wanted, hf⟩
      · refine .inl ⟨v₂, o₁ ++ o₂, run.trans more, ha₂, made₁.trans made₂, fun m hm old => ?_,
          fun m hm => ?_⟩
        · rcases List.mem_cons.mp hm with rfl | hm
          · obtain ⟨b, hb⟩ := (Container.hasSingleton_iff _ m).mp (taken₁ m (List.mem_singleton_self m) old)
            exact (Container.hasSingleton_iff _ m).mpr ⟨b, made₂.keeps hb⟩
          · exact taken₂ m hm old
        · rcases List.mem_append.mp hm with hm | hm
          · obtain ⟨x, hx, old, reach⟩ := reach₁ m hm
            exact ⟨x, List.mem_cons.mpr (.inl (List.mem_singleton.mp hx)), old, reach⟩
          · obtain ⟨x, hx, old, reach⟩ := reach₂ m hm
            exact ⟨x, List.mem_cons_of_mem n hx, old, reach⟩
      · exact .inr ⟨e, v₂, m, run.trans more, marks₂.trans marks, List.mem_cons_of_mem n hm, wanted,
          marks ▸ hf⟩
    · have run : Lookup.preinstantiateEach (lang.witnessed (chronicle lang depth)) c (n :: rest) v =
          some (.error e, v₁) := Run.bind_error _ _ v v₁ e turn
      exact .inr ⟨e, v₁, m, run, marks, List.mem_cons.mpr (.inl (List.mem_singleton.mp hm)), wanted, hf⟩

end Loop

namespace Container

/-- The same names are registered, and the same recipes in force. -/
structure Alike (k k' : Container C) : Prop where
  recipes : ∀ n, (k.definition? n).map (·.toRecipe) = (k'.definition? n).map (·.toRecipe)
  singletons : ∀ n, k.hasSingleton n = k'.hasSingleton n

namespace Alike

variable {k k' : Container C} {deps : String → List String}

theorem symm (h : Alike k k') : Alike k' k := ⟨fun n => (h.recipes n).symm, fun n => (h.singletons n).symm⟩

theorem free (h : Alike k k') {n : String} (free : k.singleton? n = none) : k'.singleton? n = none := by
  have vacant := h.singletons n
  simpa [hasSingleton, free] using vacant.symm

theorem recipe (h : Alike k k') {n : String} {d : Definition C} (current : k.definition? n = some d) :
    ∃ d', k'.definition? n = some d' ∧ d'.toRecipe = d.toRecipe := by
  have same := h.recipes n
  rw [current] at same
  exact Option.map_eq_some_iff.mp same.symm

theorem wanted (h : Alike k k') {n : String} (wanted : k.Wanted n) : k'.Wanted n := by
  obtain ⟨⟨d, current, eager⟩, free⟩ := wanted
  obtain ⟨d', current', same⟩ := h.recipe current
  exact ⟨⟨d', current', (congrArg Recipe.lazy same).trans eager⟩, h.free free⟩

theorem needs (h : Alike k k') {m j : String} (needs : Needs k deps m j) : Needs k' deps m j := by
  obtain ⟨free, defined, mem⟩ := needs
  obtain ⟨d, current⟩ := Option.isSome_iff_exists.mp defined
  obtain ⟨d', current', _⟩ := h.recipe current
  exact ⟨h.free free, Option.isSome_of_eq_some current', mem⟩

theorem reaches (h : Alike k k') {n m : String} (reach : Reaches k deps n m) : Reaches k' deps n m :=
  Relation.ReflTransGen.mono (fun _ _ => h.needs) _ _ reach

theorem sound (h : Alike k k') {n : String} (sound : Sound k deps n) : Sound k' deps n := by
  induction sound with
  | registered n b hb =>
    have taken : k'.hasSingleton n = true := by
      rw [← h.singletons]
      exact (hasSingleton_iff k n).mpr ⟨b, hb⟩
    obtain ⟨b', hb'⟩ := (hasSingleton_iff k' n).mp taken
    exact .registered n b' hb'
  | defined n d hd _ ih =>
    obtain ⟨d', hd', _⟩ := h.recipe hd
    exact .defined n d' hd' ih

/-- It does not matter in which order things were registered. -/
theorem of_lists {l l' : List (Registration C)} (h : k.Lists l) (h' : k'.Lists l') (same : l.Perm l') :
    Alike k k' := by
  have names : k'.names.Perm k.names := by
    rw [h.names, h'.names]
    exact same.symm.map _
  have both (n : String) : (k.definition? n).map (·.toRecipe) = (k'.definition? n).map (·.toRecipe) ∧
      k.hasSingleton n = k'.hasSingleton n := by
    by_cases listed : n ∈ k.names
    · rw [h.names] at listed
      obtain ⟨r, hr, rfl⟩ := List.mem_map.mp listed
      have found := h.found r hr
      have found' := h'.found r (same.subset hr)
      cases found with
      | definition r d current recipe free =>
        cases found' with
        | definition _ d' current' recipe' free' =>
          simp only [Registration.name, current, current', Option.map_some, recipe, recipe', hasSingleton,
            free, free', and_self]
      | singleton n b undefined registered =>
        cases found' with
        | singleton _ _ undefined' registered' =>
          simp only [Registration.name, undefined, undefined', hasSingleton, registered, registered', and_self]
    · have unknown : k.hasBean n = false := Bool.eq_false_iff.mpr fun known => listed (h.known n known)
      have unknown' : k'.hasBean n = false :=
        Bool.eq_false_iff.mpr fun known => listed (names.subset (h'.known n known))
      obtain ⟨undefined, free⟩ := of_unknown unknown
      obtain ⟨undefined', free'⟩ := of_unknown unknown'
      simp only [undefined, undefined', hasSingleton, free, free', and_self]
  exact ⟨fun n => (both n).1, fun n => (both n).2⟩

end Alike

end Container

section Closure

variable {lang : Language C S} {w : World C S} {c : ContainerId} {deps : String → List String}

/-- A look-up succeeds exactly if the name is sound. -/
private theorem sound_iff_found (reachable : Reachable w)
    (factories : ∀ n d, (w.container c).definition? n = some d →
      (lang.run d.factory (.make c)).Wires c d.type (deps n))
    (idle : w.marks = []) (n : String) {depth : Nat}
    (enough : (w.container c).definitions.length < depth) :
    Sound (w.container c) deps n ↔
      ∃ b w', answer lang depth (.getBean c n) w = some (.ok b, w') := by
  have start : Advanced (w.container c) deps (w.container c) := .refl deps (reachable.orderly c)
  rcases getBean_traverses lang _ factories n w.chronicled start (Container.room_le _ w.marks) with
    ⟨b, v, order, hr, ha, made, hb, reach⟩ | ⟨e, v, hr, he, hf⟩
  · have run := (history_of_chronicle (chronicle_mono lang enough (.getBean c n) w.chronicled _ hr)).1
    exact ⟨fun _ => ⟨b, v.plain, run⟩, fun _ => ha.sound n b hb⟩
  · have run := (history_of_chronicle (chronicle_mono lang enough (.getBean c n) w.chronicled _ hr)).1
    have failure : FirstFailure (w.container c) deps [] n e := idle ▸ hf
    refine ⟨fun sound => absurd sound (failure.not_sound nofun), ?_⟩
    rintro ⟨b, w', found⟩
    cases run.symm.trans found

/-- How the creation of all singletons comes out: either all that is wanted is there in the end, with what
it needs and no more, or one wanted name is not sound. -/
private theorem preinstantiate_closes (reachable : Reachable w)
    (factories : ∀ n d, (w.container c).definition? n = some d →
      (lang.run d.factory (.make c)).Wires c d.type (deps n)) :
    ∃ o v, chronicle lang ((w.container c).definitions.length + 1) (.preinstantiate c) w.chronicled =
        some (o, v) ∧ v.marks = w.marks ∧
      ((o = .ok () ∧ ∃ order, Advanced (w.container c) deps (v.container c) ∧
          MadeSilently (w.container c) deps c w.chronicled v order ∧
          (∀ n, (w.container c).Wanted n → (v.container c).hasSingleton n = true) ∧
          ∀ m ∈ order, ∃ n, (w.container c).Wanted n ∧ Reaches (w.container c) deps n m) ∨
        ∃ e n, o = .error e ∧ (w.container c).Wanted n ∧ FirstFailure (w.container c) deps w.marks n e) := by
  let depth := (w.container c).definitions.length
  let asked := w.chronicled.note (.asked (.preinstantiate c) w)
  have start : Advanced (w.container c) deps (asked.container c) := .refl deps (reachable.orderly c)
  have listed (n : String) (wanted : (w.container c).Wanted n) :
      n ∈ (w.container c).definitionNames := by
    obtain ⟨d, current, _⟩ := wanted.1
    have defined : (w.container c).hasDefinition n = true := Option.isSome_of_eq_some current
    have known := ((reachable.named c).known n).mpr ((Container.hasBean_iff _ n).mpr (.inl defined))
    exact List.mem_filter.mpr ⟨known, defined⟩
  have whole (o : Outcome Unit) (v : World C (Noted C S))
      (h : Lookup.preinstantiateEach (lang.witnessed (chronicle lang depth)) c
        (w.container c).definitionNames asked = some (o, v)) :
      chronicle lang (depth + 1) (.preinstantiate c) w.chronicled =
        some (o, v.note (.answered (.preinstantiate c) w o v.plain)) := Run.noting_some h
  rcases preinstantiateEach_closes lang depth factories (w.container c).definitionNames asked start
      (Container.room_le _ w.marks) with
    ⟨v, order, hr, ha, made, taken, reach⟩ | ⟨e, v, n, hr, marks, hn, wanted, hf⟩
  · refine ⟨.ok (), _, whole _ v hr, made.marks, .inl ⟨rfl, order, ha, (made.noted _ rfl).asked _ rfl,
      fun n wanted => taken n (listed n wanted) wanted, fun m hm => ?_⟩⟩
    obtain ⟨n, _, wanted, reach⟩ := reach m hm
    exact ⟨n, wanted, reach⟩
  · exact ⟨.error e, _, whole _ v hr, marks, .inr ⟨e, n, rfl, wanted, hf⟩⟩

/-- What the creation of all singletons has made by the second world: the names that are reached from those
wanted, each by just one run of its factory. Nothing is left to do after that. -/
structure Closed (lang : Language C S) (deps : String → List String) (c : ContainerId)
    (w w' : World C S) (moments : List (Moment C S)) : Prop where
  registered_iff : ∀ m, (w'.container c).hasSingleton m = true ↔
    (w.container c).hasSingleton m = true ∨
      ∃ n, (w.container c).Wanted n ∧ Reaches (w.container c) deps n m
  lazy_iff : ∀ m d, (w.container c).definition? m = some d → d.lazy = true →
    (w.container c).singleton? m = none → ((w'.container c).hasSingleton m = true ↔
      ∃ n, (w.container c).Wanted n ∧ Relation.TransGen (Needs (w.container c) deps) n m)
  kept : ∀ m b, (w.container c).singleton? m = some b → (w'.container c).singleton? m = some b
  others : ∀ c', c' ≠ c → w'.container c' = w.container c'
  runs : ∃ order : List String, order.Nodup ∧
    (∀ m, m ∈ order ↔ (w.container c).singleton? m = none ∧ (w'.container c).hasSingleton m = true) ∧
    (moments.filterMap Moment.creation?).Perm (order.filterMap ((w.container c).creation c))
  again : ∀ depth, (Program.request (.preinstantiate c)).history lang (depth + 1) w' =
    some (.ok (), w', [.asked (.preinstantiate c) w', .answered (.preinstantiate c) w' (.ok ()) w'])

/-- A request to create the singletons where none is wanted. -/
private theorem history_unwanted (lang : Language C S) (w : World C S) (c : ContainerId)
    (unwanted : ∀ n, ¬(w.container c).Wanted n) (depth : Nat) :
    (Program.request (.preinstantiate c)).history lang (depth + 1) w =
      some (.ok (), w, [.asked (.preinstantiate c) w, .answered (.preinstantiate c) w (.ok ()) w]) := by
  let asked := w.chronicled.note (.asked (.preinstantiate c) w)
  have idle : Lookup.preinstantiate (lang.witnessed (chronicle lang depth)) c asked =
      some (.ok (), asked) :=
    Lookup.preinstantiateEach_unwanted _ fun n _ => unwanted n
  have run : chronicle lang (depth + 1) (.preinstantiate c) w.chronicled =
      some (.ok (), asked.note (.answered (.preinstantiate c) w (.ok ()) w)) := Run.noting_some idle
  exact (history_of_chronicle run).2

private theorem MadeSilently.closed {v : World C (Noted C S)} {order : List String}
    (made : MadeSilently (w.container c) deps c w.chronicled v order)
    (advanced : Advanced (w.container c) deps (v.container c))
    (taken : ∀ n, (w.container c).Wanted n → (v.container c).hasSingleton n = true)
    (reach : ∀ m ∈ order, ∃ n, (w.container c).Wanted n ∧ Reaches (w.container c) deps n m) :
    Closed lang deps c w v.plain v.past.reverse := by
  obtain ⟨trace, made⟩ := made
  have old (m : String) (hm : m ∉ order) :
      (v.container c).hasSingleton m = (w.container c).hasSingleton m :=
    congrArg Option.isSome (made.rest m hm)
  have registered (m : String) : (v.container c).hasSingleton m = true ↔
      (w.container c).hasSingleton m = true ∨
        ∃ n, (w.container c).Wanted n ∧ Reaches (w.container c) deps n m := by
    constructor
    · intro hm
      by_cases mem : m ∈ order
      · exact .inr (reach m mem)
      · exact .inl (old m mem ▸ hm)
    · rintro (before | ⟨n, wanted, hm⟩)
      · obtain ⟨b, hb⟩ := (Container.hasSingleton_iff _ m).mp before
        exact (Container.hasSingleton_iff _ m).mpr ⟨b, advanced.kept m b hb⟩
      · exact made.reached rfl hm (taken n wanted)
  refine ⟨registered, fun m d current lazily free => ?_, advanced.kept, made.others,
    ⟨order, made.nodup, fun m => ?_, ?_⟩, history_unwanted lang v.plain c fun n wanted => ?_⟩
  · rw [World.plain_container, registered]
    have vacant : (w.container c).hasSingleton m = false := by simp [Container.hasSingleton, free]
    constructor
    · rintro (before | ⟨n, wanted, hm⟩)
      · rw [vacant] at before
        cases before
      · rcases Relation.reflTransGen_iff_eq_or_transGen.mp hm with rfl | through
        · -- A name that is wanted itself is not lazy.
          obtain ⟨⟨d', current', eager⟩, _⟩ := wanted
          cases current.symm.trans current'
          cases lazily.symm.trans eager
        · exact ⟨n, wanted, through⟩
    · rintro ⟨n, wanted, through⟩
      exact .inr ⟨n, wanted, through.to_reflTransGen⟩
  · refine ⟨fun mem => ⟨(made.fresh m mem).1, (made.fresh m mem).2.1⟩, ?_⟩
    rintro ⟨free, new⟩
    by_contra absent
    have before : (w.container c).hasSingleton m = true := old m absent ▸ new
    simp [Container.hasSingleton, free] at before
  · obtain ⟨new, hp, perm⟩ := made.runs
    have past : v.past = new := hp.trans (List.append_nil new)
    rw [past]
    exact (new.reverse_perm.filterMap _).trans perm
  · have present := taken n (advanced.wanted wanted)
    obtain ⟨b, hb⟩ := (Container.hasSingleton_iff _ n).mp present
    cases hb.symm.trans wanted.2

/-- The same, by the outcome. -/
private theorem preinstantiate_outcome (reachable : Reachable w)
    (factories : ∀ n d, (w.container c).definition? n = some d →
      (lang.run d.factory (.make c)).Wires c d.type (deps n))
    (idle : w.marks = []) :
    ∃ o v, chronicle lang ((w.container c).definitions.length + 1) (.preinstantiate c) w.chronicled =
        some (o, v) ∧ v.marks = [] ∧ (∀ text, o ≠ .panic text) ∧
      (o = .ok () ↔ ∀ n, (w.container c).Wanted n → Sound (w.container c) deps n) ∧
      (o = .ok () → Closed lang deps c w v.plain v.past.reverse) := by
  obtain ⟨o, v, run, marks, ended⟩ := preinstantiate_closes reachable factories
  refine ⟨o, v, run, marks.trans idle, ?_⟩
  rcases ended with ⟨rfl, order, advanced, made, taken, reach⟩ | ⟨e, n, rfl, wanted, hf⟩
  · refine ⟨nofun, ⟨fun _ n wanted => ?_, fun _ => rfl⟩, fun _ => made.closed advanced taken reach⟩
    obtain ⟨b, hb⟩ := (Container.hasSingleton_iff _ n).mp (taken n wanted)
    exact advanced.sound n b hb
  · have failure : FirstFailure (w.container c) deps [] n e := idle ▸ hf
    exact ⟨nofun, ⟨nofun, fun sound => absurd (sound n wanted) (failure.not_sound nofun)⟩, nofun⟩

/-- In a reachable world without marks, over factories that look up fixed names, creating the singletons
ends, and in the same way within every depth above the number of definitions. It succeeds exactly if the
look-up of each wanted name would, and has then built just what is reached from the wanted names, by one run
of each factory; to do it again runs nothing and changes nothing. With the same recipes and registered names,
in whatever order they came, the outcome and what is registered in the end are the same. -/
theorem preinstantiation_closed (lang : Language C S) (w : World C S) (reachable : Reachable w)
    (c : ContainerId) (deps : String → List String)
    (factories : ∀ n d, (w.container c).definition? n = some d →
      (lang.run d.factory (.make c)).Wires c d.type (deps n))
    (idle : w.marks = []) :
    ∃ o w' moments,
      (∀ depth, (w.container c).definitions.length < depth →
        answer lang depth (.preinstantiate c) w = some (o, w') ∧
        (Program.request (.preinstantiate c)).history lang depth w = some (o, w', moments)) ∧
      w'.marks = [] ∧ (∀ text, o ≠ .panic text) ∧
      (o = .ok () ↔ ∀ n, (w.container c).Wanted n →
        ∃ depth b v, answer lang depth (.getBean c n) w = some (.ok b, v)) ∧
      (o = .ok () → Closed lang deps c w w' moments) ∧
      ∀ w₁, Reachable w₁ → w₁.marks = [] → (w.container c).Alike (w₁.container c) → ∃ o₁ w₁',
        (∀ depth, (w₁.container c).definitions.length < depth →
          answer lang depth (.preinstantiate c) w₁ = some (o₁, w₁')) ∧
        (o₁ = .ok () ↔ o = .ok ()) ∧
        (o = .ok () → ∀ m, (w₁'.container c).hasSingleton m = (w'.container c).hasSingleton m) := by
  obtain ⟨o, v, run, marks, lively, succeeds, closed⟩ := preinstantiate_outcome reachable factories idle
  have found (n : String) : Sound (w.container c) deps n ↔
      ∃ depth b v, answer lang depth (.getBean c n) w = some (.ok b, v) := by
    constructor
    · intro sound
      exact ⟨_, (sound_iff_found reachable factories idle n (Nat.lt_succ_self _)).mp sound⟩
    · rintro ⟨depth, b, v, answered⟩
      have deep := answer_mono lang (Nat.le_max_left depth ((w.container c).definitions.length + 1))
        (.getBean c n) w _ answered
      exact (sound_iff_found reachable factories idle n (Nat.le_max_right _ _)).mpr ⟨b, v, deep⟩
  refine ⟨o, v.plain, v.past.reverse, fun depth enough => history_of_chronicle
    (chronicle_mono lang enough (.preinstantiate c) w.chronicled _ run), marks, lively, ?_, closed,
    fun w₁ reachable₁ idle₁ alike => ?_⟩
  · simp only [succeeds, found]
  · have factories₁ (n : String) (d : Definition C) (current : (w₁.container c).definition? n = some d) :
        (lang.run d.factory (.make c)).Wires c d.type (deps n) := by
      obtain ⟨d', current', same⟩ := alike.symm.recipe current
      have wires := factories n d' current'
      rwa [congrArg Recipe.factory same, congrArg Recipe.type same] at wires
    obtain ⟨o₁, v₁, run₁, _, _, succeeds₁, closed₁⟩ := preinstantiate_outcome reachable₁ factories₁ idle₁
    have same : o₁ = .ok () ↔ o = .ok () := by
      rw [succeeds, succeeds₁]
      exact ⟨fun all n wanted => alike.symm.sound (all n (alike.wanted wanted)),
        fun all n wanted => alike.sound (all n (alike.symm.wanted wanted))⟩
    refine ⟨o₁, v₁.plain, fun depth enough => (history_of_chronicle
      (chronicle_mono lang enough (.preinstantiate c) w₁.chronicled _ run₁)).1, same, fun ok m => ?_⟩
    rw [Bool.eq_iff_iff, (closed ok).registered_iff, (closed₁ (same.mpr ok)).registered_iff,
      alike.singletons]
    refine or_congr_right ⟨?_, ?_⟩
    · rintro ⟨n, wanted, reach⟩
      exact ⟨n, alike.symm.wanted wanted, alike.symm.reaches reach⟩
    · rintro ⟨n, wanted, reach⟩
      exact ⟨n, alike.wanted wanted, alike.reaches reach⟩

end Closure

/-- Three definitions of one type: only the first is not lazy, and it needs the second. -/
def partlyLazy (type : BeanType) : List (Registration (List String)) :=
  [.definition { name := "a", type, factory := ["b"] },
    .definition { name := "b", type, lazy := true, factory := [] },
    .definition { name := "c", type, lazy := true, factory := [] }]

theorem preinstantiation_closed_partlyLazy : ∃ w' w₁',
    answer (wiring (.interface "T")) 4 (.preinstantiate ⟨0⟩)
      ((World.initial ()).enterAll ⟨0⟩ (partlyLazy (.interface "T"))) = some (.ok (), w') ∧
    (w'.container ⟨0⟩).hasSingleton "b" = true ∧ (w'.container ⟨0⟩).hasSingleton "c" = false ∧
    answer (wiring (.interface "T")) 4 (.preinstantiate ⟨0⟩)
      ((World.initial ()).enterAll ⟨0⟩ (partlyLazy (.interface "T")).reverse) = some (.ok (), w₁') ∧
    ∀ m, (w₁'.container ⟨0⟩).hasSingleton m = (w'.container ⟨0⟩).hasSingleton m := by
  let T : BeanType := .interface "T"
  let w : World (List String) Unit := (World.initial ()).enterAll ⟨0⟩ (partlyLazy T)
  let w₁ : World (List String) Unit := (World.initial ()).enterAll ⟨0⟩ (partlyLazy T).reverse
  let deps : String → List String := fun n => if n = "a" then ["b"] else []
  have reachable (l : List (Registration (List String))) (distinct : (l.map (·.name)).Nodup)
      (present : ∀ r ∈ l, r.Present (World.initial () : World (List String) Unit)) :
      Reachable ((World.initial () : World (List String) Unit).enterAll ⟨0⟩ l) :=
    .of_interpret (registerAll_run (wiring T) 0 ⟨0⟩ distinct present fun _ _ => rfl)
  have start : ((World.initial () : World (List String) Unit).container ⟨0⟩).Lists [] := .empty
  have alike : (w.container ⟨0⟩).Alike (w₁.container ⟨0⟩) :=
    .of_lists (World.lists_enterAll start (by decide)) (World.lists_enterAll start (by decide))
      (List.reverse_perm _).symm
  let a : Definition (List String) := { name := "a", type := T, factory := ["b"], serial := 0 }
  let b : Definition (List String) := { name := "b", type := T, lazy := true, factory := [], serial := 1 }
  let c : Definition (List String) := { name := "c", type := T, lazy := true, factory := [], serial := 2 }
  have definitions : (w.container ⟨0⟩).definitions = [c, b, a] := rfl
  have free (n : String) : (w.container ⟨0⟩).singleton? n = none := rfl
  have factories (n : String) (d : Definition (List String)) (hd : (w.container ⟨0⟩).definition? n = some d) :
      ((wiring T).run d.factory (.make ⟨0⟩)).Wires ⟨0⟩ d.type (deps n) := by
    have name := Container.name_of_definition? _ n d hd
    have mem := Container.mem_of_definition? _ n d hd
    subst name
    rw [definitions] at mem
    rcases List.mem_cons.mp mem with rfl | mem
    · exact wire_wires T ⟨0⟩ [] rfl
    rcases List.mem_cons.mp mem with rfl | mem
    · exact wire_wires T ⟨0⟩ [] rfl
    · obtain rfl := List.mem_singleton.mp mem
      exact wire_wires T ⟨0⟩ ["b"] rfl
  have reachable₀ : Reachable w := reachable _ (by decide) (by simp [partlyLazy, Registration.Present])
  have reachable₁ : Reachable w₁ := reachable _ (by decide) (by simp [partlyLazy, Registration.Present])
  obtain ⟨o, w', moments, runs, _, _, _, closed, others⟩ :=
    preinstantiation_closed (wiring T) w reachable₀ ⟨0⟩ deps factories rfl
  have run := (runs 4 (by decide)).1
  have succeeds : (answer (wiring (.interface "T")) 4 (.preinstantiate ⟨0⟩)
      ((World.initial ()).enterAll ⟨0⟩ (partlyLazy (.interface "T")))).bind (·.1.result?) = some () := by
    decide +kernel
  obtain rfl : o = .ok () := by
    rw [show answer _ 4 _ _ = _ from run] at succeeds
    exact Outcome.ok_of_result? succeeds
  obtain ⟨o₁, w₁', runs₁, same, agree⟩ := others w₁ reachable₁ rfl alike
  obtain rfl := same.mpr rfl
  have eager : (w.container ⟨0⟩).Wanted "a" :=
    ⟨⟨a, by simp [Container.definition?, definitions, a, b, c], rfl⟩, free "a"⟩
  have needed : (w'.container ⟨0⟩).hasSingleton "b" = true := by
    have current : (w.container ⟨0⟩).definition? "b" = some b := by
      simp [Container.definition?, definitions, b, c]
    have need : Needs (w.container ⟨0⟩) deps "a" "b" := ⟨free "a", rfl, List.mem_singleton_self "b"⟩
    exact ((closed rfl).lazy_iff "b" b current rfl (free "b")).mpr ⟨"a", eager, .single need⟩
  have unneeded : (w'.container ⟨0⟩).hasSingleton "c" = false := by
    refine Bool.eq_false_iff.mpr fun built => ?_
    have current : (w.container ⟨0⟩).definition? "c" = some c := by
      simp [Container.definition?, definitions, c]
    obtain ⟨n, _, through⟩ := ((closed rfl).lazy_iff "c" c current rfl (free "c")).mp built
    obtain ⟨m, _, _, _, need⟩ := Relation.TransGen.tail'_iff.mp through
    have other : "c" ∉ deps m := by
      by_cases hm : m = "a" <;> simp [deps, hm]
    exact other need
  exact ⟨w', w₁', run, needed, unneeded, runs₁ 4 (by decide), agree rfl⟩

end Wiring
