import Wiring.Proofs.Names

namespace Wiring

variable {C S α : Type}

/-- The type under which a name can be found in a container: that of its definition, or without one that of
its singleton if this is an object. -/
inductive World.Typed (w : World C S) (c : ContainerId) (n : String) : BeanType → Prop where
  | declared (d : Definition C) (current : (w.container c).definition? n = some d) : Typed w c n d.type
  | object (b : BeanId) (t : BeanType) (code : C) (undefined : (w.container c).definition? n = none)
      (registered : (w.container c).singleton? n = some b) (object : w.bean? b = some (.object t code)) :
      Typed w c n t

/-- The name suits a dependency: it is not the one that asks, and it has an assignable type. -/
structure World.Suits (w : World C S) (c : ContainerId) (d : Dependency) (requesting : Option String)
    (n : String) : Prop where
  other : requesting ≠ some n
  typed : ∃ t, w.Typed c n t ∧ t.isAssignableTo d.type = true

namespace Container

/-- The definition of a name is a primary one. -/
def Primary (k : Container C) (n : String) : Prop := ∃ d, k.definition? n = some d ∧ d.primary = true

/-- The name to choose among those that fit: the only one, or of several the only one with a primary
definition. -/
inductive Choice (k : Container C) (fits : List String) (n : String) : Prop where
  | only (single : fits = [n])
  | primary (several : 1 < fits.length) (mem : n ∈ fits) (primary : k.Primary n)
      (unique : ∀ m ∈ fits, k.Primary m → m = n)

theorem Choice.mem {k : Container C} {fits : List String} {n : String} (h : k.Choice fits n) :
    n ∈ fits := by
  cases h with
  | only single => simp [single]
  | primary _ mem => exact mem

theorem isPrimary_iff (k : Container C) (n : String) : k.isPrimary n = true ↔ k.Primary n := by
  cases h : k.definition? n <;> simp [isPrimary, Primary, h]

private theorem filter_eq_singleton_iff {l : List String} (distinct : l.Nodup) (p : String → Bool)
    (n : String) : l.filter p = [n] ↔ n ∈ l ∧ p n = true ∧ ∀ m ∈ l, p m = true → m = n := by
  have mem (m : String) : m ∈ l.filter p ↔ m ∈ l ∧ p m = true := List.mem_filter
  constructor
  · intro h
    rw [h] at mem
    obtain ⟨hn, hp⟩ := (mem n).mp List.mem_cons_self
    exact ⟨hn, hp, fun m hm hpm => List.mem_singleton.mp ((mem m).mpr ⟨hm, hpm⟩)⟩
  · rintro ⟨hn, hp, unique⟩
    have same : (l.filter p).Perm [n] := by
      refine (List.perm_ext_iff_of_nodup (distinct.filter p) (List.nodup_singleton n)).mpr fun m => ?_
      rw [mem, List.mem_singleton]
      exact ⟨fun h => unique m h.1 h.2, fun e => e ▸ ⟨hn, hp⟩⟩
    exact List.perm_singleton.mp same

section Select

variable {plainType : BeanId → Option BeanType} {k : Container C} {d : Dependency}
  {requesting : Option String}

theorem select_of_none (h : k.candidates plainType d.type requesting = []) :
    k.select plainType d requesting = .error (.noSuchBean d.type.name d.parameter) := by
  simp only [select, h]

private theorem select_several (several : 1 < (k.candidates plainType d.type requesting).length) :
    k.select plainType d requesting =
      match (k.candidates plainType d.type requesting).filter k.isPrimary with
      | [n] => .ok n
      | _ => .error (.noUniqueBean d.type.name (k.candidates plainType d.type requesting)) := by
  unfold select
  split
  · rename_i none
    simp [none] at several
  · rename_i only
    simp [only] at several
  · rfl

theorem select_of_choice {n : String} (distinct : (k.candidates plainType d.type requesting).Nodup)
    (h : k.Choice (k.candidates plainType d.type requesting) n) :
    k.select plainType d requesting = .ok n := by
  cases h with
  | only single => simp only [select, single]
  | primary several mem primary unique =>
    have chosen : (k.candidates plainType d.type requesting).filter k.isPrimary = [n] :=
      (filter_eq_singleton_iff distinct _ n).mpr
        ⟨mem, (isPrimary_iff k n).mpr primary, fun m hm hp => unique m hm ((isPrimary_iff k m).mp hp)⟩
    rw [select_several several, chosen]

theorem select_of_no_choice (distinct : (k.candidates plainType d.type requesting).Nodup)
    (some : k.candidates plainType d.type requesting ≠ [])
    (none : ∀ n, ¬k.Choice (k.candidates plainType d.type requesting) n) :
    k.select plainType d requesting =
      .error (.noUniqueBean d.type.name (k.candidates plainType d.type requesting)) := by
  have several : 1 < (k.candidates plainType d.type requesting).length := by
    have positive := List.length_pos_iff.mpr some
    refine Nat.lt_of_le_of_ne positive fun one => ?_
    obtain ⟨n, single⟩ := List.length_eq_one_iff.mp one.symm
    exact none n (.only single)
  rw [select_several several]
  split
  · rename_i n chosen
    obtain ⟨mem, primary, unique⟩ := (filter_eq_singleton_iff distinct _ n).mp chosen
    exact absurd (.primary several mem ((isPrimary_iff k n).mp primary) fun m hm hp =>
      unique m hm ((isPrimary_iff k m).mpr hp)) (none n)
  · rfl

end Select

end Container

theorem World.plainType_iff (w : World C S) (b : BeanId) (t : BeanType) :
    w.plainType b = some t ↔ ∃ code, w.bean? b = some (.object t code) := by
  unfold plainType
  cases hb : w.bean? b with
  | none => simp
  | some v => cases v <;> simp

theorem World.typed_iff (w : World C S) (c : ContainerId) (n : String) (t : BeanType) :
    (w.container c).registeredType w.plainType n = some t ↔ w.Typed c n t := by
  unfold Container.registeredType
  cases hd : (w.container c).definition? n with
  | some d =>
    constructor
    · rintro ⟨⟩
      exact .declared d hd
    · intro h
      cases h with
      | declared d' current =>
        rw [hd] at current
        cases current
        rfl
      | object b _ code undefined => simp [hd] at undefined
  | none =>
    constructor
    · intro h
      obtain ⟨b, hb, ht⟩ := Option.bind_eq_some_iff.mp h
      obtain ⟨code, object⟩ := (w.plainType_iff b t).mp ht
      exact .object b t code hd hb object
    · intro h
      cases h with
      | declared d current => simp [hd] at current
      | object b _ code _ registered object =>
        exact Option.bind_eq_some_iff.mpr ⟨b, registered, (w.plainType_iff b t).mpr ⟨code, object⟩⟩

theorem World.mem_candidates (w : World C S) (c : ContainerId) (d : Dependency)
    (requesting : Option String) (n : String) :
    n ∈ (w.container c).candidates w.plainType d.type requesting ↔
      n ∈ (w.container c).names ∧ w.Suits c d requesting n := by
  have typed : (w.container c).isCandidate w.plainType d.type n = true ↔
      ∃ t, w.Typed c n t ∧ t.isAssignableTo d.type = true := by
    rw [Container.isCandidate, Option.any_eq_true]
    simp only [w.typed_iff]
  have other : (some n != requesting) = true ↔ requesting ≠ some n := by
    rw [bne_iff_ne]
    exact ne_comm
  rw [Container.candidates, List.mem_filter, List.mem_filter, typed, other, and_assoc]
  exact and_congr_right fun _ => ⟨fun h => ⟨h.1, h.2⟩, fun h => ⟨h.other, h.typed⟩⟩

namespace Lookup

/-- A look-up of a known name fails because the name is in creation or its factory's bean does not fit, or as
the factory does. -/
theorem error_of_known {user : UserCode C S} {c : ContainerId} {n : String} {w w' : World C S} {e : Error}
    (known : (w.container c).hasBean n = true) (h : getBean user c n w = some (.error e, w')) :
    e = .currentlyInCreation n ∨ (∃ text, e = .beanCreation n text) ∨
      ∃ d w₁, (w.container c).definition? n = some d ∧
        user d.factory (.make c) (w.mark n) = some (.error e, w₁) := by
  obtain ⟨o, ho⟩ : ∃ o : Outcome BeanId, o = .error e := ⟨_, rfl⟩
  rw [← ho] at h
  cases getBean_cases h with
  | registered | adopted => cases ho
  | unknown free undefined =>
    simp [Container.hasBean, Container.hasDefinition, Container.hasSingleton, free, undefined] at known
  | marked =>
    cases ho
    exact .inl rfl
  | ran d made w₁ _ _ name begins run finished =>
    subst name ho
    cases made with
    | error e' =>
      cases finished
      exact .inr (.inr ⟨d, w₁, begins.current, run⟩)
    | panic text => cases finished
    | ok b =>
      simp only [finish] at finished
      split at finished
      · cases finished
      · split at finished
        · cases finished
        · cases finished
          exact .inr (.inl ⟨_, rfl⟩)

end Lookup

/-- In every reachable world, the names that suit a dependency, each once and in the order of their first
registration, decide alone what a look-up for it comes to. With none it fails, and only then by itself as
one that finds nothing; with one to choose it is the look-up of that name, which is known; else it fails with
the names. No failing look-up runs user code or changes anything. -/
theorem resolve_exact (w : World C S) (reachable : Reachable w) (c : ContainerId) (d : Dependency)
    (requesting : Option String) :
    ∃ fits : List String, fits.Sublist (w.container c).names ∧ fits.Nodup ∧
      (∀ n, n ∈ fits ↔ (w.container c).hasBean n = true ∧ w.Suits c d requesting n) ∧
      ((∀ user : UserCode C S, Lookup.resolve user c d requesting w =
        some (.error (.noSuchBean d.type.name d.parameter), w)) ↔ fits = []) ∧
      (∀ n, (w.container c).Choice fits n → ∀ user : UserCode C S,
        Lookup.resolve user c d requesting w = Lookup.getBean user c n w ∧
        ∀ w', Lookup.getBean user c n w = some (.error (.noSuchBeanDefinition n), w') →
          ∃ d w₁, (w.container c).definition? n = some d ∧
            user d.factory (.make c) (w.mark n) = some (.error (.noSuchBeanDefinition n), w₁)) ∧
      (fits ≠ [] → (∀ n, ¬(w.container c).Choice fits n) → ∀ user : UserCode C S,
        Lookup.resolve user c d requesting w = some (.error (.noUniqueBean d.type.name fits), w)) := by
  have named := reachable.named c
  have sublist : ((w.container c).candidates w.plainType d.type requesting).Sublist
      (w.container c).names := List.filter_sublist.trans List.filter_sublist
  have distinct := named.distinct.sublist sublist
  have mem (n : String) : n ∈ (w.container c).candidates w.plainType d.type requesting ↔
      (w.container c).hasBean n = true ∧ w.Suits c d requesting n := by
    rw [w.mem_candidates, named.known]
  have known (n : String) (choice : (w.container c).Choice _ n) : (w.container c).hasBean n = true :=
    ((mem n).mp choice.mem).1
  refine ⟨_, sublist, distinct, mem, ⟨fun refused => ?_, fun none user => ?_⟩, ?_, ?_⟩
  · by_contra some
    -- With user code that does nothing but panic no other failure of this kind can come about.
    let panicking : UserCode C S := fun _ _ => Run.panic ""
    by_cases choice : ∃ n, (w.container c).Choice ((w.container c).candidates w.plainType d.type requesting) n
    · obtain ⟨n, choice⟩ := choice
      have selected := Container.select_of_choice distinct choice
      have answered := (Lookup.resolve_of_select panicking selected).symm.trans (refused panicking)
      rcases Lookup.error_of_known (known n choice) answered with e | ⟨_, e⟩ | ⟨_, _, _, ran⟩
      · cases e
      · cases e
      · cases ran
    · have ambiguous := Container.select_of_no_choice distinct some (not_exists.mp choice)
      have answered := (Lookup.resolve_of_select_error panicking ambiguous).symm.trans (refused panicking)
      cases answered
  · exact Lookup.resolve_of_select_error user (Container.select_of_none none)
  · intro n choice user
    refine ⟨Lookup.resolve_of_select user (Container.select_of_choice distinct choice), fun w' h => ?_⟩
    rcases Lookup.error_of_known (known n choice) h with e | ⟨_, e⟩ | ran
    · cases e
    · cases e
    · exact ran
  · intro some none user
    exact Lookup.resolve_of_select_error user (Container.select_of_no_choice distinct some none)

/-- Two definitions of one type, the second a primary one. -/
def rivals (type : BeanType) (c : ContainerId) (first second : String) : World Unit Unit :=
  ((World.initial ()).define c { name := first, type, factory := () }).define c
    { name := second, type, primary := true, factory := () }

/-- The program that makes them. -/
def defineRivals (type : BeanType) (c : ContainerId) (first second : String) : Program Unit Unit Unit := do
  .request (.define c { name := first, type, factory := () })
  .request (.define c { name := second, type, primary := true, factory := () })

theorem resolve_exact_rivals : ∃ fits : List String, fits.Perm ["a", "b"] ∧
    ∀ user, Lookup.resolve user ⟨0⟩ ⟨.interface "T", none⟩ none (rivals (.interface "T") ⟨0⟩ "a" "b") =
      Lookup.getBean user ⟨0⟩ "b" (rivals (.interface "T") ⟨0⟩ "a" "b") := by
  let w := rivals (.interface "T") ⟨0⟩ "a" "b"
  have reachable : Reachable w :=
    ⟨selfRegistering "a", 1, Unit, defineRivals (.interface "T") ⟨0⟩ "a" "b", (), .ok (), _, _, rfl,
      List.mem_append_right _ (List.mem_singleton_self _)⟩
  obtain ⟨fits, sublist, distinct, mem, _, chosen, _⟩ :=
    resolve_exact w reachable ⟨0⟩ ⟨.interface "T", none⟩ none
  have a : "a" ∈ fits := (mem "a").mpr ⟨rfl, nofun, _, .declared _ rfl, rfl⟩
  have b : "b" ∈ fits := (mem "b").mpr ⟨rfl, nofun, _, .declared _ rfl, rfl⟩
  have both (n : String) : n ∈ fits ↔ n ∈ ["a", "b"] :=
    ⟨fun hn => sublist.subset hn, fun hn => by rcases List.mem_pair.mp hn with rfl | rfl <;> assumption⟩
  have same : fits.Perm ["a", "b"] := (List.perm_ext_iff_of_nodup distinct (by decide)).mpr both
  have unique (m : String) (hm : m ∈ fits) (primary : (w.container ⟨0⟩).Primary m) : m = "b" := by
    rcases List.mem_pair.mp ((both m).mp hm) with rfl | rfl
    · obtain ⟨d, current, primary⟩ := primary
      cases current
      cases primary
    · rfl
  have choice : (w.container ⟨0⟩).Choice fits "b" :=
    .primary (by rw [same.length_eq]; decide) b ⟨_, rfl, rfl⟩ unique
  exact ⟨fits, same, fun user => (chosen "b" choice user).1⟩

end Wiring
