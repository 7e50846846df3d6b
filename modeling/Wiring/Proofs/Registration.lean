import Wiring.Proofs.Selection

namespace Wiring

variable {C S : Type}

theorem Container.of_unknown {k : Container C} {n : String} (unknown : k.hasBean n = false) :
    k.definition? n = none ∧ k.singleton? n = none := by
  simpa [hasBean, hasDefinition, hasSingleton] using unknown

/-- What can be registered by itself: a definition, or a bean that is there already. -/
inductive Registration (C : Type) where
  | definition (r : Recipe C)
  | singleton (name : String) (bean : BeanId)

namespace Registration

def name : Registration C → String
  | definition r => r.name
  | singleton n _ => n

/-- The type under which the name is found, if nothing else is registered under it. -/
def type? (plainType : BeanId → Option BeanType) : Registration C → Option BeanType
  | definition r => some r.type
  | singleton _ b => plainType b

def primary : Registration C → Bool
  | definition r => r.primary
  | singleton _ _ => false

/-- A bean that is registered exists. -/
def Present (w : World C S) : Registration C → Prop
  | definition _ => True
  | singleton _ b => (w.bean? b).isSome

/-- The container has just this under the name. -/
inductive Found (k : Container C) : Registration C → Prop where
  | definition (r : Recipe C) (d : Definition C) (current : k.definition? r.name = some d)
      (recipe : d.toRecipe = r) (free : k.singleton? r.name = none) : Found k (.definition r)
  | singleton (n : String) (b : BeanId) (undefined : k.definition? n = none)
      (registered : k.singleton? n = some b) : Found k (.singleton n b)

/-- No bean of the target type can come of it: its type is not assignable, or the bean is an early
reference. -/
inductive Foreign (w : World C S) (target : BeanType) : Registration C → Prop where
  | definition (r : Recipe C) (apart : r.type.isAssignableTo target = false) :
      Foreign w target (.definition r)
  | object (n : String) (b : BeanId) (t : BeanType) (code : C)
      (object : w.bean? b = some (.object t code)) (apart : t.isAssignableTo target = false) :
      Foreign w target (.singleton n b)
  | early (n : String) (b : BeanId) (e : EarlyReference C) (early : w.bean? b = some (.early e)) :
      Foreign w target (.singleton n b)

def program (c : ContainerId) : Registration C → Program C S Unit
  | definition r => .request (.define c r)
  | singleton n b => .request (.registerSingleton c n b)

/-- The container after the registration. -/
def add (k : Container C) : Registration C → Container C
  | definition r => k.define r
  | singleton n b => (k.bind n b).remember n

/-- The world after the registration. -/
def enter (c : ContainerId) (w : World C S) : Registration C → World C S
  | definition r => w.define c r
  | singleton n b => (w.bind c n b).remember c n

theorem Foreign.present {w : World C S} {target : BeanType} {r : Registration C}
    (h : r.Foreign w target) : r.Present w := by
  cases h with
  | definition => exact .intro
  | object _ _ _ _ object => simp [Present, object]
  | early _ _ _ early => simp [Present, early]

theorem Foreign.apart {w : World C S} {target t : BeanType} {r : Registration C}
    (h : r.Foreign w target) (ht : r.type? w.plainType = some t) : t.isAssignableTo target = false := by
  cases h with
  | definition r apart =>
    cases ht
    exact apart
  | object n b t' code object apart =>
    have type : w.plainType b = some t' := (w.plainType_iff b t').mpr ⟨code, object⟩
    cases type.symm.trans ht
    exact apart
  | early n b e early =>
    obtain ⟨code, object⟩ := (w.plainType_iff b t).mp ht
    cases early.symm.trans object

section Add

variable (k : Container C) (r : Registration C)

theorem learns : k.Learns r.name (add k r) := by
  cases r with
  | definition r => exact .define k r
  | singleton n b => exact .register k n b

theorem definition?_add (m : String) (other : m ≠ r.name) :
    (add k r).definition? m = k.definition? m := by
  cases r with
  | definition r => exact (k.definition?_define r m).trans (if_neg (Ne.symm other))
  | singleton n b => simp [add, Container.definition?]

theorem singleton?_add (m : String) (other : m ≠ r.name) :
    (add k r).singleton? m = k.singleton? m := by
  cases r with
  | definition r => exact k.singleton?_define r m
  | singleton n b =>
    have apart : m ≠ n := other
    simp [add, apart]

theorem registeredType_add (plainType : BeanId → Option BeanType) (m : String) (other : m ≠ r.name) :
    (add k r).registeredType plainType m = k.registeredType plainType m := by
  simp only [Container.registeredType, definition?_add k r m other, singleton?_add k r m other]

theorem isPrimary_add (m : String) (other : m ≠ r.name) :
    (add k r).isPrimary m = k.isPrimary m := by
  simp only [Container.isPrimary, definition?_add k r m other]

/-- The name is found under the new type, or under that of a definition from before, behind which a
singleton stands. -/
theorem registeredType_add_self (plainType : BeanId → Option BeanType) :
    (add k r).registeredType plainType r.name = r.type? plainType ∨
      (add k r).registeredType plainType r.name = k.registeredType plainType r.name := by
  cases r with
  | definition r =>
    left
    simp [add, name, type?, Container.registeredType, Container.definition?_define, Recipe.definition]
  | singleton n b =>
    have definition : (add k (.singleton n b)).definition? n = k.definition? n := by
      simp [add, Container.definition?]
    have singleton : (add k (.singleton n b)).singleton? n = some b := by simp [add]
    cases hd : k.definition? n with
    | some d =>
      right
      simp only [name, Container.registeredType, definition, hd]
    | none =>
      left
      simp only [name, type?, Container.registeredType, definition, hd, singleton, Option.bind_some]

theorem found_add (free : k.hasBean r.name = false) : Found (add k r) r := by
  obtain ⟨undefined, vacant⟩ := Container.of_unknown free
  cases r with
  | definition r =>
    refine .definition r (r.definition k.definitions.length) ?_ rfl ?_
    · exact (k.definition?_define r r.name).trans (if_pos rfl)
    · exact (k.singleton?_define r r.name).trans vacant
  | singleton n b =>
    have same : (add k (.singleton n b)).definition? n = k.definition? n := by
      simp [add, Container.definition?]
    exact .singleton n b (same.trans undefined) (by simp [add])

end Add

namespace Found

variable {k : Container C} {r : Registration C}

/-- What is registered under another name changes nothing. -/
theorem add_other {x : Registration C} (h : Found k x) (other : x.name ≠ r.name) : Found (add k r) x := by
  cases h with
  | definition x d current recipe free =>
    exact .definition x d ((definition?_add k r _ other).trans current) recipe
      ((singleton?_add k r _ other).trans free)
  | singleton n b undefined registered =>
    exact .singleton n b ((definition?_add k r _ other).trans undefined)
      ((singleton?_add k r _ other).trans registered)

theorem registeredType (h : Found k r) (plainType : BeanId → Option BeanType) :
    k.registeredType plainType r.name = r.type? plainType := by
  cases h with
  | definition r d current recipe =>
    simp only [Container.registeredType, name, type?, current]
    exact congrArg (fun r : Recipe C => some r.type) recipe
  | singleton n b undefined registered =>
    simp only [Container.registeredType, name, type?, undefined, registered, Option.bind_some]

theorem isPrimary (h : Found k r) : k.isPrimary r.name = r.primary := by
  cases h with
  | definition r d current recipe =>
    simp only [Container.isPrimary, name, primary, current, Option.any_some]
    exact congrArg Recipe.primary recipe
  | singleton n b undefined => simp only [Container.isPrimary, name, primary, undefined, Option.any_none]

end Found

/-- A registration that can bring no bean of the target type under a name that has none makes no name a
candidate, and takes from none that it is one. -/
theorem isCandidate_add {plainType : BeanId → Option BeanType} {target : BeanType} {k : Container C}
    {r : Registration C} (apart : ∀ t, r.type? plainType = some t → t.isAssignableTo target = false)
    (none : k.isCandidate plainType target r.name = false) (m : String) :
    (add k r).isCandidate plainType target m = k.isCandidate plainType target m := by
  by_cases other : m = r.name
  · subst other
    rcases registeredType_add_self k r plainType with new | old
    · rw [none, Container.isCandidate, new]
      cases ht : r.type? plainType with
      | none => rfl
      | some t => exact apart t ht
    · simp only [Container.isCandidate, old]
  · simp only [Container.isCandidate, registeredType_add k r plainType m other]

end Registration

namespace Container

/-- An unknown name has no type. -/
theorem isCandidate_of_unknown {k : Container C} {n : String} (unknown : k.hasBean n = false)
    (plainType : BeanId → Option BeanType) (target : BeanType) :
    k.isCandidate plainType target n = false := by
  obtain ⟨undefined, free⟩ := of_unknown unknown
  simp [isCandidate, registeredType, undefined, free]

/-- The same is selected among the same candidates if the same of them are primary. -/
theorem select_congr {plainType : BeanId → Option BeanType} {k k' : Container C} {d : Dependency}
    {requesting : Option String}
    (same : k'.candidates plainType d.type requesting = k.candidates plainType d.type requesting)
    (primary : ∀ n ∈ k.candidates plainType d.type requesting, k'.isPrimary n = k.isPrimary n) :
    k'.select plainType d requesting = k.select plainType d requesting := by
  unfold select
  rw [same]
  generalize k.candidates plainType d.type requesting = fits at primary
  match fits with
  | [] | [_] => rfl
  | m :: m' :: rest => simp only [List.filter_congr primary]

theorem select_add {plainType : BeanId → Option BeanType} {d : Dependency} {k : Container C}
    {r : Registration C} (requesting : Option String)
    (apart : ∀ t, r.type? plainType = some t → t.isAssignableTo d.type = false)
    (none : k.isCandidate plainType d.type r.name = false) :
    (Registration.add k r).select plainType d requesting = k.select plainType d requesting := by
  have fits : (Registration.add k r).isCandidate plainType d.type = k.isCandidate plainType d.type :=
    funext (Registration.isCandidate_add apart none)
  refine select_congr ?_ fun n hn => Registration.isPrimary_add k r n ?_
  · rw [candidates, candidates, (Registration.learns k r).names, fits]
    by_cases known : r.name ∈ k.names
    · rw [if_pos known]
    · rw [if_neg known, List.filter_append, List.filter_append]
      have added : ([r.name].filter (some · != requesting)).filter (k.isCandidate plainType d.type) =
          [] := by
        rw [List.filter_comm]
        simp [none]
      rw [added, List.append_nil]
  · rintro rfl
    have candidate : k.isCandidate plainType d.type r.name = true := (List.mem_filter.mp hn).2
    simp [none] at candidate

/-- The names of the container are those of these registrations, in their order, and it has just these. -/
structure Lists (k : Container C) (l : List (Registration C)) : Prop where
  names : k.names = l.map (·.name)
  known : ∀ n, k.hasBean n = true → n ∈ k.names
  found : ∀ r ∈ l, r.Found k

theorem Lists.empty : ({} : Container C).Lists [] where
  names := rfl
  known _ h := nomatch h
  found _ h := nomatch h

theorem Lists.add {k : Container C} {l : List (Registration C)} {r : Registration C} (h : k.Lists l)
    (new : r.name ∉ l.map (·.name)) : (Registration.add k r).Lists (l ++ [r]) := by
  have learns := Registration.learns k r
  have unlisted : r.name ∉ k.names := h.names ▸ new
  have names : (Registration.add k r).names = k.names ++ [r.name] := by
    rw [learns.names, if_neg unlisted]
  have unknown : k.hasBean r.name = false :=
    Bool.eq_false_iff.mpr fun known => unlisted (h.known _ known)
  refine ⟨?_, fun n hn => ?_, fun x hx => ?_⟩
  · rw [names, h.names, List.map_append, List.map_singleton]
  · rw [names, List.mem_append, List.mem_singleton]
    exact ((learns.known n).mp hn).elim .inr fun old => .inl (h.known n old)
  · rcases List.mem_append.mp hx with old | last
    · exact (h.found x old).add_other fun e => new (e ▸ List.mem_map_of_mem old)
    · rw [List.mem_singleton.mp last]
      exact Registration.found_add k r unknown

/-- What is chosen depends neither on the order of the names nor on more than which are primary. -/
theorem Choice.perm {k k' : Container C} {fits fits' : List String} (same : fits.Perm fits')
    (primary : ∀ n ∈ fits, k.Primary n ↔ k'.Primary n) {n : String} (h : k.Choice fits n) :
    k'.Choice fits' n := by
  cases h with
  | only single =>
    subst single
    exact .only (List.singleton_perm.mp same).symm
  | primary several mem hn unique =>
    refine .primary (same.length_eq ▸ several) (same.subset mem) ((primary n mem).mp hn) fun m hm hp => ?_
    have old : m ∈ fits := same.symm.subset hm
    exact unique m old ((primary m old).mpr hp)

end Container

/-- The same name is selected, or the look-up fails in the same way but for the order of the names that
it tells. -/
inductive SameSelection (d : Dependency) : Except Error String → Except Error String → Prop where
  | selected (n : String) : SameSelection d (.ok n) (.ok n)
  | none : SameSelection d (.error (.noSuchBean d.type.name d.parameter))
      (.error (.noSuchBean d.type.name d.parameter))
  | several (fits fits' : List String) (same : fits.Perm fits') :
      SameSelection d (.error (.noUniqueBean d.type.name fits)) (.error (.noUniqueBean d.type.name fits'))

namespace Container

variable {plainType : BeanId → Option BeanType} {d : Dependency} {requesting : Option String}

theorem select_perm {k k' : Container C}
    (distinct : (k.candidates plainType d.type requesting).Nodup)
    (same : (k.candidates plainType d.type requesting).Perm (k'.candidates plainType d.type requesting))
    (primary : ∀ n ∈ k.candidates plainType d.type requesting, k.Primary n ↔ k'.Primary n) :
    SameSelection d (k.select plainType d requesting) (k'.select plainType d requesting) := by
  have distinct' := same.nodup_iff.mp distinct
  have primary' (n : String) (hn : n ∈ k'.candidates plainType d.type requesting) :
      k'.Primary n ↔ k.Primary n := (primary n (same.symm.subset hn)).symm
  by_cases none : k.candidates plainType d.type requesting = []
  · have none' : k'.candidates plainType d.type requesting = [] := List.nil_perm.mp (none ▸ same)
    rw [select_of_none none, select_of_none none']
    exact .none
  · by_cases choice : ∃ n, k.Choice (k.candidates plainType d.type requesting) n
    · obtain ⟨n, choice⟩ := choice
      rw [select_of_choice distinct choice, select_of_choice distinct' (choice.perm same primary)]
      exact .selected n
    · have none' : k'.candidates plainType d.type requesting ≠ [] := fun e =>
        none (List.perm_nil.mp (e ▸ same))
      have ambiguous := not_exists.mp choice
      have ambiguous' (n : String) : ¬k'.Choice (k'.candidates plainType d.type requesting) n :=
        fun choice' => ambiguous n (choice'.perm same.symm primary')
      rw [select_of_no_choice distinct none ambiguous, select_of_no_choice distinct' none' ambiguous']
      exact .several _ _ same

/-- Of two containers that list the same in different orders, the same is selected. -/
theorem Lists.select {k k' : Container C} {l l' : List (Registration C)} (h : k.Lists l)
    (h' : k'.Lists l') (same : l.Perm l') (distinct : (l.map (·.name)).Nodup) :
    SameSelection d (k.select plainType d requesting) (k'.select plainType d requesting) := by
  have alike (n : String) (hn : n ∈ k.names) :
      k.isCandidate plainType d.type n = k'.isCandidate plainType d.type n ∧
        k.isPrimary n = k'.isPrimary n := by
    rw [h.names] at hn
    obtain ⟨r, hr, rfl⟩ := List.mem_map.mp hn
    have found := h.found r hr
    have found' := h'.found r (same.subset hr)
    rw [isCandidate, isCandidate, found.registeredType, found'.registeredType, found.isPrimary,
      found'.isPrimary]
    exact ⟨rfl, rfl⟩
  have names : k.names.Perm k'.names := by
    rw [h.names, h'.names]
    exact same.map _
  have fits : (k.candidates plainType d.type requesting).Perm
      (k'.candidates plainType d.type requesting) := by
    have agree (n : String) (hn : n ∈ k.names.filter (some · != requesting)) :
        k.isCandidate plainType d.type n = k'.isCandidate plainType d.type n :=
      (alike n (List.mem_filter.mp hn).1).1
    rw [candidates, candidates, List.filter_congr agree]
    exact (names.filter _).filter _
  have sublist : (k.candidates plainType d.type requesting).Sublist k.names :=
    List.filter_sublist.trans List.filter_sublist
  refine select_perm ((h.names ▸ distinct).sublist sublist) fits fun n hn => ?_
  rw [← isPrimary_iff, ← isPrimary_iff, (alike n (sublist.subset hn)).2]

end Container

/-- What a look-up by type selects: a name to look up, or the failure that it ends with. -/
def World.selected (w : World C S) (c : ContainerId) (d : Dependency) (requesting : Option String) :
    Except Error String :=
  (w.container c).select w.plainType d requesting

/-- Registers all of this, one after the other, up to the first failure. -/
def registerAll (c : ContainerId) : List (Registration C) → Program C S Unit
  | [] => pure ()
  | r :: rest => do
    r.program c
    registerAll c rest

/-- The world after all of this was registered. -/
def World.enterAll (c : ContainerId) (w : World C S) (l : List (Registration C)) : World C S :=
  l.foldl (Registration.enter c) w

namespace Registration

variable (c : ContainerId) (w : World C S)

theorem container_enter (r : Registration C) :
    (r.enter c w).container c = add (w.container c) r := by
  cases r with
  | definition r => simp only [enter, add, World.container_define, if_true]
  | singleton n b => simp only [enter, add, World.container_remember, World.container_bind, if_true]

theorem beans_enter (r : Registration C) : (r.enter c w).beans = w.beans := by
  cases r with
  | definition r => exact World.beans_define w c r
  | singleton n b => rfl

theorem plainType_enter (r : Registration C) : (r.enter c w).plainType = w.plainType := by
  funext b
  simp only [World.plainType, World.bean?, beans_enter]

theorem singleton?_enter (r : Registration C) (m : String) (other : m ≠ r.name) :
    ((r.enter c w).container c).singleton? m = (w.container c).singleton? m := by
  rw [container_enter, singleton?_add _ r m other]

theorem present_enter (r x : Registration C) : x.Present (r.enter c w) ↔ x.Present w := by
  cases x with
  | definition x => exact .rfl
  | singleton n b => simp only [Present, World.bean?, beans_enter]

variable (lang : Language C S) (depth : Nat) {w}

/-- One registration is entered, or changes nothing. -/
theorem run_cases (r : Registration C) :
    (r.program c).interpret (answer lang (depth + 1)) w = some (.ok (), r.enter c w) ∨
      ∃ fault : Fault,
        (r.program c).interpret (answer lang (depth + 1)) w = some (fault.outcome, w) := by
  cases r with
  | definition r => exact .inl rfl
  | singleton n b =>
    have asked {o : Outcome Unit} {w' : World C S}
        (ran : Lookup.registerSingleton c n b w = some (o, w')) :
        (program c (.singleton n b)).interpret (answer lang (depth + 1)) w = some (o, w') :=
      Run.followedBy_some _ _ _ _ _ ran
    cases hb : w.bean? b with
    | none => exact .inr ⟨.panic _, asked (Run.bind_panic _ _ _ _ _ (Run.bean_none b w hb))⟩
    | some v =>
      have present : (w.bean? b).isSome := by simp [hb]
      cases taken : (w.container c).singleton? n with
      | none => exact .inl (asked (Lookup.registerSingleton_free c n b w taken present))
      | some x =>
        exact .inr ⟨.error _, asked (Lookup.registerSingleton_refused c n x b w taken present)⟩

/-- What is there can be registered under a name without a singleton. -/
theorem run_free (r : Registration C) (present : r.Present w)
    (free : (w.container c).singleton? r.name = none) :
    (r.program c).interpret (answer lang (depth + 1)) w = some (.ok (), r.enter c w) := by
  cases r with
  | definition r => rfl
  | singleton n b =>
    have ran : Lookup.registerSingleton c n b w = some (.ok (), (w.bind c n b).remember c n) :=
      Lookup.registerSingleton_free c n b w free present
    exact Run.followedBy_some _ _ _ _ _ ran

end Registration

section RegisterAll

variable (lang : Language C S) (depth : Nat) (c : ContainerId)

/-- All of it is registered if the names differ and are free. -/
theorem registerAll_run {l : List (Registration C)} {w : World C S}
    (distinct : (l.map (·.name)).Nodup) (present : ∀ r ∈ l, r.Present w)
    (free : ∀ r ∈ l, (w.container c).singleton? r.name = none) :
    (registerAll c l).interpret (answer lang (depth + 1)) w = some (.ok (), w.enterAll c l) := by
  induction l generalizing w with
  | nil => rfl
  | cons r l ih =>
    rw [List.map_cons, List.nodup_cons] at distinct
    obtain ⟨fresh, distinct⟩ := distinct
    have first := r.run_free c lang depth (present r List.mem_cons_self) (free r List.mem_cons_self)
    rw [registerAll, Program.interpret_bind, Run.bind_ok _ _ _ _ () first]
    refine ih distinct (fun x hx => ?_) fun x hx => ?_
    · exact (r.present_enter c w x).mpr (present x (List.mem_cons_of_mem r hx))
    · have other : x.name ≠ r.name := fun e => fresh (e ▸ List.mem_map_of_mem hx)
      rw [r.singleton?_enter c w _ other]
      exact free x (List.mem_cons_of_mem r hx)

/-- Some first part of it is registered in any case. -/
theorem registerAll_cases (l : List (Registration C)) (w : World C S) :
    ∃ o entered, entered <+: l ∧
      (registerAll c l).interpret (answer lang (depth + 1)) w = some (o, w.enterAll c entered) := by
  induction l generalizing w with
  | nil => exact ⟨.ok (), [], List.prefix_rfl, rfl⟩
  | cons r l ih =>
    rw [registerAll, Program.interpret_bind]
    rcases r.run_cases c lang depth (w := w) with first | ⟨fault, first⟩
    · obtain ⟨o, entered, part, rest⟩ := ih (r.enter c w)
      rw [Run.bind_ok _ _ _ _ () first]
      exact ⟨o, r :: entered, List.cons_prefix_cons.mpr ⟨rfl, part⟩, rest⟩
    · exact ⟨_, [], List.nil_prefix, Run.bind_fault _ _ _ _ fault first⟩

variable {c}

theorem World.plainType_enterAll (l : List (Registration C)) (w : World C S) :
    (w.enterAll c l).plainType = w.plainType := by
  induction l generalizing w with
  | nil => rfl
  | cons r l ih => exact (ih (r.enter c w)).trans (r.plainType_enter c w)

theorem World.lists_enterAll {l before : List (Registration C)} {w : World C S}
    (h : (w.container c).Lists before) (distinct : ((before ++ l).map (·.name)).Nodup) :
    ((w.enterAll c l).container c).Lists (before ++ l) := by
  induction l generalizing before w with
  | nil =>
    rw [List.append_nil]
    exact h
  | cons r l ih =>
    have split : before ++ r :: l = (before ++ [r]) ++ l := by simp
    have new : r.name ∉ before.map (·.name) := by
      rw [List.map_append, List.nodup_append] at distinct
      intro mem
      exact distinct.2.2 _ mem _ List.mem_cons_self rfl
    have next : ((r.enter c w).container c).Lists (before ++ [r]) := by
      rw [r.container_enter c w]
      exact h.add new
    rw [split] at distinct ⊢
    exact ih next distinct

theorem World.selected_enterAll {d : Dependency} {l : List (Registration C)} {w : World C S}
    (requesting : Option String)
    (apart : ∀ r ∈ l, ∀ t, r.type? w.plainType = some t → t.isAssignableTo d.type = false)
    (none : ∀ r ∈ l, (w.container c).isCandidate w.plainType d.type r.name = false) :
    (w.enterAll c l).selected c d requesting = w.selected c d requesting := by
  induction l generalizing w with
  | nil => rfl
  | cons r l ih =>
    have first := none r List.mem_cons_self
    have foreign := apart r List.mem_cons_self
    have plainType := r.plainType_enter c w
    have container := r.container_enter c w
    have same : (r.enter c w).selected c d requesting = w.selected c d requesting := by
      rw [selected, selected, plainType, container]
      exact Container.select_add requesting foreign first
    refine (ih (fun x hx => ?_) fun x hx => ?_).trans same
    · rw [plainType]
      exact apart x (List.mem_cons_of_mem r hx)
    · rw [plainType, container, Registration.isCandidate_add foreign first]
      exact none x (List.mem_cons_of_mem r hx)

end RegisterAll

/-- A look-up by type is the look-up of what it selects, or fails as it selects. Selection depends on what
was registered only: two orders of the same registrations with different names, made in a container that was
empty, have the same name selected, or fail alike up to the order of the names told. Registrations under
unknown names that cannot bring a bean of the type asked for, be it because of their types or since they are
early references, leave the selection as it is, the names told included. -/
theorem selection_stable (lang : Language C S) (depth : Nat) (c : ContainerId) (d : Dependency)
    (requesting : Option String) :
    (∀ (w : World C S) (user : UserCode C S),
      (∀ n, w.selected c d requesting = .ok n →
        Lookup.resolve user c d requesting w = Lookup.getBean user c n w) ∧
      ∀ e, w.selected c d requesting = .error e →
        Lookup.resolve user c d requesting w = some (.error e, w)) ∧
    (∀ (w : World C S) (l l' : List (Registration C)), w.container c = {} → l.Perm l' →
      (l.map (·.name)).Nodup → (∀ r ∈ l, r.Present w) → ∃ w₁ w₂,
        (registerAll c l).interpret (answer lang (depth + 1)) w = some (.ok (), w₁) ∧
        (registerAll c l').interpret (answer lang (depth + 1)) w = some (.ok (), w₂) ∧
        SameSelection d (w₁.selected c d requesting) (w₂.selected c d requesting)) ∧
    ∀ (w : World C S) (l : List (Registration C)),
      (∀ r ∈ l, (w.container c).hasBean r.name = false ∧ r.Foreign w d.type) → ∃ o w₁,
        (registerAll c l).interpret (answer lang (depth + 1)) w = some (o, w₁) ∧
        ((l.map (·.name)).Nodup → o = .ok ()) ∧
        w₁.selected c d requesting = w.selected c d requesting := by
  refine ⟨fun w user => ⟨fun n h => Lookup.resolve_of_select user h, fun e h =>
    Lookup.resolve_of_select_error user h⟩, fun w l l' fresh same distinct present => ?_,
    fun w l irrelevant => ?_⟩
  · have free (n : String) : (w.container c).singleton? n = none := by
      rw [fresh]
      rfl
    have start : (w.container c).Lists [] := fresh ▸ .empty
    have distinct' : (l'.map (·.name)).Nodup := (same.map _).nodup_iff.mp distinct
    have first := registerAll_run lang depth c distinct present fun r _ => free r.name
    have second := registerAll_run lang depth c distinct' (fun r hr => present r (same.symm.subset hr))
      fun r _ => free r.name
    refine ⟨_, _, first, second, ?_⟩
    rw [World.selected, World.selected, World.plainType_enterAll, World.plainType_enterAll]
    exact (World.lists_enterAll start distinct).select (World.lists_enterAll start distinct') same distinct
  · obtain ⟨o, entered, part, ran⟩ := registerAll_cases lang depth c l w
    refine ⟨o, _, ran, fun distinct => ?_, World.selected_enterAll requesting (fun r hr t ht => ?_)
      fun r hr => ?_⟩
    · have free (r : Registration C) (hr : r ∈ l) : (w.container c).singleton? r.name = none :=
        (Container.of_unknown (irrelevant r hr).1).2
      have all := registerAll_run lang depth c distinct (fun r hr => (irrelevant r hr).2.present) free
      exact (Prod.mk.inj (Option.some.inj (ran.symm.trans all))).1
    · exact (irrelevant r (part.subset hr)).2.apart ht
    · exact Container.isCandidate_of_unknown (irrelevant r (part.subset hr)).1 w.plainType d.type

/-- The registrations of two definitions of one type, the second a primary one. -/
def registerRivals (type : BeanType) : List (Registration Unit) :=
  [.definition { name := "a", type, factory := () },
    .definition { name := "b", type, primary := true, factory := () }]

/-- A world with nothing but an early reference to a bean of some type. -/
def danglingReference (type : BeanType) (c : ContainerId) : World Unit Unit :=
  ((World.initial ()).addBean (.early (.make ⟨.container c, ⟨0⟩⟩ (.dependency ⟨type, none⟩)))).2

theorem selection_stable_rivals : ∃ w₁ w₂ w₃ : World Unit Unit,
    (registerAll ⟨0⟩ (registerRivals (.interface "T")).reverse).interpret
      (answer (selfRegistering "a") 1) (danglingReference (.interface "T") ⟨0⟩) = some (.ok (), w₁) ∧
    (registerAll ⟨0⟩ (registerRivals (.interface "T"))).interpret
      (answer (selfRegistering "a") 1) (danglingReference (.interface "T") ⟨0⟩) = some (.ok (), w₂) ∧
    (registerAll ⟨0⟩ [.singleton "e" ⟨0⟩]).interpret (answer (selfRegistering "a") 1) w₁ =
      some (.ok (), w₃) ∧
    w₁.selected ⟨0⟩ ⟨.interface "T", none⟩ none = .ok "b" ∧
    w₂.selected ⟨0⟩ ⟨.interface "T", none⟩ none = .ok "b" ∧
    w₃.selected ⟨0⟩ ⟨.interface "T", none⟩ none = .ok "b" := by
  let T : BeanType := .interface "T"
  let w := (danglingReference T ⟨0⟩).enterAll ⟨0⟩ (registerRivals T).reverse
  obtain ⟨_, ordered, irrelevant⟩ := selection_stable (selfRegistering "a") 0 ⟨0⟩ ⟨T, none⟩ none
  obtain ⟨w₁, w₂, ran₁, ran₂, same⟩ := ordered (danglingReference T ⟨0⟩) (registerRivals T).reverse
    (registerRivals T) rfl (List.reverse_perm _) (by decide)
    (by simp [registerRivals, Registration.Present])
  obtain rfl : w = w₁ := (Prod.mk.inj (Option.some.inj ran₁)).2
  obtain ⟨o, w₃, ran₃, succeeds, kept⟩ := irrelevant w [.singleton "e" ⟨0⟩] fun r hr => by
    rw [List.mem_singleton.mp hr]
    exact ⟨rfl, .early "e" ⟨0⟩ (.make ⟨.container ⟨0⟩, ⟨0⟩⟩ (.dependency ⟨T, none⟩)) rfl⟩
  obtain rfl := succeeds (by decide)
  have first : w.selected ⟨0⟩ ⟨T, none⟩ none = .ok "b" := rfl
  have second : w₂.selected ⟨0⟩ ⟨T, none⟩ none = .ok "b" := by
    rw [first] at same
    generalize w₂.selected ⟨0⟩ ⟨T, none⟩ none = x at same
    cases same
    rfl
  exact ⟨w, w₂, w₃, ran₁, ran₂, ran₃, first, second, kept.trans first⟩

end Wiring
