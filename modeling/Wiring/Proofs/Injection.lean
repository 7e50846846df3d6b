import Wiring.Proofs.Hierarchy
import Wiring.Proofs.Orderly
import Wiring.Proofs.Targets

namespace Wiring

variable {C S α : Type}

namespace BeanType

/-- Types among which a name tells a type as far as assignability goes; with a type come its interfaces. -/
structure Consistent (U : BeanType → Prop) : Prop where
  interfaces : ∀ t, U t → ∀ i ∈ t.interfaces, U i
  names : ∀ a b, U a → U b → a.name = b.name →
    ∀ target, a.isAssignableTo target = b.isAssignableTo target

theorem Consistent.trans {U : BeanType → Prop} (h : Consistent U) {b target : BeanType} (hb : U b)
    (hbt : b.isAssignableTo target = true) (a : BeanType) (ha : U a)
    (hab : a.isAssignableTo b = true) : a.isAssignableTo target = true := by
  refine isAssignableTo_trans h.interfaces (fun t t' ht ht' name => ?_) ha hb hab hbt
  ext n
  rw [← isAssignableTo_interface_iff, ← isAssignableTo_interface_iff, h.names t t' ht ht' name]

end BeanType

namespace World

/-- The bean exists and is of the type. -/
def Fits (w : World C S) (b : BeanId) (type : BeanType) : Prop :=
  ∃ x, w.bean? b = some x ∧ x.type.isAssignableTo type = true

/-- The bean bears the name of a definition that has not made it, and is not of the type of the
definition. -/
def Misplaced (w : World C S) (c : ContainerId) (b : BeanId) : Prop :=
  ∃ d ∈ (w.container c).definitions, (w.container c).singleton? d.name = some b ∧
    d.created ≠ some b ∧ ∃ x, w.bean? b = some x ∧ x.type.isAssignableTo d.type = false

/-- The types of all beans and definitions are among these. -/
structure Over (w : World C S) (U : BeanType → Prop) : Prop where
  beans : ∀ b x, w.bean? b = some x → U x.type
  definitions : ∀ c, ∀ d ∈ (w.container c).definitions, U d.type

/-- Singletons exist, and the bean of a definition is of its type. -/
structure Stocked (w : World C S) : Prop where
  present : ∀ c n b, (w.container c).singleton? n = some b → (w.bean? b).isSome
  made : ∀ c, ∀ d ∈ (w.container c).definitions, ∀ b, d.created = some b → w.Fits b d.type

end World

theorem Bean.Becomes.type {x y : Bean C} (h : x.Becomes y) : y.type = x.type := by
  cases h with
  | same => rfl
  | pinned r t free => rfl

theorem World.Fits.later {w w' : World C S} {b : BeanId} {type : BeanType} (h : w.Fits b type)
    (hl : Later w w') : w'.Fits b type := by
  obtain ⟨x, hx, fits⟩ := h
  obtain ⟨y, hy, becomes⟩ := hl.beans b x hx
  exact ⟨y, hy, becomes.type ▸ fits⟩

theorem Container.singleton_of_bind {k : Container C} {n n' : String} {b b' : BeanId}
    (h : (k.bind n' b').singleton? n = some b) : k.singleton? n = some b ∨ b' = b := by
  rw [singleton?_bind] at h
  split at h
  · exact .inr (Option.some.inj h)
  · exact .inl h

/-- Where a singleton comes from: it was one before, or its bean is there, in a definition or at least in
the world. -/
theorem Change.singleton_cases {Seen : Request C → World C S → Prop} {w w' : World C S}
    (h : Change Seen w w') (c : ContainerId) (n : String) (b : BeanId)
    (hb : (w'.container c).singleton? n = some b) :
    (w.container c).singleton? n = some b ∨ (w.bean? b).isSome ∨
      ∃ d ∈ (w.container c).definitions, d.created = some b := by
  cases h with
  | recorded | marked | unmarked | flagged | newStatus | object | reference | pinned => exact .inl hb
  | defined _ c' r =>
    left
    rw [World.container_define] at hb
    split at hb
    · rename_i e
      rwa [Container.singleton?_define, ← e] at hb
    · exact hb
  | registered _ c' n' b' present =>
    by_cases hc : c = c'
    · subst hc
      rw [World.container_remember, if_pos rfl, Container.singleton?_remember,
        World.container_bind, if_pos rfl] at hb
      rcases Container.singleton_of_bind hb with before | rfl
      · exact .inl before
      · exact .inr (.inl present)
    · exact .inl (by simpa [hc] using hb)
  | adopted _ c' n' d b' current created =>
    by_cases hc : c = c'
    · subst hc
      rw [World.container_bind, if_pos rfl] at hb
      rcases Container.singleton_of_bind hb with before | rfl
      · exact .inl before
      · exact .inr (.inr ⟨d, Container.mem_of_definition? _ n' d current, created⟩)
    · exact .inl (by simpa [hc] using hb)
  | completed _ _ c' d b' v _ _ _ _ _ made =>
    by_cases hc : c = c'
    · subst hc
      rw [World.container_complete, if_pos rfl] at hb
      split at hb
      · exact .inl hb
      · rcases Container.singleton_of_bind hb with before | rfl
        · exact .inl before
        · exact .inr (.inl (by simp [made]))
    · exact .inl (by simpa [hc] using hb)

/-- Where the bean of a definition comes from: the definition had it before, or has just made it. -/
theorem Change.created_cases {Seen : Request C → World C S → Prop} {w w' : World C S}
    (h : Change Seen w w') (c : ContainerId) (orderly : (w.container c).Orderly) (d : Definition C)
    (hd : d ∈ (w'.container c).definitions) (b : BeanId) (hb : d.created = some b) :
    d ∈ (w.container c).definitions ∨ w.Fits b d.type := by
  cases h with
  | recorded | marked | unmarked | flagged | newStatus | object | reference | pinned => exact .inl hd
  | defined _ c' r =>
    rw [World.container_define] at hd
    split at hd
    · rename_i e
      rw [Container.definitions_define, ← e] at hd
      rcases List.mem_cons.mp hd with rfl | hd
      · cases hb
      · exact .inl hd
    · exact .inl hd
  | registered _ c' n b' | adopted _ c' n _ b' =>
    by_cases hc : c = c'
    · subst hc
      exact .inl (by simpa using hd)
    · exact .inl (by simpa [hc] using hd)
  | completed w₀ _ c' d₀ b' v began _ _ _ later made fits =>
    by_cases hc : c = c'
    · subst hc
      have accepted : d ∈ ((w.container c).accept d₀.serial b').definitions := by
        rw [World.container_complete, if_pos rfl] at hd
        split at hd
        · exact hd
        · exact hd
      obtain ⟨d₁, mem, rfl⟩ := List.mem_map.mp accepted
      by_cases serial : d₁.serial = d₀.serial
      · right
        -- It is the definition that the creation began with.
        obtain ⟨d₂, mem₂, recipe, serial₂, _⟩ := later.definitions c d₀
          (Container.mem_of_definition? _ d₀.name d₀ began)
        obtain rfl := orderly.unique d₁ d₂ mem mem₂ (serial.trans serial₂.symm)
        rw [if_pos serial] at hb ⊢
        cases hb
        exact ⟨v, made, (congrArg (v.type.isAssignableTo ·.type) recipe).trans fits⟩
      · rw [if_neg serial]
        exact .inl mem
    · exact .inl (by simpa [hc] using hd)

theorem World.Stocked.changed {Seen : Request C → World C S → Prop} {w w' : World C S}
    (orderly : ∀ c, (w.container c).Orderly) (h : w.Stocked) (change : Change Seen w w') :
    w'.Stocked where
  present c n b hb := by
    have before : (w.bean? b).isSome := by
      rcases change.singleton_cases c n b hb with hb | present | ⟨d, mem, created⟩
      · exact h.present c n b hb
      · exact present
      · obtain ⟨x, hx, _⟩ := h.made c d mem b created
        exact Option.isSome_of_eq_some hx
    obtain ⟨x, hx⟩ := Option.isSome_iff_exists.mp before
    obtain ⟨y, hy, _⟩ := change.later.beans b x hx
    exact Option.isSome_of_eq_some hy
  made c d hd b hb := by
    rcases change.created_cases c (orderly c) d hd b hb with mem | fits
    · exact (h.made c d mem b hb).later change.later
    · exact fits.later change.later

theorem Reachable.stocked {w : World C S} (h : Reachable w) : w.Stocked := by
  refine (h.invariant (I := fun w => (∀ c, (w.container c).Orderly) ∧ w.Stocked) ?_ ?_ ?_).2
  · exact fun s => ⟨World.orderly_initial s, (fun _ _ _ hb => nomatch hb), fun _ _ hd => nomatch hd⟩
  · exact fun _ _ _ hw hc => ⟨hc.orderly hw.1, hw.2.changed hw.1 hc⟩
  · exact fun _ _ hw => ⟨hw.1, hw.2.present, hw.2.made⟩

/-- What is bound to a type by a name is of the type, or is misplaced. -/
theorem fits_or_misplaced {U : BeanType → Prop} (types : BeanType.Consistent U) {w : World C S}
    (known : w.Over U) (stocked : w.Stocked) {c : ContainerId} {n : String} {t : BeanId}
    {type : BeanType} (ht : (w.container c).singleton? n = some t) (h : Stands w c n t type) :
    w.Fits t type ∨ w.Misplaced c t := by
  cases h with
  | object own code bean fits => exact .inl ⟨.object own code, bean, fits⟩
  | defined d mem name fits =>
    obtain ⟨x, hx⟩ := Option.isSome_iff_exists.mp (stocked.present c n t ht)
    cases own : x.type.isAssignableTo d.type with
    | true =>
      have above := types.trans (known.definitions c d mem) fits x.type (known.beans t x hx) own
      exact .inl ⟨x, hx, above⟩
    | false =>
      -- A bean that the definition had made would be of its type.
      have other : d.created ≠ some t := by
        intro created
        obtain ⟨y, hy, made⟩ := stocked.made c d mem t created
        obtain rfl : y = x := Option.some.inj (hy.symm.trans hx)
        rw [own] at made
        cases made
      exact .inr ⟨d, mem, by rw [name]; exact ht, other, x, hx, own⟩

/-- In every run, what a look-up by type brings is of the type that was asked for, and what a reference
leads to is of the type of the reference, unless it bears the name of a definition that has not made it and
is not of the type of that definition. The types in use have to be told apart by their names, and for a
reference by name there has to be a definition that promises the type. -/
theorem injected_fits (U : BeanType → Prop) (types : BeanType.Consistent U) (lang : Language C S)
    (depth : Nat) (p : Program C S α) (s : S) (w' : World C S) (o : Outcome α)
    (moments : List (Moment C S)) (run : p.history lang depth (.initial s) = some (o, w', moments))
    (m : Moment C S) (mem : m ∈ moments) (known : m.world.Over U) :
    (∀ c d requesting w b w₁, m = .answered (.resolve c d requesting) w (.ok b) w₁ →
      w₁.Fits b d.type ∨ w₁.Misplaced c b) ∧
    ∀ x r t c, m.Reaches x r t → r.creator.registry = .container c →
      (∀ n type, r.target = .named n type →
        ∃ d ∈ (m.world.container c).definitions, d.name = n ∧ d.type.isAssignableTo type = true) →
      m.world.Fits t r.type ∨ m.world.Misplaced c t := by
  have mem' : m.world ∈ moments.map Moment.world ++ [w'] :=
    List.mem_append_left _ (List.mem_map_of_mem mem)
  have reachable : Reachable m.world := ⟨lang, depth, α, p, s, o, w', moments, run, mem'⟩
  have holds := history_holds run m mem
  constructor
  · rintro c d requesting w b w₁ rfl
    obtain ⟨_, depth', ha⟩ := holds
    cases depth' with
    | zero => cases ha
    | succ depth' =>
      obtain ⟨n, selected, hn⟩ := Lookup.registered_of_resolve _ c d requesting b w w₁ ha
      have candidate := Container.mem_candidates_of_select _ _ d requesting n selected
      exact fits_or_misplaced types known reachable.stocked hn
        (stands_of_candidate (answer_later ha) candidate hn)
  · intro x r t c reaches registry promised
    have traced := reaches.traced holds (history_coherent run _ mem') reachable
    rw [registry] at traced
    change m.world.Fits t r.target.type ∨ m.world.Misplaced c t
    cases target : r.target with
    | dependency d =>
      rw [target] at traced
      obtain ⟨n, hn, stands⟩ := traced
      exact fits_or_misplaced types known reachable.stocked hn stands
    | named n type =>
      rw [target] at traced
      obtain ⟨d, hd, name, fits⟩ := promised n type target
      exact fits_or_misplaced types known reachable.stocked traced (.defined d hd name fits)

/-- Defines a name, registers an object of the given type under it, and asks for a bean of the type that
was declared. -/
def placing (c : ContainerId) (type : BeanType) : Program Unit Unit BeanId := do
  .request (.define c { name := "a", type := .interface "app::I", factory := () })
  let b ← .request (.create type ())
  .request (.registerSingleton c "a" b)
  .request (.resolve c ⟨.interface "app::I", none⟩ none)

private theorem consistent_interface (name : String) :
    BeanType.Consistent fun t => t = .interface name where
  interfaces t ht i hi := by
    subst ht
    cases hi
  names a b ha hb _ target := by rw [ha, hb]

/-- A world of one object and one container whose definitions are of its type. -/
private theorem over_of_one {w : World Unit Unit} {type : BeanType} {c : ContainerId}
    {k : Container Unit} (beans : w.beans = #[.object type ()]) (containers : w.containers = ⟨[(c, k)]⟩)
    (definitions : ∀ d ∈ k.definitions, d.type = type) : w.Over fun t => t = type where
  beans b x hx := by
    have mem : x ∈ w.beans := Array.mem_of_getElem? hx
    rw [beans, List.mem_toArray, List.mem_singleton] at mem
    rw [mem]
    rfl
  definitions c' d hd := by
    by_cases hc : c' = c
    · have own : w.container c' = k := by simp [World.container, containers, Table.get?, hc]
      exact definitions d (own ▸ hd)
    · have none : w.container c' = {} := by
        simp [World.container, containers, Table.get?, List.lookup_cons, beq_false_of_ne hc]
      rw [none] at hd
      cases hd

theorem injected_fits_placing : ∃ w' past w w₁,
    (placing ⟨0⟩ (.interface "app::I")).history (selfRegistering "a") 1 (.initial ()) =
      some (.ok ⟨0⟩, w', past ++
        [.answered (.resolve ⟨0⟩ ⟨.interface "app::I", none⟩ none) w (.ok ⟨0⟩) w₁]) ∧
    w₁.Fits ⟨0⟩ (.interface "app::I") := by
  let I : BeanType := .interface "app::I"
  have run : ∃ w' m₁ m₂ m₃ m₄ m₅ m₆ m₇ w w₁ k,
      (placing ⟨0⟩ I).history (selfRegistering "a") 1 (.initial ()) =
        some (.ok ⟨0⟩, w', [m₁, m₂, m₃, m₄, m₅, m₆, m₇] ++
          [.answered (.resolve ⟨0⟩ ⟨I, none⟩ none) w (.ok ⟨0⟩) w₁]) ∧
      w₁.beans = #[.object I ()] ∧ w₁.containers = ⟨[(⟨0⟩, k)]⟩ ∧
      k.definitions.map (·.type) = [I] :=
    ⟨_, _, _, _, _, _, _, _, _, _, _, rfl, rfl, rfl, rfl⟩
  obtain ⟨w', m₁, m₂, m₃, m₄, m₅, m₆, m₇, w, w₁, k, run, beans, containers, types⟩ := run
  have declared (d : Definition Unit) (hd : d ∈ k.definitions) : d.type = I := by
    have mem : d.type ∈ k.definitions.map (·.type) := List.mem_map_of_mem hd
    rwa [types, List.mem_singleton] at mem
  have known : w₁.Over fun t => t = I := over_of_one beans containers declared
  refine ⟨w', _, w, w₁, run, ?_⟩
  obtain ⟨resolved, _⟩ := injected_fits _ (consistent_interface "app::I") _ _ _ _ _ _ _ run
    (.answered (.resolve ⟨0⟩ ⟨I, none⟩ none) w (.ok ⟨0⟩) w₁) (by simp) known
  rcases resolved ⟨0⟩ ⟨I, none⟩ none w ⟨0⟩ w₁ rfl with fits | ⟨d, hd, _, _, x, hx, other⟩
  · exact fits
  · rw [known.beans ⟨0⟩ x hx, known.definitions ⟨0⟩ d hd] at other
    cases other

/-- An object of another type is injected where the type of the definition is asked for. -/
theorem injected_unfit : ∃ w' past w w₁,
    (placing ⟨0⟩ (.interface "app::J")).history (selfRegistering "a") 1 (.initial ()) =
      some (.ok ⟨0⟩, w', past ++
        [.answered (.resolve ⟨0⟩ ⟨.interface "app::I", none⟩ none) w (.ok ⟨0⟩) w₁]) ∧
    ¬w₁.Fits ⟨0⟩ (.interface "app::I") := by
  have run : ∃ w' m₁ m₂ m₃ m₄ m₅ m₆ m₇ w w₁,
      (placing ⟨0⟩ (.interface "app::J")).history (selfRegistering "a") 1 (.initial ()) =
        some (.ok ⟨0⟩, w', [m₁, m₂, m₃, m₄, m₅, m₆, m₇] ++
          [.answered (.resolve ⟨0⟩ ⟨.interface "app::I", none⟩ none) w (.ok ⟨0⟩) w₁]) ∧
      w₁.bean? ⟨0⟩ = some (.object (.interface "app::J") ()) :=
    ⟨_, _, _, _, _, _, _, _, _, _, rfl, rfl⟩
  obtain ⟨w', m₁, m₂, m₃, m₄, m₅, m₆, m₇, w, w₁, run, bean⟩ := run
  refine ⟨w', _, w, w₁, run, ?_⟩
  rintro ⟨x, hx, fits⟩
  rw [bean] at hx
  cases hx
  revert fits
  decide

end Wiring
