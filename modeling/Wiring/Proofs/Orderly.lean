import Mathlib.Data.List.Nodup
import Wiring.Proofs.History

namespace Wiring

variable {C S : Type}

/-- Definitions are numbered in their order, and one has its bean only once its name is registered. -/
structure Container.Orderly (k : Container C) : Prop where
  serials : k.definitions.map (·.serial) = (List.range k.definitions.length).reverse
  registered : ∀ d ∈ k.definitions, d.created.isSome → k.hasSingleton d.name = true

namespace Container

/-- A serial number tells a definition. -/
theorem Orderly.unique {k : Container C} (h : k.Orderly) (d d' : Definition C)
    (hd : d ∈ k.definitions) (hd' : d' ∈ k.definitions) (e : d.serial = d'.serial) : d = d' := by
  have nodup : (k.definitions.map (·.serial)).Nodup := by
    rw [h.serials, List.nodup_reverse]
    exact List.nodup_range
  exact List.inj_on_of_nodup_map nodup hd hd' e

/-- A definition whose name is not registered has no bean yet. -/
theorem Orderly.uncreated {k : Container C} (h : k.Orderly) (n : String) (d : Definition C)
    (free : k.singleton? n = none) (hd : k.definition? n = some d) : d.created = none := by
  cases hc : d.created with
  | none => rfl
  | some b =>
    have taken := h.registered d (mem_of_definition? k n d hd) (by simp [hc])
    rw [name_of_definition? k n d hd] at taken
    simp [hasSingleton, free] at taken

theorem Orderly.define {k : Container C} (h : k.Orderly) (r : Recipe C) : (k.define r).Orderly where
  serials := by
    rw [definitions_define, List.map_cons, h.serials, List.length_cons, List.range_succ,
      List.reverse_append]
    rfl
  registered d hd hc := by
    rw [definitions_define] at hd
    rcases List.mem_cons.mp hd with rfl | hd
    · cases hc
    · simpa [hasSingleton] using h.registered d hd hc

theorem Orderly.bind {k : Container C} (h : k.Orderly) (n : String) (b : BeanId) :
    (k.bind n b).Orderly where
  serials := h.serials
  registered d hd hc := by
    by_cases hn : d.name = n
    · simp [hasSingleton, hn]
    · simpa [hasSingleton, hn] using h.registered d hd hc

theorem Orderly.remember {k : Container C} (h : k.Orderly) (n : String) :
    (k.remember n).Orderly where
  serials := by
    rw [definitions_remember]
    exact h.serials
  registered d hd hc := by
    rw [definitions_remember] at hd
    simpa [hasSingleton] using h.registered d hd hc

/-- A bean is entered into a definition whose name is registered by then. -/
theorem Orderly.accept {k : Container C} (h : k.Orderly) (d : Definition C) (b : BeanId)
    (hd : ∃ d' ∈ k.definitions, d.Becomes d') (taken : k.hasSingleton d.name = true) :
    (k.accept d.serial b).Orderly where
  serials := by
    have same (d' : Definition C) :
        (if d'.serial = d.serial then { d' with created := some b } else d').serial = d'.serial := by
      split <;> rfl
    simp only [Container.accept, List.map_map, List.length_map, Function.comp_def, same]
    exact h.serials
  registered d' hd' hc := by
    obtain ⟨d₁, mem, rfl⟩ := List.mem_map.mp hd'
    by_cases hs : d₁.serial = d.serial
    · obtain ⟨d₂, mem₂, recipe, serial, _⟩ := hd
      obtain rfl := h.unique d₁ d₂ mem mem₂ (hs.trans serial.symm)
      have name : d₁.name = d.name := congrArg Recipe.name recipe
      simpa [hs, name, hasSingleton] using taken
    · rw [if_neg hs] at hc ⊢
      simpa [hasSingleton] using h.registered d₁ mem hc

end Container

theorem Change.orderly {Seen : Request C → World C S → Prop} {w w' : World C S}
    (h : Change Seen w w') (hw : ∀ c, (w.container c).Orderly) (c : ContainerId) :
    (w'.container c).Orderly := by
  cases h with
  | recorded | marked | unmarked | flagged | newStatus | object | reference | pinned => exact hw c
  | defined _ c' r =>
    rw [World.container_define]
    split
    · exact (hw c').define r
    · exact hw c
  | registered _ c' n b =>
    rw [World.container_remember]
    split
    · rw [World.container_bind, if_pos rfl]
      exact ((hw c').bind n b).remember n
    · rename_i other
      rw [World.container_bind, if_neg other]
      exact hw c
  | adopted _ c' n d b =>
    rw [World.container_bind]
    split
    · exact (hw c').bind n b
    · exact hw c
  | completed w₀ _ c' d b v began _ _ _ later =>
    have stays := later.definitions c' d (Container.mem_of_definition? _ d.name d began)
    rw [World.container_complete]
    split
    · split
      · rename_i taken
        exact (hw c').accept d b stays taken
      · -- The bean is registered in the same step.
        have swap : ((w.container c').accept d.serial b).bind d.name b =
            ((w.container c').bind d.name b).accept d.serial b := rfl
        rw [swap]
        exact ((hw c').bind d.name b).accept d b stays (by simp [Container.hasSingleton])
    · exact hw c

theorem World.orderly_initial (s : S) (c : ContainerId) :
    ((World.initial s : World C S).container c).Orderly where
  serials := rfl
  registered _ hd := nomatch hd

theorem Reachable.orderly {w : World C S} (h : Reachable w) (c : ContainerId) :
    (w.container c).Orderly :=
  h.invariant (I := fun w => ∀ c, (w.container c).Orderly) World.orderly_initial
    (fun _ _ _ hw hc => hc.orderly hw) (fun _ _ hw => hw) c

/-- A run from a world with orderly containers leaves them so throughout. -/
theorem history_orderly {α : Type} {lang : Language C S} {depth : Nat} {p : Program C S α}
    {w w' : World C S} {o : Outcome α} {moments : List (Moment C S)}
    (orderly : ∀ c, (w.container c).Orderly) (h : p.history lang depth w = some (o, w', moments)) :
    ∀ u ∈ w :: moments.map Moment.world ++ [w'], ∀ c, (u.container c).Orderly := by
  have invariant : Invariant fun _ (u : World C S) => ∀ c, (u.container c).Orderly :=
    ⟨fun _ _ _ _ hu => hu, fun _ _ _ hu hc => hc.orderly hu, fun _ _ _ hu => hu⟩
  intro u hu
  rcases List.mem_cons.mp hu with rfl | hu
  · exact orderly
  · exact history_invariant invariant orderly h u hu

end Wiring
