import Wiring.Proofs.Change
import Wiring.Proofs.Run
import Wiring.Reference

namespace Wiring.Lookup

variable {C S : Type}

theorem getBean_registered (user : UserCode C S) (c : ContainerId) (n : String) (b : BeanId)
    (w : World C S) (h : (w.container c).singleton? n = some b) :
    getBean user c n w = some (.ok b, w) := by
  simp [getBean, h]

theorem getBean_unknown (user : UserCode C S) (c : ContainerId) (n : String) (w : World C S)
    (hs : (w.container c).singleton? n = none) (hd : (w.container c).definition? n = none) :
    getBean user c n w = some (.error (.noSuchBeanDefinition n), w) := by
  simp [getBean, hs, hd]

theorem getBean_adopted (user : UserCode C S) (c : ContainerId) (n : String) (d : Definition C)
    (b : BeanId) (w : World C S) (hs : (w.container c).singleton? n = none)
    (hd : (w.container c).definition? n = some d) (hb : d.created = some b) :
    getBean user c n w = some (.ok b, w.bind c n b) := by
  have hk : keep c n b w = some (.ok b, w.bind c n b) := by simp [keep, hs]
  simp only [getBean, Run.get_bind, hs, hd, create, hb]
  rw [Run.bind_ok _ _ w w b rfl, hk]

theorem getBean_marked (user : UserCode C S) (c : ContainerId) (n : String) (d : Definition C)
    (w : World C S) (hs : (w.container c).singleton? n = none)
    (hd : (w.container c).definition? n = some d) (hc : d.created = none) (hm : n ∈ w.marks) :
    getBean user c n w = some (.error (.currentlyInCreation n), w) := by
  obtain rfl : d.name = n := Container.name_of_definition? _ n d hd
  simp only [getBean, Run.get_bind, hs, hd, create, hc]
  apply Run.bind_error
  simp [marked, hm]

/-- The end of a run of the factory of a definition, by what the factory came to. -/
def finish (c : ContainerId) (d : Definition C) :
    Option (Outcome BeanId × World C S) → Option (Outcome BeanId × World C S)
  | none => none
  | some (.error e, w) => some (.error e, w.unmark d.name)
  | some (.panic text, w) => some (.panic text, w.unmark d.name)
  | some (.ok b, w) =>
    match w.bean? b with
    | none => some (.panic "no such bean", w.unmark d.name)
    | some v =>
      if v.type.isAssignableTo d.type then
        some (.ok (((w.container c).singleton? d.name).getD b), w.complete c d b)
      else
        some (.error (.beanCreation d.name
          s!"factory produced a {v.type.name} where a {d.type.name} was declared"),
          w.unmark d.name)

theorem finish_ok (c : ContainerId) (d : Definition C) (b : BeanId) (v : Bean C) (w : World C S)
    (hb : w.bean? b = some v) (fits : v.type.isAssignableTo d.type = true) :
    finish c d (some (.ok b, w)) =
      some (.ok (((w.container c).singleton? d.name).getD b), w.complete c d b) := by
  simp only [finish, hb, fits, if_true]

theorem finish_fault (c : ContainerId) (d : Definition C) (fault : Fault) (w : World C S) :
    finish c d (some (fault.outcome, w)) = some (fault.outcome, w.unmark d.name) := by
  cases fault <;> rfl

theorem finish_missing (c : ContainerId) (d : Definition C) (b : BeanId) (w : World C S)
    (hb : w.bean? b = none) :
    finish c d (some (.ok b, w)) = some (.panic "no such bean", w.unmark d.name) := by
  simp only [finish, hb]

theorem finish_unfit (c : ContainerId) (d : Definition C) (b : BeanId) (v : Bean C) (w : World C S)
    (hb : w.bean? b = some v) (unfit : v.type.isAssignableTo d.type = false) :
    finish c d (some (.ok b, w)) = some (.error (.beanCreation d.name
      s!"factory produced a {v.type.name} where a {d.type.name} was declared"), w.unmark d.name) := by
  simp [finish, hb, unfit]

theorem finish_ends (c : ContainerId) (d : Definition C) (made : Outcome BeanId) (w : World C S) :
    ∃ o w', finish c d (some (made, w)) = some (o, w') := by
  rcases made.ok_or_fault with ⟨b, rfl⟩ | ⟨fault, rfl⟩
  · cases hb : w.bean? b with
    | none => exact ⟨_, _, finish_missing c d b w hb⟩
    | some v =>
      cases fits : v.type.isAssignableTo d.type with
      | true => exact ⟨_, _, finish_ok c d b v w hb fits⟩
      | false => exact ⟨_, _, finish_unfit c d b v w hb fits⟩
  · exact ⟨_, _, finish_fault c d fault w⟩

/-- How a creation ends, by what its factory came to: the bean is accepted, or the creation is given up. -/
inductive Finished (c : ContainerId) (d : Definition C) (w : World C S) :
    Outcome BeanId → Outcome BeanId → World C S → Prop where
  | accepted (b : BeanId) (v : Bean C) (made : w.bean? b = some v)
      (fits : v.type.isAssignableTo d.type = true) :
      Finished c d w (.ok b) (.ok (((w.container c).singleton? d.name).getD b)) (w.complete c d b)
  | givenUp (made : Outcome BeanId) (fault : Fault)
      (unfit : ∀ b v, made = .ok b → w.bean? b = some v → v.type.isAssignableTo d.type = false) :
      Finished c d w made fault.outcome (w.unmark d.name)

theorem finish_cases {c : ContainerId} {d : Definition C} {made o : Outcome BeanId} {w w' : World C S}
    (h : finish c d (some (made, w)) = some (o, w')) : Finished c d w made o w' := by
  rcases made.ok_or_fault with ⟨b, rfl⟩ | ⟨fault, rfl⟩
  · cases hb : w.bean? b with
    | none =>
      cases (finish_missing c d b w hb).symm.trans h
      refine .givenUp (.ok b) (.panic _) ?_
      rintro _ _ ⟨⟩ hv
      cases hb.symm.trans hv
    | some v =>
      cases fits : v.type.isAssignableTo d.type with
      | true =>
        cases (finish_ok c d b v w hb fits).symm.trans h
        exact .accepted b v hb fits
      | false =>
        cases (finish_unfit c d b v w hb fits).symm.trans h
        refine .givenUp (.ok b) (.error _) ?_
        rintro _ _ ⟨⟩ hv
        cases hb.symm.trans hv
        exact fits
  · cases (finish_fault c d fault w).symm.trans h
    exact .givenUp _ fault fun b _ ho => absurd ho (fault.ne_ok b)

private theorem keep_accepted (c : ContainerId) (d : Definition C) (b : BeanId) (w : World C S) :
    keep c d.name b ((w.accept c d.serial b).unmark d.name) =
      some (.ok (((w.container c).singleton? d.name).getD b), w.complete c d b) := by
  have hk : (((w.accept c d.serial b).unmark d.name).container c).singleton? d.name =
      (w.container c).singleton? d.name := by simp
  simp only [keep, hk, World.complete, Container.hasSingleton]
  cases (w.container c).singleton? d.name <;> rfl

theorem getBean_create (user : UserCode C S) (c : ContainerId) (n : String) (d : Definition C)
    (w : World C S) (hs : (w.container c).singleton? n = none)
    (hd : (w.container c).definition? n = some d) (hc : d.created = none) (hm : n ∉ w.marks) :
    getBean user c n w = finish c d (user d.factory (.make c) (w.mark n)) := by
  obtain rfl : d.name = n := Container.name_of_definition? _ n d hd
  have hm' : w.marks.contains d.name = false := by simpa using hm
  simp only [getBean, Run.get_bind, hs, hd, create, hc]
  have made : marked d.name (do let b ← user d.factory (.make c); accepted c d b) w =
      ((do let b ← user d.factory (.make c); accepted c d b : Run C S BeanId).cleanup
        (·.unmark d.name)) (w.mark d.name) := by
    simp only [marked, hm', Bool.false_eq_true, if_false]
  obtain ⟨x, hu⟩ : ∃ x : Option (Outcome BeanId × World C S),
      user d.factory (.make c) (w.mark d.name) = x := ⟨_, rfl⟩
  rw [hu]
  rcases x with _ | ⟨b | e | text, w'⟩
  · apply Run.bind_none
    rw [made, Run.cleanup, Run.bind_none _ _ _ hu]
  · cases hb : w'.bean? b with
    | none =>
      simp only [finish, hb]
      apply Run.bind_panic
      rw [made]
      apply Run.cleanup_some
      rw [Run.bind_ok _ _ _ _ b hu]
      exact Run.bind_panic _ _ _ _ _ (Run.bean_none b w' hb)
    | some v =>
      by_cases ht : v.type.isAssignableTo d.type = true
      · simp only [finish, hb, ht, if_true]
        rw [← keep_accepted]
        apply Run.bind_ok
        rw [made]
        apply Run.cleanup_some
        rw [Run.bind_ok _ _ _ _ b hu, accepted, Run.bind_ok _ _ _ _ v (Run.bean_some b v w' hb)]
        simp only [ht, if_true]
        exact Run.bind_ok _ _ _ _ () rfl
      · simp only [finish, hb, ht]
        apply Run.bind_error
        rw [made]
        apply Run.cleanup_some
        rw [Run.bind_ok _ _ _ _ b hu, accepted, Run.bind_ok _ _ _ _ v (Run.bean_some b v w' hb)]
        simp only [ht]
        rfl
  · apply Run.bind_error
    rw [made]
    exact Run.cleanup_some _ _ _ _ _ (Run.bind_error _ _ _ _ e hu)
  · apply Run.bind_panic
    rw [made]
    exact Run.cleanup_some _ _ _ _ _ (Run.bind_panic _ _ _ _ text hu)

/-- The ways in which a look-up by name ends. -/
inductive Answered (user : UserCode C S) (c : ContainerId) (n : String) (w : World C S) :
    Outcome BeanId → World C S → Prop where
  | registered (b : BeanId) (taken : (w.container c).singleton? n = some b) :
      Answered user c n w (.ok b) w
  | unknown (free : (w.container c).singleton? n = none)
      (undefined : (w.container c).definition? n = none) :
      Answered user c n w (.error (.noSuchBeanDefinition n)) w
  | adopted (d : Definition C) (b : BeanId) (free : (w.container c).singleton? n = none)
      (current : (w.container c).definition? n = some d) (created : d.created = some b) :
      Answered user c n w (.ok b) (w.bind c n b)
  | marked (d : Definition C) (free : (w.container c).singleton? n = none)
      (current : (w.container c).definition? n = some d) (uncreated : d.created = none)
      (marked : n ∈ w.marks) : Answered user c n w (.error (.currentlyInCreation n)) w
  | ran (d : Definition C) (made : Outcome BeanId) (w₁ : World C S) (o : Outcome BeanId)
      (w' : World C S) (name : d.name = n) (begins : Begins w c d)
      (run : user d.factory (.make c) (w.mark n) = some (made, w₁))
      (finished : finish c d (some (made, w₁)) = some (o, w')) : Answered user c n w o w'

theorem getBean_cases {user : UserCode C S} {c : ContainerId} {n : String} {w w' : World C S}
    {o : Outcome BeanId} (h : getBean user c n w = some (o, w')) : Answered user c n w o w' := by
  cases hs : (w.container c).singleton? n with
  | some b =>
    cases (getBean_registered user c n b w hs).symm.trans h
    exact .registered b hs
  | none =>
    cases hd : (w.container c).definition? n with
    | none =>
      cases (getBean_unknown user c n w hs hd).symm.trans h
      exact .unknown hs hd
    | some d =>
      cases hc : d.created with
      | some b =>
        cases (getBean_adopted user c n d b w hs hd hc).symm.trans h
        exact .adopted d b hs hd hc
      | none =>
        by_cases hm : n ∈ w.marks
        · cases (getBean_marked user c n d w hs hd hc hm).symm.trans h
          exact .marked d hs hd hc hm
        · rw [getBean_create user c n d w hs hd hc hm] at h
          obtain rfl : d.name = n := Container.name_of_definition? _ n d hd
          rcases ran : user d.factory (.make c) (w.mark d.name) with _ | ⟨made, w₁⟩
          · rw [ran] at h
            cases h
          · rw [ran] at h
            exact .ran d made w₁ o w' rfl ⟨hd, hc, hs, hm⟩ ran h

theorem getBean_iff {user : UserCode C S} {c : ContainerId} {n : String} {w w' : World C S}
    {o : Outcome BeanId} : getBean user c n w = some (o, w') ↔ Answered user c n w o w' := by
  refine ⟨getBean_cases, fun h => ?_⟩
  cases h with
  | registered b taken => exact getBean_registered user c n b w taken
  | unknown free undefined => exact getBean_unknown user c n w free undefined
  | adopted d b free current created => exact getBean_adopted user c n d b w free current created
  | marked d free current uncreated marked =>
    exact getBean_marked user c n d w free current uncreated marked
  | ran d made w₁ _ _ name begins run finished =>
    subst name
    rw [getBean_create user c _ d w begins.free begins.current begins.uncreated begins.unmarked, run,
      finished]

/-- A bean that is returned is the one registered then. -/
theorem registered_of_getBean (user : UserCode C S) (c : ContainerId) (n : String) (b : BeanId)
    (w w' : World C S) (h : getBean user c n w = some (.ok b, w')) :
    (w'.container c).singleton? n = some b := by
  obtain ⟨o, ho⟩ : ∃ o : Outcome BeanId, o = .ok b := ⟨_, rfl⟩
  rw [← ho] at h
  cases getBean_cases h with
  | registered a taken =>
    cases ho
    exact taken
  | unknown | marked => cases ho
  | adopted d a _ _ _ =>
    cases ho
    simp
  | ran d made v _ _ name _ _ finished =>
    subst name
    cases finish_cases finished with
    | accepted a _ _ _ =>
      cases ho
      cases hk : (v.container c).singleton? d.name <;> simp [Container.hasSingleton, hk]
    | givenUp _ fault _ => exact absurd ho (fault.ne_ok b)

/-- A look-up by type comes to what the look-up of the selected name comes to. -/
theorem resolve_of_select (user : UserCode C S) {c : ContainerId} {d : Dependency}
    {requesting : Option String} {n : String} {w : World C S}
    (h : (w.container c).select w.plainType d requesting = .ok n) :
    resolve user c d requesting w = getBean user c n w := by
  rw [resolve, Run.get_bind, h]
  exact Run.bind_ok _ _ w w n rfl

theorem resolve_of_select_error (user : UserCode C S) {c : ContainerId} {d : Dependency}
    {requesting : Option String} {e : Error} {w : World C S}
    (h : (w.container c).select w.plainType d requesting = .error e) :
    resolve user c d requesting w = some (.error e, w) := by
  rw [resolve, Run.get_bind, h]
  exact Run.bind_error _ _ w w e rfl

/-- A bean that a look-up by type returns is the one registered then under the name that was selected. -/
theorem registered_of_resolve (user : UserCode C S) (c : ContainerId) (d : Dependency)
    (requesting : Option String) (b : BeanId) (w w' : World C S)
    (h : resolve user c d requesting w = some (.ok b, w')) :
    ∃ n, (w.container c).select w.plainType d requesting = .ok n ∧
      (w'.container c).singleton? n = some b := by
  obtain ⟨n, w₁, hn, h⟩ := Run.ok_of_bind (Run.ofExcept _) _ _ _ _ h
  change Run.ofExcept ((w.container c).select w.plainType d requesting) _ = _ at hn
  cases hs : (w.container c).select w.plainType d requesting with
  | ok m =>
    rw [hs] at hn
    cases hn
    exact ⟨n, rfl, registered_of_getBean user c n b _ w' h⟩
  | error e =>
    rw [hs] at hn
    cases hn

/-- A bean is registered under a free name, or nothing is done. -/
theorem registerSingleton_cases {c : ContainerId} {n : String} {b : BeanId} {w w' : World C S}
    {o : Outcome Unit} (h : registerSingleton c n b w = some (o, w')) :
    (∃ fault : Fault, o = fault.outcome ∧ w' = w) ∨
      o = .ok () ∧ (w.bean? b).isSome ∧ (w.container c).singleton? n = none ∧
        w' = (w.bind c n b).remember c n := by
  unfold registerSingleton at h
  cases hb : w.bean? b with
  | none =>
    rw [Run.bind_panic _ _ _ _ _ (Run.bean_none b w hb)] at h
    cases h
    exact .inl ⟨.panic _, rfl, rfl⟩
  | some v =>
    rw [Run.bind_ok _ _ _ _ v (Run.bean_some b v w hb), Run.get_bind] at h
    by_cases taken : (w.container c).hasSingleton n = true
    · rw [if_pos taken] at h
      cases h
      exact .inl ⟨.error _, rfl, rfl⟩
    · rw [if_neg taken] at h
      cases h
      exact .inr ⟨rfl, rfl, by simpa [Container.hasSingleton] using taken, rfl⟩

theorem registerSingleton_refused (c : ContainerId) (n : String) (b x : BeanId) (w : World C S)
    (h : (w.container c).singleton? n = some b) (hx : (w.bean? x).isSome) :
    registerSingleton c n x w = some (.error (.singletonAlreadyRegistered n), w) := by
  obtain ⟨v, hv⟩ := Option.isSome_iff_exists.mp hx
  have hs : (w.container c).hasSingleton n = true := (Container.hasSingleton_iff _ n).mpr ⟨b, h⟩
  rw [registerSingleton, Run.bind_ok _ _ _ _ v (Run.bean_some x v w hv)]
  simp [hs]

theorem registerSingleton_free (c : ContainerId) (n : String) (x : BeanId) (w : World C S)
    (h : (w.container c).singleton? n = none) (hx : (w.bean? x).isSome) :
    registerSingleton c n x w = some (.ok (), (w.bind c n x).remember c n) := by
  obtain ⟨v, hv⟩ := Option.isSome_iff_exists.mp hx
  have hs : (w.container c).hasSingleton n = false := by simp [Container.hasSingleton, h]
  rw [registerSingleton, Run.bind_ok _ _ _ _ v (Run.bean_some x v w hv), Run.get_bind, hs]
  rfl

end Wiring.Lookup
