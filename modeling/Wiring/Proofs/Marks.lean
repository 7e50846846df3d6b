import Mathlib.Data.List.Forall2
import Wiring.Proofs.Orderly
import Wiring.Proofs.Permanence

namespace Wiring

variable {C S α : Type}

/-- One more moment, for the calls of factories that are open, the innermost first. -/
def Moment.follow (calls : List (Moment C S)) : Moment C S → List (Moment C S)
  | entered code (.make c) w => entered code (.make c) w :: calls
  | left _ (.make _) _ _ _ => calls.tail
  | _ => calls

/-- The calls of factories that are open after these moments. -/
def openCalls (moments : List (Moment C S)) : List (Moment C S) := moments.foldl Moment.follow []

/-- The creations under way at a moment, by the calls of their factories. When a factory is left, its
bean has still to be checked. -/
def Moment.creations (past : List (Moment C S)) : Moment C S → List (Moment C S)
  | left _ (.make _) _ _ _ => openCalls past
  | m => openCalls (past ++ [m])

theorem openCalls_append (past : List (Moment C S)) (m : Moment C S) :
    openCalls (past ++ [m]) = Moment.follow (openCalls past) m := by
  simp only [openCalls, List.foldl_append, List.foldl_cons, List.foldl_nil]

/-- A moment at which no factory is entered or left. -/
theorem Moment.follow_plainly (calls : List (Moment C S)) (m : Moment C S) (h : m.ofFactory = false) :
    m.follow calls = calls := by
  match m with
  | asked .. | answered .. => rfl
  | entered _ e _ | left _ e _ _ _ =>
    cases e with
    | make c => cases h
    | _ => rfl

theorem Moment.creations_plainly (past : List (Moment C S)) (m : Moment C S)
    (h : m.ofFactory = false) : m.creations past = openCalls past := by
  match m with
  | asked .. | answered .. | entered .. => exact (openCalls_append past _).trans (follow_plainly _ _ h)
  | left _ e _ _ _ =>
    cases e with
    | make c => cases h
    | _ => exact (openCalls_append past _).trans (follow_plainly _ _ h)

theorem Moment.creations_entered (past : List (Moment C S)) (code : C) (c : ContainerId)
    (w : World C S) : creations past (.entered code (.make c) w) =
      .entered code (.make c) w :: openCalls past :=
  openCalls_append past _

/-- The call is that of the factory of the definition, which was in force then and had no bean, and whose
name was free and marked last. -/
inductive Creates : Moment C S → Definition C → Prop where
  | intro (c : ContainerId) (d : Definition C) (w : World C S)
      (current : (w.container c).definition? d.name = some d) (uncreated : d.created = none)
      (free : (w.container c).singleton? d.name = none) (marked : w.marks.head? = some d.name) :
      Creates (.entered d.factory (.make c) w) d

/-- The calls are those of the factories of these definitions, and their names are the marks. -/
structure Marked (calls : List (Moment C S)) (ds : List (Definition C)) (marks : List String) :
    Prop where
  factories : List.Forall₂ Creates calls ds
  names : ds.map (·.name) = marks
  distinct : marks.Nodup

/-- The marks at a moment are those of the creations under way, and a factory that is left is the one
entered last. -/
structure Tracked (past : List (Moment C S)) (m : Moment C S) : Prop where
  marked : ∃ ds, Marked (m.creations past) ds m.world.marks
  innermost : ∀ code c before o after, m = .left code (.make c) before o after →
    (openCalls past).head? = some (.entered code (.make c) before)

/-- At every one of these moments, of which the latest is the first. -/
def AllTracked : List (Moment C S) → Prop
  | [] => True
  | m :: past => Tracked past.reverse m ∧ AllTracked past

theorem AllTracked.split {newer older : List (Moment C S)} {m : Moment C S}
    (h : AllTracked (newer ++ m :: older)) : Tracked older.reverse m := by
  induction newer with
  | nil => exact h.1
  | cons _ newer ih => exact ih h.2

/-- A factory that is entered is that of a definition to be created. -/
theorem AllTracked.creates {moments : List (Moment C S)} {code : C} {c : ContainerId} {w : World C S}
    (h : AllTracked moments) (mem : .entered code (.make c) w ∈ moments) :
    ∃ d, Creates (.entered code (.make c) w) d := by
  obtain ⟨newer, older, rfl⟩ := List.append_of_mem mem
  obtain ⟨⟨ds, marked⟩, _⟩ := h.split
  have factories := marked.factories
  rw [Moment.creations_entered] at factories
  cases factories with
  | cons creates _ => exact ⟨_, creates⟩

namespace World

/-- The calls of factories that are open now. -/
def calls (v : World C (Noted C S)) : List (Moment C S) := openCalls v.past.reverse

theorem calls_note (v : World C (Noted C S)) (m : Moment C S) :
    (v.note m).calls = m.follow v.calls := by
  change openCalls (m :: v.past).reverse = _
  rw [List.reverse_cons, openCalls_append]
  rfl

end World

/-- A part of a run that leaves marks and open calls as they were, and at whose moments the marks are
those of the creations under way if they are so before it. -/
structure Bracketed (v v' : World C (Noted C S)) : Prop where
  marks : v'.marks = v.marks
  calls : v'.calls = v.calls
  tracked : ∀ ds, Marked v.calls ds v.marks → AllTracked v.past → AllTracked v'.past

theorem Bracketed.of_eq {v v' : World C (Noted C S)} (marks : v'.marks = v.marks)
    (past : v'.past = v.past) : Bracketed v v' where
  marks := marks
  calls := by simp only [World.calls, past]
  tracked _ _ h := by rwa [past]

theorem Bracketed.trans {v₁ v₂ v₃ : World C (Noted C S)} (h : Bracketed v₁ v₂) (k : Bracketed v₂ v₃) :
    Bracketed v₁ v₃ where
  marks := k.marks.trans h.marks
  calls := k.calls.trans h.calls
  tracked ds hd ht := k.tracked ds (by rwa [h.calls, h.marks]) (h.tracked ds hd ht)

theorem Bracketed.note {lang : Language C S} (v : World C (Noted C S)) (m : Moment C S)
    (holds : m.Holds lang v.plain) (plainly : m.ofFactory = false) : Bracketed v (v.note m) where
  marks := rfl
  calls := (v.calls_note m).trans (m.follow_plainly _ plainly)
  tracked ds hd ht := by
    refine ⟨⟨⟨ds, ?_⟩, ?_⟩, ht⟩
    · rw [m.creations_plainly _ plainly, holds.world]
      exact hd
    · rintro code c before o after rfl
      cases plainly

/-- A creation, from the run of its factory: the mark that it sets is the one that it takes away. -/
theorem Bracketed.create {v v₁ : World C (Noted C S)} {c : ContainerId} {d : Definition C}
    {o : Outcome BeanId} (begins : Begins v.plain c d) (h : Bracketed (v.enter c d) v₁)
    (v' : World C (Noted C S)) (past : v'.past = (v₁.leave v c d o).past)
    (marks : v'.marks = v₁.marks.erase d.name) : Bracketed v v' := by
  let call : Moment C S := .entered d.factory (.make c) (v.mark d.name).plain
  let ending : Moment C S := .left d.factory (.make c) (v.mark d.name).plain o v₁.plain
  have entered : (v.enter c d).calls = call :: v.calls := World.calls_note _ call
  have inside : v₁.calls = call :: v.calls := h.calls.trans entered
  have insideMarks : v₁.marks = d.name :: v.marks := h.marks
  have left : v'.calls = v.calls := by
    rw [World.calls, past]
    refine (World.calls_note v₁ ending).trans ?_
    rw [inside]
    rfl
  refine ⟨by rw [marks, insideMarks, List.erase_cons_head], left, fun ds hd ht => ?_⟩
  have creates : Creates call d := .intro c d _ begins.current begins.uncreated begins.free rfl
  have within : Marked (call :: v.calls) (d :: ds) (d.name :: v.marks) :=
    ⟨.cons creates hd.factories, congrArg (d.name :: ·) hd.names,
      List.nodup_cons.mpr ⟨begins.unmarked, hd.distinct⟩⟩
  have first : AllTracked (v.enter c d).past := by
    refine ⟨⟨⟨d :: ds, ?_⟩, fun _ _ _ _ _ h => nomatch h⟩, ht⟩
    rw [Moment.creations_entered]
    exact within
  have ran : AllTracked v₁.past := h.tracked (d :: ds) (entered ▸ within) first
  rw [past]
  refine ⟨⟨⟨d :: ds, ?_⟩, ?_⟩, ran⟩
  · change Marked v₁.calls (d :: ds) v₁.marks
    rw [inside, insideMarks]
    exact within
  · rintro code c' before o' after ⟨⟩
    exact congrArg List.head? inside

theorem Bracketed.steady (lang : Language C S) : Steady lang (Bracketed (C := C)) where
  refl _ := .of_eq rfl rfl
  trans _ _ _ h k := h.trans k
  step v v' past h := .of_eq h.marks past
  pinned v v₁ b r t _ _ _ h _ _ := h.trans (.of_eq rfl rfl)
  poked _ _ := .of_eq rfl rfl
  noted v m holds plainly := .note v m holds plainly
  created v c d o v₁ o' v' begins h _ finished := by
    cases Lookup.finish_cases finished with
    | accepted b _ _ _ =>
      refine h.create begins _ (World.past_complete _ c d b) ?_
      simp only [World.complete]
      split <;> rfl
    | givenUp => exact h.create begins _ rfl rfl

namespace Lookup

/-- A look-up refuses by itself, whatever user code there is, exactly if its own creation is marked. -/
theorem getBean_refuses_iff (c : ContainerId) (n : String) (w : World C S) :
    (∀ user, getBean user c n w = some (.error (.currentlyInCreation n), w)) ↔
      (w.container c).singleton? n = none ∧
        ∃ d, (w.container c).definition? n = some d ∧ d.created = none ∧ n ∈ w.marks := by
  constructor
  · intro h
    -- User code that panics when it is called: the refusal then is that of the look-up itself.
    have refused := h fun _ _ => Run.panic ""
    cases hs : (w.container c).singleton? n with
    | some b => simp [getBean_registered _ c n b w hs] at refused
    | none =>
      cases hd : (w.container c).definition? n with
      | none => simp [getBean_unknown _ c n w hs hd] at refused
      | some d =>
        cases hc : d.created with
        | some b => simp [getBean_adopted _ c n d b w hs hd hc] at refused
        | none =>
          by_cases hm : n ∈ w.marks
          · exact ⟨rfl, d, rfl, hc, hm⟩
          · rw [getBean_create _ c n d w hs hd hc hm] at refused
            cases refused
  · rintro ⟨hs, d, hd, hc, hm⟩ user
    exact getBean_marked user c n d w hs hd hc hm

end Lookup

/-- At every moment of a run the marks are the names of the creations under way, all different, each of a
definition that had no bean when its factory was entered; and a look-up by name refuses by itself exactly
what is defined, has no singleton and is being created. No request leaves or takes away a mark, however it
ends, and none is left in the end. -/
theorem marks_exact (lang : Language C S) (depth : Nat) (p : Program C S α) (s : S) (w' : World C S)
    (o : Outcome α) (moments : List (Moment C S))
    (run : p.history lang depth (.initial s) = some (o, w', moments)) :
    (∀ past m future, moments = past ++ m :: future → ∃ ds,
      Marked (m.creations past) ds m.world.marks ∧
      (∀ code c before o after, m = .left code (.make c) before o after →
        (openCalls past).head? = some (.entered code (.make c) before)) ∧
      ∀ c n, (∀ user, Lookup.getBean user c n m.world =
          some (.error (.currentlyInCreation n), m.world)) ↔
        (m.world.container c).singleton? n = none ∧ (m.world.container c).hasDefinition n = true ∧
          ∃ d ∈ ds, d.name = n) ∧
    openCalls moments = [] ∧ w'.marks = [] ∧
    ∀ depth q (v v' : World C S) a, answer lang depth q v = some (a, v') → v'.marks = v.marks := by
  obtain ⟨v, rfl, rfl, h⟩ := steady_of_history (Bracketed.steady lang) run
  have tracked : AllTracked v.past := h.tracked [] ⟨.nil, rfl, .nil⟩ .intro
  refine ⟨fun past m future split => ?_, h.calls, h.marks, fun depth q u u' a ha => ?_⟩
  · have latest : v.past = future.reverse ++ m :: past.reverse := by
      simpa using congrArg List.reverse split
    rw [latest] at tracked
    obtain ⟨⟨ds, marked⟩, innermost⟩ := tracked.split
    rw [List.reverse_reverse] at marked innermost
    refine ⟨ds, marked, innermost, fun c n => ?_⟩
    have reachable : Reachable m.world :=
      ⟨lang, depth, α, p, s, o, v.plain, v.past.reverse, run, by simp [split]⟩
    have named : (∃ d ∈ ds, d.name = n) ↔ n ∈ m.world.marks := by
      rw [← marked.names, List.mem_map]
    rw [Lookup.getBean_refuses_iff, named, Container.hasDefinition, Option.isSome_iff_exists]
    refine and_congr_right fun free => ⟨?_, ?_⟩
    · rintro ⟨d, hd, _, hm⟩
      exact ⟨⟨d, hd⟩, hm⟩
    · rintro ⟨⟨d, hd⟩, hm⟩
      exact ⟨d, hd, (reachable.orderly c).uncreated n d free hd, hm⟩
  · obtain ⟨u, rfl, hu⟩ := steady_of_answer (Bracketed.steady lang) ha
    exact hu.marks

/-- User code whose only factory asks for its own bean. -/
def selfAsking (name : String) : Language Unit Unit where
  run _
    | .make c => .request (.getBean c name)
    | _ => .fail (.illegalState name)
  describe _ := name

theorem marks_exact_selfAsking : ∃ w' past m future,
    (defineAndGet ⟨0⟩ "a").history (selfAsking "a") 2 (.initial ()) =
      some (.error (.currentlyInCreation "a"), w', past ++ m :: future) ∧
    m.world.marks = ["a"] ∧ w'.marks = [] ∧
    ∀ user, Lookup.getBean user ⟨0⟩ "a" m.world =
      some (.error (.currentlyInCreation "a"), m.world) := by
  have run : ∃ w' m₁ m₂ m₃ m₄ m future,
      (defineAndGet ⟨0⟩ "a").history (selfAsking "a") 2 (.initial ()) =
        some (.error (.currentlyInCreation "a"), w', [m₁, m₂, m₃, m₄] ++ m :: future) ∧
      m.world.marks = ["a"] ∧ (m.world.container ⟨0⟩).singleton? "a" = none ∧
      (m.world.container ⟨0⟩).hasDefinition "a" = true :=
    ⟨_, _, _, _, _, _, _, rfl, rfl, rfl, rfl⟩
  obtain ⟨w', m₁, m₂, m₃, m₄, m, future, run, marks, free, defined⟩ := run
  obtain ⟨moments, _, ended, _⟩ := marks_exact _ _ _ _ _ _ _ run
  obtain ⟨ds, marked, _, refuses⟩ := moments _ m future rfl
  have created : "a" ∈ ds.map (·.name) := by simp [marked.names, marks]
  exact ⟨w', _, m, future, run, marks, ended,
    (refuses ⟨0⟩ "a").mpr ⟨free, defined, List.mem_map.mp created⟩⟩

end Wiring
