import Wiring.Proofs.Faithful

namespace Wiring

variable {C S α : Type} {lang : Language C S} {depth : Nat} {p : Program C S α} {w w' : World C S}
  {o : Outcome α} {moments : List (Moment C S)}

theorem Parallel.history {R : World C (Noted C S) → World C (Noted C S) → Prop} {r : Run C S α}
    {r' : Run C (Noted C S) α} (h : Parallel R r r' w.chronicled) :
    r w = none ∧ r'.history w = none ∨
      ∃ o v, r w = some (o, v.plain) ∧ r'.history w = some (o, v.plain, v.past.reverse) ∧
        R w.chronicled v := by
  unfold Run.history
  rcases h with ⟨h', h⟩ | ⟨o, v, h', h, ha⟩
  · exact .inl ⟨h, by rw [h', Option.map_none]⟩
  · exact .inr ⟨o, v, h, by rw [h', Option.map_some], ha⟩

theorem Program.parallel {R : World C (Noted C S) → World C (Noted C S) → Prop} (hR : Steady lang R)
    (p : Program C S α) (depth : Nat) (v : World C (Noted C S)) :
    Parallel R (p.interpret (answer lang depth)) (p.chronicled.interpret (chronicle lang depth)) v :=
  .interpret hR (chronicle_parallel hR depth) p v

/-- Every run has a history. -/
theorem history_of_interpret (h : p.interpret (answer lang depth) w = some (o, w')) :
    ∃ moments, p.history lang depth w = some (o, w', moments) := by
  rcases (p.parallel (.trivial lang) depth w.chronicled).history with
    ⟨hr, _⟩ | ⟨o, v, hr, hh, _⟩
  · simp [hr] at h
  · rw [hr] at h
    cases h
    exact ⟨_, hh⟩

/-- Where a run from the empty world ends is reachable. -/
theorem Reachable.of_interpret {s : S} (h : p.interpret (answer lang depth) (.initial s) = some (o, w)) :
    Reachable w := by
  obtain ⟨moments, run⟩ := history_of_interpret h
  exact ⟨lang, depth, α, p, s, o, w, moments, run, List.mem_append_right _ (List.mem_singleton_self w)⟩

/-- A request of its own has the history of its answer. -/
theorem history_of_chronicle {q : Request C} {a : Outcome q.Answer} {v : World C (Noted C S)}
    (h : chronicle lang depth q w.chronicled = some (a, v)) :
    answer lang depth q w = some (a, v.plain) ∧
      (Program.request q).history lang depth w = some (a, v.plain, v.past.reverse) := by
  constructor
  · exact ((chronicle_parallel (.trivial lang) depth q w.chronicled).ended h).1
  · have run := Run.followedBy_some _ (fun a => (Program.done a).chronicled.interpret
      (chronicle lang depth)) w.chronicled v a h
    exact congrArg (Option.map _) run

theorem chronicle_of_history {q : Request C} {a : Outcome q.Answer}
    (h : (Program.request q).history lang depth w = some (a, w', moments)) :
    ∃ v, chronicle lang depth q w.chronicled = some (a, v) ∧ v.plain = w' ∧ v.past.reverse = moments := by
  obtain ⟨⟨_, v⟩, run, hx⟩ := Option.map_eq_some_iff.mp h
  cases hx
  obtain ⟨_, _, asked, last⟩ := Run.followedBy_cases run
  cases last
  exact ⟨v, asked, rfl, rfl⟩

/-- A steady relation holds from the start of a history to its end. -/
theorem steady_of_history {R : World C (Noted C S) → World C (Noted C S) → Prop} (hR : Steady lang R)
    (h : p.history lang depth w = some (o, w', moments)) :
    ∃ v, v.plain = w' ∧ v.past.reverse = moments ∧ R w.chronicled v := by
  rcases (p.parallel hR depth w.chronicled).history with ⟨_, hh⟩ | ⟨o, v, _, hh, hr⟩
  · cases hh.symm.trans h
  · cases hh.symm.trans h
    exact ⟨v, rfl, rfl, hr⟩

/-- A steady relation holds from a request to its answer. -/
theorem steady_of_answer {R : World C (Noted C S) → World C (Noted C S) → Prop} (hR : Steady lang R)
    {q : Request C} {a : Outcome q.Answer} (h : answer lang depth q w = some (a, w')) :
    ∃ v, v.plain = w' ∧ R w.chronicled v := by
  rcases (chronicle_parallel hR depth q w.chronicled).history with ⟨hn, _⟩ | ⟨_, v, hr, _, ha⟩
  · cases hn.symm.trans h
  · cases hr.symm.trans h
    exact ⟨v, rfl, ha⟩

/-- What is kept holds at the end of a history. -/
theorem kept_of_history {P : World C (Noted C S) → Prop} (hP : Kept lang P)
    (start : P w.chronicled) (h : p.history lang depth w = some (o, w', moments)) :
    ∃ v, v.plain = w' ∧ v.past.reverse = moments ∧ P v := by
  obtain ⟨v, hw, hm, ha⟩ := steady_of_history hP.steady h
  exact ⟨v, hw, hm, (ha start).kept⟩

theorem Kept.trivial (lang : Language C S) : Kept lang fun _ => True :=
  ⟨fun _ _ _ _ _ => .intro, fun _ _ _ => .intro, fun _ _ _ _ => .intro⟩

/-- A relation of earlier worlds to later ones, which every change has. -/
structure Onward (T : World C S → World C S → Prop) : Prop where
  refl : ∀ w, T w w
  trans : ∀ w₁ w₂ w₃, T w₁ w₂ → T w₂ w₃ → T w₁ w₃
  changed : ∀ Seen w w', Change Seen w w' → T w w'
  poked : ∀ w s, T w { w with user := s }

theorem Later.onward : Onward (Later (C := C) (S := S)) where
  refl := .refl
  trans _ _ _ h k := h.trans k
  changed _ _ _ h := h.later
  poked _ _ := .of_eq rfl rfl

section Onward

variable {T : World C S → World C S → Prop} (hT : Onward T)

include hT

/-- It holds from a request to its answer. -/
theorem answer_onward {q : Request C} {a : Outcome q.Answer}
    (h : answer lang depth q w = some (a, w')) : T w w' := by
  have kept : Kept lang fun v => T w v.plain :=
    { changed := fun v v' hv _ hc => hT.trans _ _ _ hv (hT.changed _ _ _ hc)
      poked := fun v s hv => hT.trans _ _ _ hv (hT.poked v.plain s)
      noted := fun _ _ hv _ => hv }
  obtain ⟨v, rfl, ha⟩ := steady_of_answer kept.steady h
  exact (ha (hT.refl w)).kept

end Onward

/-- Answering a request loses nothing. -/
theorem answer_later {q : Request C} {a : Outcome q.Answer}
    (h : answer lang depth q w = some (a, w')) : Later w w' := answer_onward Later.onward h

theorem registered_of_answer {c : ContainerId} {n : String} {b : BeanId}
    (h : answer lang depth (.getBean c n) w = some (.ok b, w')) :
    (w'.container c).singleton? n = some b := by
  cases depth with
  | zero => cases h
  | succ depth => exact Lookup.registered_of_getBean _ c n b w w' h

namespace Moment

theorem Holds.world {w : World C S} {m : Moment C S} (h : m.Holds lang w) : m.world = w := by
  cases m with
  | asked => exact h
  | answered | entered | left => exact h.1

end Moment

/-- The worlds so far, the latest first. -/
private def worlds (w : World C S) (v : World C (Noted C S)) : List (World C S) :=
  v.plain :: (v.past.map Moment.world ++ [w])

private theorem pairwise_of_onward {T : World C S → World C S → Prop} (hT : Onward T)
    (w : World C S) (v v' : World C (Noted C S)) (hp : v'.past = v.past) (onward : T v.plain v'.plain)
    (h : (worlds w v).Pairwise fun x y => T y x) : (worlds w v').Pairwise fun x y => T y x := by
  obtain ⟨hv, hrest⟩ := List.pairwise_cons.mp h
  refine List.pairwise_cons.mpr ⟨fun x hx => ?_, by rwa [hp]⟩
  rw [hp] at hx
  exact hT.trans _ _ _ (hv x hx) onward

private theorem kept_pairwise {T : World C S → World C S → Prop} (hT : Onward T)
    (lang : Language C S) (w : World C S) :
    Kept lang fun v => (worlds w v).Pairwise fun x y => T y x where
  changed v v' hv hp hc := pairwise_of_onward hT w v v' hp (hT.changed _ _ _ hc) hv
  poked v s hv := pairwise_of_onward hT w v _ rfl (hT.poked v.plain s) hv
  noted v m hv hm := by
    have hw : m.world = v.plain := hm.world
    change (v.plain :: m.world :: (v.past.map Moment.world ++ [w])).Pairwise _
    rw [hw]
    refine List.pairwise_cons.mpr ⟨fun x hx => ?_, hv⟩
    rcases List.mem_cons.mp hx with rfl | hx
    · exact hT.refl _
    · exact (List.pairwise_cons.mp hv).1 x hx

/-- It holds from any world of a run to any later one. -/
theorem history_onward {T : World C S → World C S → Prop} (hT : Onward T)
    (h : p.history lang depth w = some (o, w', moments)) :
    (w :: moments.map Moment.world ++ [w']).Pairwise T := by
  have start : (worlds w w.chronicled).Pairwise fun x y => T y x := by
    simp [worlds, hT.refl]
  obtain ⟨v, rfl, rfl, hv⟩ := kept_of_history (kept_pairwise hT lang w) start h
  have hr := List.pairwise_reverse.mpr hv
  simpa [worlds] using hr

/-- Nothing is lost from any world of a run to any later one. -/
theorem history_later (h : p.history lang depth w = some (o, w', moments)) :
    (w :: moments.map Moment.world ++ [w']).Pairwise Later := history_onward Later.onward h

/-- Nothing is lost by the end of a run. -/
theorem history_later_final (h : p.history lang depth w = some (o, w', moments)) {v : World C S}
    (hv : v ∈ w :: moments.map Moment.world ++ [w']) : Later v w' := by
  rcases List.mem_append.mp hv with before | last
  · exact (List.pairwise_append.mp (history_later h)).2.2 v before w' (List.mem_singleton_self w')
  · rw [List.mem_singleton.mp last]
    exact .refl w'

theorem history_later_moment (h : p.history lang depth w = some (o, w', moments)) {m : Moment C S}
    (hm : m ∈ moments) : Later m.world w' :=
  history_later_final h (List.mem_cons_of_mem w (List.mem_append_left _ (List.mem_map_of_mem hm)))

/-- Nothing is lost from a moment on. -/
theorem history_later_from {past future : List (Moment C S)} {m : Moment C S}
    (h : p.history lang depth w = some (o, w', past ++ m :: future)) :
    ∀ v ∈ m.world :: future.map Moment.world ++ [w'], Later m.world v := by
  have hp := history_later h
  simp only [List.map_append, List.map_cons, List.append_assoc, List.cons_append] at hp
  obtain ⟨_, rest⟩ := List.pairwise_cons.mp hp
  obtain ⟨_, onward, _⟩ := List.pairwise_append.mp rest
  intro v hv
  rcases List.mem_cons.mp hv with rfl | hv
  · exact .refl _
  · exact (List.pairwise_cons.mp onward).1 v hv

/-- Nothing is lost from one moment to another one on. -/
theorem history_later_between {past future : List (Moment C S)} {m m' : Moment C S}
    (h : p.history lang depth w = some (o, w', past ++ m :: future)) (hm : m' ∈ past ++ [m]) :
    ∀ v ∈ m.world :: future.map Moment.world ++ [w'], Later m'.world v := by
  rcases List.mem_append.mp hm with before | same
  · obtain ⟨first, between, rfl⟩ := List.append_of_mem before
    rw [List.append_assoc, List.cons_append] at h
    intro v hv
    refine history_later_from h v ?_
    rw [List.map_append, List.cons_append, List.append_assoc]
    exact List.mem_cons_of_mem _ (List.mem_append_right _ hv)
  · rw [List.mem_singleton.mp same]
    exact history_later_from h

private theorem kept_holds (lang : Language C S) :
    Kept lang fun v => ∀ m ∈ v.past, m.Holds lang m.world where
  changed v v' hv hp _ := by rwa [hp]
  poked _ _ hv := hv
  noted v m hv hm := by
    intro m' hm'
    rcases List.mem_cons.mp hm' with rfl | hm'
    · rwa [hm.world]
    · exact hv m' hm'

/-- The moments of a history tell what requests and pieces of user code come to. -/
theorem history_holds (h : p.history lang depth w = some (o, w', moments)) :
    ∀ m ∈ moments, m.Holds lang m.world := by
  obtain ⟨v, rfl, rfl, hv⟩ := kept_of_history (kept_holds lang) (fun _ hm => nomatch hm) h
  intro m hm
  exact hv m (List.mem_reverse.mp hm)

/-- What every change of the library and of user code preserves, given what user code has asked for. -/
structure Invariant (I : (Request C → World C S → Prop) → World C S → Prop) : Prop where
  mono : ∀ Seen Seen' w, (∀ q x, Seen q x → Seen' q x) → I Seen w → I Seen' w
  changed : ∀ Seen w w', I Seen w → Change Seen w w' → I Seen w'
  poked : ∀ Seen w s, I Seen w → I Seen { w with user := s }

private theorem kept_invariant {I : (Request C → World C S → Prop) → World C S → Prop} (hI : Invariant I)
    (lang : Language C S) :
    Kept lang fun v => I v.Seen v.plain ∧ ∀ m ∈ v.past, I v.Seen m.world where
  changed v v' hv hp hc := by
    have hs : v'.Seen = v.Seen := by
      funext q x
      simp only [World.Seen, hp]
    rw [hs, hp]
    exact ⟨hI.changed _ _ _ hv.1 hc, hv.2⟩
  poked v s hv := ⟨hI.poked _ _ s hv.1, hv.2⟩
  noted v m hv hm := by
    have hs (q : Request C) (x : World C S) (hx : v.Seen q x) : (v.note m).Seen q x :=
      List.mem_cons_of_mem m hx
    refine ⟨hI.mono _ _ _ hs hv.1, fun m' hm' => ?_⟩
    rcases List.mem_cons.mp hm' with rfl | hm'
    · rw [hm.world]
      exact hI.mono _ _ _ hs hv.1
    · exact hI.mono _ _ _ hs (hv.2 m' hm')

/-- An invariant that holds at the start of a run holds at all its moments and at its end. -/
theorem history_invariant {I : (Request C → World C S → Prop) → World C S → Prop} (hI : Invariant I)
    (start : I (fun _ _ => False) w) (h : p.history lang depth w = some (o, w', moments)) :
    ∀ x ∈ moments.map Moment.world ++ [w'], I (fun q x => Moment.asked q x ∈ moments) x := by
  have first : I w.chronicled.Seen w.chronicled.plain := hI.mono _ _ _ (fun _ _ hx => hx.elim) start
  obtain ⟨v, rfl, rfl, hv, hm⟩ :=
    kept_of_history (kept_invariant hI lang) ⟨first, fun _ h => nomatch h⟩ h
  have hs (q : Request C) (x : World C S) (hx : v.Seen q x) : Moment.asked q x ∈ v.past.reverse :=
    List.mem_reverse.mpr hx
  intro x hx
  rcases List.mem_append.mp hx with hx | hx
  · obtain ⟨m, hmem, rfl⟩ := List.mem_map.mp hx
    exact hI.mono _ _ _ hs (hm m (List.mem_reverse.mp hmem))
  · obtain rfl := List.mem_singleton.mp hx
    exact hI.mono _ _ _ hs hv

/-- An invariant of the single changes that holds of the empty world holds of every world that user
code can come to see. -/
theorem Reachable.invariant {I : World C S → Prop} (start : ∀ s, I (World.initial s))
    (changed : ∀ Seen w w', I w → Change Seen w w' → I w')
    (poked : ∀ w s, I w → I { w with user := s }) (h : Reachable w) : I w := by
  have hI : Invariant fun (_ : Request C → World C S → Prop) w => I w :=
    ⟨fun _ _ _ _ h => h, changed, fun _ => poked⟩
  obtain ⟨lang, depth, α, p, s, o, final, moments, hh, hw⟩ := h
  exact history_invariant hI (start s) hh w hw

end Wiring
