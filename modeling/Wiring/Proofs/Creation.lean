import Wiring.Proofs.Depth
import Wiring.Proofs.Progress

namespace Wiring

variable {C S α : Type}

/-- The program at most looks at its own state and changes that, and then ends like this. -/
inductive Program.Ends (o : Outcome α) : Program C S α → Prop where
  | done : Ends o (.done o)
  | peek (k : S → Program C S α) (h : ∀ s, Ends o (k s)) : Ends o (.peek k)
  | poke (s : S) (k : Program C S α) (h : Ends o k) : Ends o (.poke s k)

/-- The program looks up these names in turn, fails with the first failure, and otherwise makes an object
of a fitting type and ends with that. -/
inductive Program.Wires (c : ContainerId) (type : BeanType) :
    List String → Program C S BeanId → Prop where
  | peek (names : List String) (k : S → Program C S BeanId) (h : ∀ s, Wires c type names (k s)) :
      Wires c type names (.peek k)
  | poke (names : List String) (s : S) (k : Program C S BeanId) (h : Wires c type names k) :
      Wires c type names (.poke s k)
  | lookUp (n : String) (names : List String) (k : Outcome BeanId → Program C S BeanId)
      (found : ∀ b, Wires c type names (k (.ok b)))
      (failed : ∀ e, (k (.error e)).Ends (.error e)) :
      Wires c type (n :: names) (.ask (.getBean c n) k)
  | make (t : BeanType) (code : C) (k : Outcome BeanId → Program C S BeanId)
      (fits : t.isAssignableTo type = true) (made : ∀ b, (k (.ok b)).Ends (.ok b)) :
      Wires c type [] (.ask (.create t code) k)

theorem Program.Ends.interpret {p : Program C S α} {o : Outcome α} (h : p.Ends o)
    (ask : (q : Request C) → Run C (Noted C S) q.Answer) (v : World C (Noted C S)) :
    ∃ s, p.chronicled.interpret ask v = some (o, { v with user := (s, v.past) }) := by
  induction h generalizing v with
  | done => exact ⟨v.user.1, rfl⟩
  | peek k _ ih => exact ih v.user.1 v
  | poke s k _ ih => exact ih { v with user := (s, v.past) }

section Traversal

variable (start : Container C) (deps : String → List String) (c : ContainerId)

/-- A look-up either brings a bean, after those that it needs, or fails as the traversal does. -/
def Traverses (n : String) (v : World C (Noted C S))
    (r : Option (Outcome BeanId × World C (Noted C S))) : Prop :=
  (∃ b v' order, r = some (.ok b, v') ∧ Advanced start deps (v'.container c) ∧
    Made start deps c v v' order ∧ (v'.container c).singleton? n = some b ∧
    ∀ m ∈ order, Reaches start deps n m) ∨
  ∃ e v', r = some (.error e, v') ∧ v'.marks = v.marks ∧ FirstFailure start deps v.marks n e

/-- The same for a factory of beans of a type, which looks up these names. -/
def Supplies (type : BeanType) (names : List String) (v : World C (Noted C S))
    (r : Option (Outcome BeanId × World C (Noted C S))) : Prop :=
  (∃ b v' order t code, r = some (.ok b, v') ∧ Advanced start deps (v'.container c) ∧
    Made start deps c v v' order ∧ v'.bean? b = some (.object t code) ∧
    t.isAssignableTo type = true ∧ (∀ j ∈ names, (v'.container c).hasSingleton j = true) ∧
    ∀ m ∈ order, ∃ j ∈ names, Reaches start deps j m) ∨
  ∃ e v' before j after, r = some (.error e, v') ∧ v'.marks = v.marks ∧
    names = before ++ j :: after ∧ (∀ i ∈ before, Sound start deps i) ∧
    FirstFailure start deps v.marks j e

variable {start deps c}

/-- A look-up comes before the rest of a factory. -/
private theorem Supplies.cons {type : BeanType} {n : String} {names : List String} {b : BeanId}
    {v v₁ : World C (Noted C S)} {order : List String}
    {r : Option (Outcome BeanId × World C (Noted C S))}
    (ha : Advanced start deps (v₁.container c)) (made : Made start deps c v v₁ order)
    (hb : (v₁.container c).singleton? n = some b)
    (reach : ∀ m ∈ order, Reaches start deps n m) (h : Supplies start deps c type names v₁ r) :
    Supplies start deps c type (n :: names) v r := by
  rcases h with
    ⟨b', v', order', t, code, hr, ha', made', hx, fits, taken, reach'⟩ |
    ⟨e, v', before, j, after, hr, he, split, sound, hf⟩
  · refine .inl ⟨b', v', order ++ order', t, code, hr, ha', made.trans made', hx, fits,
      fun j hj => ?_, fun m hm => ?_⟩
    · rcases List.mem_cons.mp hj with rfl | hj
      · exact (Container.hasSingleton_iff _ j).mpr ⟨b, made'.keeps hb⟩
      · exact taken j hj
    · rcases List.mem_append.mp hm with hm | hm
      · exact ⟨n, List.mem_cons_self, reach m hm⟩
      · obtain ⟨j, hj, hreach⟩ := reach' m hm
        exact ⟨j, List.mem_cons_of_mem n hj, hreach⟩
  · have sound' (i : String) (hi : i ∈ n :: before) : Sound start deps i := by
      rcases List.mem_cons.mp hi with rfl | hi
      · exact ha.sound i b hb
      · exact sound i hi
    have split' : n :: names = (n :: before) ++ j :: after := by rw [split, List.cons_append]
    have hf' : FirstFailure start deps v.marks j e := made.marks ▸ hf
    exact .inr ⟨e, v', n :: before, j, after, hr, he.trans made.marks, split', sound', hf'⟩

/-- A factory that looks up names one after the other, as far as its look-ups traverse. -/
theorem Program.Wires.supplies {type : BeanType} {names : List String} {p : Program C S BeanId}
    (hp : p.Wires c type names) (lang : Language C S) (depth : Nat) (marks : List String)
    (lookUps : ∀ n (v : World C (Noted C S)), v.marks = marks →
      Advanced start deps (v.container c) →
        Traverses start deps c n v (chronicle lang (depth + 1) (.getBean c n) v))
    (v : World C (Noted C S)) (hm : v.marks = marks) (hv : Advanced start deps (v.container c)) :
    Supplies start deps c type names v
      (p.chronicled.interpret (chronicle lang (depth + 1)) v) := by
  induction hp generalizing v with
  | peek names k _ ih => exact ih v.user.1 v hm hv
  | poke names s k _ ih =>
    have first : Made start deps c v { v with user := (s, v.past) } [] :=
      .quiet [] rfl rfl rfl rfl rfl
    rcases ih { v with user := (s, v.past) } hm hv with
      ⟨b, v', order, t, code, hr, ha, made, rest⟩ | failed
    · exact .inl ⟨b, v', order, t, code, hr, ha, first.trans made, rest⟩
    · exact .inr failed
  | lookUp n names k _ failed ih =>
    rcases lookUps n v hm hv with ⟨b, v₁, order, hr, ha, made, hb, reach⟩ | ⟨e, v₁, hr, he, hf⟩
    · have run := Run.followedBy_some _
        (fun a => (k a).chronicled.interpret (chronicle lang (depth + 1))) v v₁ _ hr
      have rest := ih b v₁ (made.marks.trans hm) ha
      exact .cons ha made hb reach (by rwa [← run] at rest)
    · have run := Run.followedBy_some _
        (fun a => (k a).chronicled.interpret (chronicle lang (depth + 1))) v v₁ _ hr
      obtain ⟨s, hs⟩ := (failed e).interpret (chronicle lang (depth + 1)) v₁
      exact .inr ⟨e, _, [], n, names, run.trans hs, he, rfl, nofun, hf⟩
  | make t code k fits made =>
    let b : BeanId := ⟨v.beans.size⟩
    let v₁ := ((v.note (.asked (.create t code) v.plain)).addBean (.object t code)).2
    let v₂ := v₁.note (.answered (.create t code) v.plain (.ok b) v₁.plain)
    have hr : chronicle lang (depth + 1) (.create t code) v = some (.ok b, v₂) := rfl
    obtain ⟨s, hs⟩ := (made b).interpret (chronicle lang (depth + 1)) v₂
    have run := Run.followedBy_some _
      (fun a => (k a).chronicled.interpret (chronicle lang (depth + 1))) v v₂ _ hr
    have hx : v₂.bean? b = some (.object t code) := by
      change (v.beans.push (.object t code))[v.beans.size]? = _
      simp
    have quiet : Made start deps c v { v₂ with user := (s, v₂.past) } [] :=
      .quiet [.answered (.create t code) v.plain (.ok b) v₁.plain, .asked (.create t code) v.plain]
        rfl rfl rfl rfl rfl
    exact .inl ⟨b, _, [], t, code, run.trans hs, hv, quiet, hx, fits, nofun, nofun⟩

/-- The creation of a bean, as far as its factory supplies it. -/
private theorem create_traverses (lang : Language C S) (depth : Nat) (d : Definition C)
    (v : World C (Noted C S)) (hv : Advanced start deps (v.container c))
    (hs : (v.container c).singleton? d.name = none)
    (hd : (v.container c).definition? d.name = some d) (hm : d.name ∉ v.marks)
    (factory : ∀ v₁ : World C (Noted C S), v₁.marks = d.name :: v.marks →
      Advanced start deps (v₁.container c) → Supplies start deps c d.type (deps d.name) v₁
        ((lang.run d.factory (.make c)).chronicled.interpret (chronicle lang depth) v₁)) :
    Traverses start deps c d.name v
      (Lookup.getBean (lang.witnessed (chronicle lang depth)) c d.name v) := by
  have free : start.singleton? d.name = none := hv.free hs
  have hd' : start.definition? d.name = some d := (hv.definitions d.name hs).symm.trans hd
  have hc : d.created = none := hv.orderly.uncreated d.name d hs hd
  rw [Lookup.getBean_create _ c d.name d v hs hd hc hm]
  let v₀ := v.mark d.name
  let v₁ := v₀.note (.entered d.factory (.make c) v₀.plain)
  have entered (o : Outcome BeanId) (v₂ : World C (Noted C S))
      (h : (lang.run d.factory (.make c)).chronicled.interpret (chronicle lang depth) v₁ =
        some (o, v₂)) : lang.witnessed (chronicle lang depth) d.factory (.make c) v₀ =
          some (o, v₂.note (.left d.factory (.make c) v₀.plain o v₂.plain)) := by
    simp only [Language.witnessed, Run.noting, Language.user, Language.chronicled]
    rw [h]
  rcases factory v₁ rfl hv with
    ⟨b, v₂, order, t, code, hr, ha, made, hx, fits, taken, reach⟩ |
    ⟨e, v₂, before, j, after, hr, he, split, sound, hf⟩
  · let v₃ := v₂.note (.left d.factory (.make c) v₀.plain (.ok b) v₂.plain)
    have absent : (v₃.container c).singleton? d.name = none := by
      have new : d.name ∉ order := fun mem => (made.fresh d.name mem).2.2 List.mem_cons_self
      exact (made.rest d.name new).trans hs
    have made' : Made start deps c v₁ v₃ order := made.noted _ rfl
    have current : (v₂.container c).definition? d.name = some d :=
      (ha.definitions d.name absent).trans hd'
    have container : (v₃.complete c d b).container c =
        ((v₂.container c).accept d.serial b).bind d.name b :=
      World.container_complete_free v₃ c d b absent
    have done : Lookup.finish c d (some (.ok b, v₃)) = some (.ok b, v₃.complete c d b) := by
      rw [Lookup.finish_ok c d b (.object t code) v₃ hx fits, absent, Option.getD_none]
    refine .inl ⟨b, v₃.complete c d b, order ++ [d.name], ?_, ?_,
      made'.create hs hm hd' taken b, ?_, fun m mem => ?_⟩
    · rw [entered (.ok b) v₂ hr, done]
    · rw [container]
      exact ha.create d b absent current taken
    · rw [container]
      simp
    · rcases List.mem_append.mp mem with mem | mem
      · obtain ⟨j, hj, hreach⟩ := reach m mem
        exact .head ⟨free, by simp [hd'], hj⟩ hreach
      · obtain rfl := List.mem_singleton.mp mem
        exact .refl
  · let v₃ := v₂.note (.left d.factory (.make c) v₀.plain (.error e) v₂.plain)
    refine .inr ⟨e, v₃.unmark d.name, ?_, ?_,
      .inside v.marks d.name d before j after e free hd' hm split sound hf⟩
    · rw [entered (.error e) v₂ hr]
      rfl
    · have marks : v₂.marks = d.name :: v.marks := he
      change v₂.marks.erase d.name = v.marks
      rw [marks, List.erase_cons_head]

/-- A look-up without the moments before and after it. -/
private theorem lookUp_traverses (lang : Language C S) (depth : Nat) (n : String)
    (v : World C (Noted C S)) (hv : Advanced start deps (v.container c))
    (factory : ∀ d (v₁ : World C (Noted C S)), start.definition? n = some d → n ∉ v.marks →
      v₁.marks = n :: v.marks → Advanced start deps (v₁.container c) →
        Supplies start deps c d.type (deps n) v₁
          ((lang.run d.factory (.make c)).chronicled.interpret (chronicle lang depth) v₁)) :
    Traverses start deps c n v (Lookup.getBean (lang.witnessed (chronicle lang depth)) c n v) := by
  cases hs : (v.container c).singleton? n with
  | some b =>
    have run := Lookup.getBean_registered (lang.witnessed (chronicle lang depth)) c n b v hs
    exact .inl ⟨b, v, [], run, hv, .quiet [] rfl rfl rfl rfl rfl, hs, nofun⟩
  | none =>
    have free : start.singleton? n = none := hv.free hs
    have defined := hv.definitions n hs
    cases hd : (v.container c).definition? n with
    | none =>
      rw [hd] at defined
      have run := Lookup.getBean_unknown (lang.witnessed (chronicle lang depth)) c n v hs hd
      exact .inr ⟨_, v, run, rfl, .unknown v.marks n free defined.symm⟩
    | some d =>
      have hd' : start.definition? n = some d := defined.symm.trans hd
      have hc : d.created = none := hv.orderly.uncreated n d hs hd
      by_cases hm : n ∈ v.marks
      · have run := Lookup.getBean_marked (lang.witnessed (chronicle lang depth)) c n d v hs hd hc hm
        exact .inr ⟨_, v, run, rfl, .cycle v.marks n d free hd' hm⟩
      · obtain rfl : d.name = n := Container.name_of_definition? _ n d hd
        exact create_traverses lang depth d v hv hs hd hm fun v₁ hm₁ ha => factory d v₁ hd' hm hm₁ ha

private theorem Traverses.noted (lang : Language C S) (depth : Nat) (n : String)
    (v : World C (Noted C S))
    (h : Traverses start deps c n (v.note (.asked (.getBean c n) v.plain))
      (Lookup.getBean (lang.witnessed (chronicle lang depth)) c n
        (v.note (.asked (.getBean c n) v.plain)))) :
    Traverses start deps c n v (chronicle lang (depth + 1) (.getBean c n) v) := by
  have whole (o : Outcome BeanId) (v' : World C (Noted C S))
      (h : Lookup.getBean (lang.witnessed (chronicle lang depth)) c n
        (v.note (.asked (.getBean c n) v.plain)) = some (o, v')) :
      chronicle lang (depth + 1) (.getBean c n) v =
        some (o, v'.note (.answered (.getBean c n) v.plain o v'.plain)) := Run.noting_some h
  rcases h with ⟨b, v', order, hr, ha, made, hb, reach⟩ | ⟨e, v', hr, he, hf⟩
  · exact .inl ⟨b, _, order, whole _ v' hr, ha, (made.noted _ rfl).asked _ rfl, hb, reach⟩
  · exact .inr ⟨e, _, whole _ v' hr, he, hf⟩

/-- How many definitions have names that are not on the path. -/
def Container.room (k : Container C) (path : List String) : Nat :=
  ((k.definitions.map (·.name)).filter (· ∉ path)).length

theorem Container.room_le (k : Container C) (path : List String) :
    k.room path ≤ k.definitions.length := by
  have le := List.length_filter_le (· ∉ path) (k.definitions.map (·.name))
  rwa [List.length_map] at le

theorem Container.room_lt (k : Container C) (path : List String) (n : String) (d : Definition C)
    (hd : k.definition? n = some d) (new : n ∉ path) : k.room (n :: path) < k.room path := by
  have mem : n ∈ (k.definitions.map (·.name)).filter (· ∉ path) := by
    refine List.mem_filter.mpr ⟨?_, by simpa using new⟩
    exact List.mem_map.mpr ⟨d, mem_of_definition? k n d hd, name_of_definition? k n d hd⟩
  have split : (k.definitions.map (·.name)).filter (· ∉ n :: path) =
      ((k.definitions.map (·.name)).filter (· ∉ path)).filter (· ≠ n) := by
    rw [List.filter_filter]
    congr 1
    funext m
    simp [not_or]
  unfold room
  rw [split, List.length_filter_lt_length_iff_exists]
  exact ⟨n, mem, by simp⟩

/-- Every look-up traverses, by induction on the depth: a creation takes a name that was not on the path,
and leaves less room for those inside it. -/
theorem lookUp_within (lang : Language C S) (depth : Nat)
    (factories : ∀ n d, start.definition? n = some d →
      (lang.run d.factory (.make c)).Wires c d.type (deps n)) (n : String)
    (v : World C (Noted C S)) (hv : Advanced start deps (v.container c))
    (enough : start.room v.marks ≤ depth) :
    Traverses start deps c n v (Lookup.getBean (lang.witnessed (chronicle lang depth)) c n v) := by
  induction depth generalizing n v with
  | zero =>
    refine lookUp_traverses lang 0 n v hv fun d _ hd hm => ?_
    have room := start.room_lt v.marks n d hd hm
    omega
  | succ depth ih =>
    refine lookUp_traverses lang (depth + 1) n v hv fun d v₁ hd hm hm₁ ha => ?_
    have room := start.room_lt v.marks n d hd hm
    have inside : start.room (n :: v.marks) ≤ depth := by omega
    refine (factories n d hd).supplies lang depth (n :: v.marks) (fun j v' hm' ha' => ?_) v₁ hm₁ ha
    refine Traverses.noted lang depth j v' (ih j _ ha' ?_)
    change start.room v'.marks ≤ depth
    rwa [hm']

theorem getBean_traverses (lang : Language C S) (depth : Nat)
    (factories : ∀ n d, start.definition? n = some d →
      (lang.run d.factory (.make c)).Wires c d.type (deps n)) (n : String)
    (v : World C (Noted C S)) (hv : Advanced start deps (v.container c))
    (enough : start.room v.marks ≤ depth) :
    Traverses start deps c n v (chronicle lang (depth + 1) (.getBean c n) v) :=
  Traverses.noted lang depth n v (lookUp_within lang depth factories n _ hv enough)

end Traversal

/-- What was made contains all that is reached: each name on the way needs only what was registered. -/
theorem Made.reached {start : Container C} {deps : String → List String} {c : ContainerId}
    {v v' : World C (Noted C S)} {order : List String} (h : Made start deps c v v' order)
    (first : v.container c = start) {n m : String} (hm : Reaches start deps n m)
    (hn : (v'.container c).hasSingleton n = true) : (v'.container c).hasSingleton m = true := by
  induction hm with
  | refl => exact hn
  | @tail x j _ step ih =>
    obtain ⟨free, _, need⟩ := step
    have mem : x ∈ order := by
      by_contra absent
      have taken := ih
      rw [Container.hasSingleton, h.rest x absent, first, free] at taken
      cases taken
    obtain ⟨pre, post, split⟩ := List.append_of_mem mem
    rcases h.before pre x post split j need with old | new
    · obtain ⟨b, hb⟩ := (Container.hasSingleton_iff _ j).mp old
      exact (Container.hasSingleton_iff _ j).mpr ⟨b, h.keeps hb⟩
    · exact (h.fresh j (by rw [split]; exact List.mem_append_left _ new)).2.1

/-- What a look-up that succeeds has built by the second world: the names that it came across and that
were not registered, in an order of registration in which each comes after its needs, and by just one
run of its factory each. -/
structure Built (deps : String → List String) (c : ContainerId) (n : String) (w w' : World C S)
    (moments : List (Moment C S)) (order : List String) : Prop where
  nodup : order.Nodup
  mem_iff : ∀ m, m ∈ order ↔
    Reaches (w.container c) deps n m ∧ (w.container c).singleton? m = none
  new_iff : ∀ c' m, (w.container c').singleton? m = none ∧ (w'.container c').hasSingleton m = true ↔
    c' = c ∧ m ∈ order
  trace : w'.trace = w.trace ++ (order.map Event.registeredSingleton).toArray
  before : ∀ pre m post, order = pre ++ m :: post →
    ∀ j ∈ deps m, (w.container c).hasSingleton j = true ∨ j ∈ pre
  runs : (moments.filterMap Moment.creation?).Perm (order.filterMap ((w.container c).creation c))

theorem Made.built {deps : String → List String} {c : ContainerId} {n : String} {w : World C S}
    {v : World C (Noted C S)} {order : List String}
    (h : Made (w.container c) deps c w.chronicled v order)
    (reach : ∀ m ∈ order, Reaches (w.container c) deps n m)
    (taken : (v.container c).hasSingleton n = true) :
    Built deps c n w v.plain v.past.reverse order where
  nodup := h.nodup
  mem_iff m := by
    refine ⟨fun mem => ⟨reach m mem, (h.fresh m mem).1⟩, fun ⟨hm, free⟩ => ?_⟩
    by_contra absent
    have taken' := h.reached rfl hm taken
    have free' : (w.chronicled.container c).singleton? m = none := free
    simp [Container.hasSingleton, h.rest m absent, free'] at taken'
  new_iff c' m := by
    constructor
    · rintro ⟨free, new⟩
      have free' : (w.chronicled.container c').singleton? m = none := free
      rw [World.plain_container] at new
      obtain rfl : c' = c := by
        by_contra hc
        simp [Container.hasSingleton, h.others c' hc, free'] at new
      refine ⟨rfl, ?_⟩
      by_contra absent
      simp [Container.hasSingleton, h.rest m absent, free'] at new
    · rintro ⟨rfl, mem⟩
      exact ⟨(h.fresh m mem).1, (h.fresh m mem).2.1⟩
  trace := h.trace
  before := h.before
  runs := by
    obtain ⟨new, hp, hperm⟩ := h.runs
    have past : v.past = new := by rw [hp, World.past_chronicled, List.append_nil]
    rw [past]
    exact (new.reverse_perm.filterMap _).trans hperm

/-- In a reachable world without marks, a look-up by name over factories that look up fixed names ends,
and in the same way within every depth above the number of definitions. It leaves no marks. It succeeds
exactly if all names that it comes across are known and none comes across itself, and has then built what
was missing of them; it fails exactly with the first failure of the depth-first traversal. -/
theorem creation_exact (lang : Language C S) (w : World C S) (hw : Reachable w) (c : ContainerId)
    (deps : String → List String)
    (factories : ∀ n d, (w.container c).definition? n = some d →
      (lang.run d.factory (.make c)).Wires c d.type (deps n))
    (idle : w.marks = []) (n : String) :
    ∃ o w' moments,
      (∀ depth, (w.container c).definitions.length < depth →
        answer lang depth (.getBean c n) w = some (o, w') ∧
        (Program.request (.getBean c n)).history lang depth w = some (o, w', moments)) ∧
      (∀ text, o ≠ .panic text) ∧ w'.marks = [] ∧
      ((∃ b, o = .ok b) ↔
        (∀ m, Reaches (w.container c) deps n m → (w.container c).hasBean m = true) ∧
        ∀ m, Reaches (w.container c) deps n m → ¬Cyclic (w.container c) deps m) ∧
      (∀ b, o = .ok b → (w'.container c).singleton? n = some b ∧
        ∃ order, Built deps c n w w' moments order) ∧
      ∀ e, o = .error e ↔ FirstFailure (w.container c) deps [] n e := by
  have start : Advanced (w.container c) deps (w.container c) := .refl deps (hw.orderly c)
  have run (o : Outcome BeanId) (v : World C (Noted C S))
      (hr : chronicle lang ((w.container c).definitions.length + 1) (.getBean c n) w.chronicled =
        some (o, v)) (depth : Nat) (enough : (w.container c).definitions.length < depth) :=
    history_of_chronicle (chronicle_mono lang enough (.getBean c n) w.chronicled _ hr)
  rcases getBean_traverses lang _ factories n w.chronicled start (Container.room_le _ w.marks) with
    ⟨b, v, order, hr, ha, made, hb, reach⟩ | ⟨e, v, hr, he, hf⟩
  · have sound : Sound (w.container c) deps n := ha.sound n b hb
    have taken : (v.container c).hasSingleton n = true :=
      (Container.hasSingleton_iff _ n).mpr ⟨b, hb⟩
    refine ⟨.ok b, v.plain, v.past.reverse, run _ v hr, nofun, made.marks.trans idle, ?_, ?_,
      fun e => ⟨nofun, ?_⟩⟩
    · refine ⟨fun _ => ⟨fun m hm => ?_, fun m hm => ?_⟩, fun _ => ⟨b, rfl⟩⟩
      · exact (sound.reaches hm).known
      · exact (sound.reaches hm).acyclic
    · rintro b' ⟨⟩
      exact ⟨hb, order, made.built reach taken⟩
    · intro hf
      exact absurd sound (hf.not_sound nofun)
  · have hf' : FirstFailure (w.container c) deps [] n e := idle ▸ hf
    obtain ⟨m, hm, why⟩ := hf'.reason nofun
    refine ⟨.error e, v.plain, v.past.reverse, run _ v hr, nofun, he.trans idle, ⟨?_, ?_⟩, nofun,
      fun e' => ⟨?_, ?_⟩⟩
    · rintro ⟨b, h⟩
      cases h
    · rintro ⟨known, acyclic⟩
      rcases why with unknown | cyclic
      · rw [known m hm] at unknown
        cases unknown
      · exact absurd cyclic (acyclic m hm)
    · rintro ⟨⟩
      exact hf'
    · intro other
      rw [hf'.unique other nofun]

/-- User code whose factories are the lists of the names that they look up. -/
def wiring (type : BeanType) : Language (List String) Unit where
  run names
    | .make c => wire c names
    | _ => .fail (.illegalState type.name)
  describe _ := type.name
where
  wire (c : ContainerId) : List String → Program (List String) Unit BeanId
    | [] => .request (.create type [])
    | n :: names => do
      let _ ← .request (.getBean c n)
      wire c names

theorem wire_wires (type : BeanType) (c : ContainerId) (names : List String)
    (h : type.isAssignableTo type = true) : (wiring.wire type c names).Wires c type names := by
  induction names with
  | nil => exact .make type [] _ h fun _ => .done
  | cons n names ih => exact .lookUp n names _ (fun _ => ih) fun _ => .done

/-- Two definitions, of which the first needs the second. -/
def twoDefinitions (type : BeanType) (c : ContainerId) (first second : String) :
    Program (List String) Unit Unit := do
  .request (.define c { name := first, type, factory := [second] })
  .request (.define c { name := second, type, factory := [] })

/-- The world after them. -/
def twoDefined (type : BeanType) (c : ContainerId) (first second : String) :
    World (List String) Unit :=
  ((World.initial ()).define c { name := first, type, factory := [second] }).define c
    { name := second, type, factory := [] }

theorem creation_exact_twoDefined : ∃ w' moments order,
    answer (wiring (.interface "T")) 3 (.getBean ⟨0⟩ "a")
      (twoDefined (.interface "T") ⟨0⟩ "a" "b") = some (.ok ⟨1⟩, w') ∧
    Built (fun n => if n = "a" then ["b"] else []) ⟨0⟩ "a"
      (twoDefined (.interface "T") ⟨0⟩ "a" "b") w' moments order := by
  have reachable : Reachable (twoDefined (.interface "T") ⟨0⟩ "a" "b") :=
    ⟨wiring (.interface "T"), 1, Unit, twoDefinitions (.interface "T") ⟨0⟩ "a" "b", (), .ok (), _, _,
      rfl, List.mem_append_right _ (List.mem_singleton_self _)⟩
  obtain ⟨o, w', moments, runs, _, _, _, built, _⟩ := creation_exact (wiring (.interface "T"))
    (twoDefined (.interface "T") ⟨0⟩ "a" "b") reachable ⟨0⟩ (fun n => if n = "a" then ["b"] else [])
    (fun n d hd => by
      have name := Container.name_of_definition? _ n d hd
      have mem := Container.mem_of_definition? _ n d hd
      subst name
      rcases List.mem_cons.mp mem with rfl | mem
      · exact wire_wires (.interface "T") ⟨0⟩ [] rfl
      · obtain rfl := List.mem_singleton.mp mem
        exact wire_wires (.interface "T") ⟨0⟩ ["b"] rfl)
    rfl "a"
  have run := (runs 3 (by decide)).1
  have ok : answer (wiring (.interface "T")) 3 (.getBean ⟨0⟩ "a")
      (twoDefined (.interface "T") ⟨0⟩ "a" "b") = some (.ok ⟨1⟩, w') := by
    cases run
    rfl
  rw [run] at ok
  cases ok
  obtain ⟨_, order, hb⟩ := built ⟨1⟩ rfl
  exact ⟨w', moments, order, run, hb⟩

end Wiring
