import Mathlib.Data.Fintype.Card
import Mathlib.Data.Fintype.Fin
import Mathlib.Logic.Relation
import Wiring.Proofs.Targets

namespace Wiring

variable {C S α : Type}

namespace World

/-- Where a reference can lead: to the bean of its name, to the bean of any name whose definition is of its
type, or to what user code has given it. -/
def leads (w : World C S) (x : BeanId) : List BeanId :=
  match w.bean? x with
  | some (.early r) =>
    match r.creator.registry, r.target with
    | .container c, .named n _ => ((w.container c).singleton? n).toList
    | .container c, .dependency d => (w.container c).definitions.filterMap fun e =>
      if e.type.isAssignableTo d.type then (w.container c).singleton? e.name else none
    | .custom _, _ => r.resolved.toList
  | _ => []

/-- No names lead from a bean back to it. -/
def Straight (w : World C S) : Prop := ∀ x, ¬Relation.TransGen (fun x t => t ∈ w.leads x) x x

/-- A call on the reference is passed on to the bean. -/
def Forwards (w : World C S) (call : Call BeanId) (x t : BeanId) : Prop :=
  ∃ r, w.bean? x = some (.early r) ∧ r.resolved = some t ∧
    r.routes.route call.method = .delegate ∧ r.routes.route dereferenceMethod = .dereference

theorem early_of_target? {w : World C S} {x t : BeanId} (h : w.target? x = some t) :
    ∃ r, w.bean? x = some (.early r) ∧ r.resolved = some t := by
  unfold target? at h
  obtain ⟨v, hv, h⟩ := Option.bind_eq_some_iff.mp h
  obtain ⟨r, hr, h⟩ := Option.bind_eq_some_iff.mp h
  cases v with
  | object type code => cases hr
  | early r' =>
    cases hr
    exact ⟨_, hv, h⟩

theorem target?_of_early {w : World C S} {x t : BeanId} {r : EarlyReference C}
    (early : w.bean? x = some (.early r)) (resolved : r.resolved = some t) :
    w.target? x = some t := by
  simp [target?, early, Bean.early?, resolved]

theorem Forwards.target? {w : World C S} {call : Call BeanId} {x t : BeanId}
    (h : w.Forwards call x t) : w.target? x = some t := by
  obtain ⟨r, early, resolved, _⟩ := h
  exact target?_of_early early resolved

theorem straight_of_rank {w : World C S} (rank : BeanId → Nat)
    (h : ∀ x, ∀ t ∈ w.leads x, rank t < rank x) : w.Straight := by
  have falls (x y : BeanId) (path : Relation.TransGen (fun x t => t ∈ w.leads x) x y) :
      rank y < rank x := by
    induction path with
    | single step => exact h x _ step
    | tail _ step ih => exact (h _ _ step).trans ih
  exact fun x circle => absurd (falls x x circle) (Nat.lt_irrefl _)

/-- Only a reference leads anywhere. -/
theorem leads_of_not_early {w : World C S} {x : BeanId}
    (h : ∀ r, w.bean? x ≠ some (.early r)) : w.leads x = [] := by
  unfold leads
  split
  · rename_i r early
    exact absurd early (h r)
  · rfl

/-- No reference has the name of a definition, references by name are for such names, and user code gives
no references. -/
structure Unaliased (w : World C S) : Prop where
  defined : ∀ c, ∀ d ∈ (w.container c).definitions, ∀ t r,
    (w.container c).singleton? d.name = some t → w.bean? t ≠ some (.early r)
  named : ∀ x r c n type, w.bean? x = some (.early r) → r.creator.registry = .container c →
    r.target = .named n type → ∃ d ∈ (w.container c).definitions, d.name = n
  given : ∀ x r code t r', w.bean? x = some (.early r) → r.creator.registry = .custom code →
    r.resolved = some t → w.bean? t ≠ some (.early r')

/-- A circle takes a reference that was put under a name which is looked up. -/
theorem Unaliased.straight {w : World C S} (h : w.Unaliased) : w.Straight := by
  have object (x t : BeanId) (step : t ∈ w.leads x) (r' : EarlyReference C) :
      w.bean? t ≠ some (.early r') := by
    unfold leads at step
    split at step
    case h_1 r early =>
      split at step
      case h_1 c n type registry target =>
        obtain ⟨d, mem, rfl⟩ := h.named x r c n type early registry target
        exact h.defined c d mem t r' (Option.mem_toList.mp step)
      case h_2 c d registry target =>
        obtain ⟨e, mem, standing⟩ := List.mem_filterMap.mp step
        split at standing
        · exact h.defined c e mem t r' standing
        · cases standing
      case h_3 code registry =>
        exact h.given x r code t r' early registry (Option.mem_toList.mp step)
    case h_2 => cases step
  intro x circle
  obtain ⟨y, _, back⟩ := Relation.TransGen.tail'_iff.mp circle
  obtain ⟨t, on, _⟩ := Relation.TransGen.head'_iff.mp circle
  rw [leads_of_not_early (object y x back)] at on
  cases on

end World

/-- A target that is a reference itself is where the names lead now. -/
theorem Reachable.leads {w : World C S} (h : Reachable w) {x t : BeanId} {r : EarlyReference C}
    (target : w.target? x = some t) (early : w.bean? t = some (.early r)) : t ∈ w.leads x := by
  obtain ⟨r', early', resolved⟩ := World.early_of_target? target
  have traced := h.traced x r' t early' resolved
  simp only [World.leads, early']
  cases registry : r'.creator.registry with
  | custom code => simp [resolved]
  | container c =>
    rw [registry] at traced
    cases sought : r'.target with
    | named n type =>
      rw [sought] at traced
      exact Option.mem_toList.mpr traced
    | dependency d =>
      rw [sought] at traced
      obtain ⟨n, ht, stands⟩ := traced
      cases stands with
      | object own code bean _ =>
        rw [early] at bean
        cases bean
      | defined e mem name fits =>
        exact List.mem_filterMap.mpr ⟨e, mem, by rw [if_pos fits, name, ht]⟩

/-- A circle of targets is one of names. -/
theorem Reachable.acyclic {w : World C S} (h : Reachable w) (straight : w.Straight) (x : BeanId) :
    ¬Relation.TransGen (fun x t => w.target? x = some t) x x := by
  have along (y z : BeanId) (path : Relation.TransGen (fun x t => w.target? x = some t) y z) :
      ∀ r, w.bean? z = some (.early r) → Relation.TransGen (fun x t => t ∈ w.leads x) y z := by
    induction path with
    | single step => exact fun r early => .single (h.leads step early)
    | tail _ step ih =>
      intro r early
      -- The bean before the last has a target, so it is a reference.
      obtain ⟨r', early', _⟩ := World.early_of_target? step
      exact (ih r' early').tail (h.leads step early)
  intro circle
  obtain ⟨y, first, _⟩ := Relation.TransGen.head'_iff.mp circle
  obtain ⟨r, early, _⟩ := World.early_of_target? first
  exact straight x (along x x circle r early)

/-- What is numbered and leads in no circle comes to an end. -/
private theorem wellFounded_of_acyclic (next : BeanId → Option BeanId) (size : Nat)
    (bounded : ∀ x t, next x = some t → x.index < size)
    (acyclic : ∀ x, ¬Relation.TransGen (fun x t => next x = some t) x x) :
    WellFounded fun t x => next x = some t := by
  let below (i j : Fin size) : Prop := Relation.TransGen (fun x t => next x = some t) ⟨j⟩ ⟨i⟩
  have trans : IsTrans (Fin size) below := ⟨fun _ _ _ h k => k.trans h⟩
  have irrefl : Std.Irrefl below := ⟨fun i => acyclic ⟨i⟩⟩
  have wf : WellFounded below := Finite.wellFounded_of_trans_of_irrefl below
  have last (x : BeanId) (hx : ¬x.index < size) : Acc (fun t x => next x = some t) x :=
    ⟨x, fun t ht => absurd (bounded x t ht) hx⟩
  have inside (i : Fin size) : Acc (fun t x => next x = some t) ⟨i⟩ := by
    induction i using wf.induction with
    | _ i ih =>
      refine ⟨_, fun t ht => ?_⟩
      by_cases hx : t.index < size
      · exact ih ⟨t.index, hx⟩ (.single ht)
      · exact last t hx
  refine ⟨fun x => ?_⟩
  by_cases hx : x.index < size
  · exact inside ⟨x.index, hx⟩
  · exact last x hx

theorem Reachable.target_wellFounded {w : World C S} (h : Reachable w) (straight : w.Straight) :
    WellFounded fun t x => w.target? x = some t := by
  refine wellFounded_of_acyclic w.target? w.beans.size (fun x t target => ?_) (h.acyclic straight)
  obtain ⟨r, early, _⟩ := World.early_of_target? target
  exact (Array.getElem?_eq_some_iff.mp early).1

/-- A call that is passed on comes to what the call on the target does, one request further in. -/
theorem answer_invoke_forwards (lang : Language C S) (depth : Nat) (call : Call BeanId)
    {w : World C S} {x t : BeanId} (h : w.Forwards call x t) :
    answer lang (depth + 1) (.invoke x call) w =
      answer lang depth (.invoke t call) (w.record (.delegating call.method (w.typeName t))) := by
  obtain ⟨r, early, resolved, delegate, dereference⟩ := h
  have found : Reference.dereference (lang.user (answer lang depth)) x r w = some (.ok t, w) := by
    simp only [Reference.dereference, dereference, Reference.onRoute, Reference.findTarget, resolved]
    rfl
  change Bean.invoke (lang.user (answer lang depth)) (answer lang depth) x call w = _
  rw [Bean.invoke, Run.bind_ok _ _ _ _ _ (Run.bean_some x _ w early)]
  simp only [Reference.invoke, delegate]
  rw [Run.bind_ok _ _ _ _ t found]
  rfl

/-- A call goes along the targets to a bean that does not pass it on, and comes to what it does there. -/
theorem answer_invoke_end (lang : Language C S) (call : Call BeanId) {w : World C S}
    (ends : WellFounded fun t x => w.target? x = some t) (depth : Nat) (x : BeanId)
    (trace : Array Event) :
    ∃ k y trace', Relation.ReflTransGen (w.Forwards call) x y ∧ (∀ t, ¬w.Forwards call y t) ∧
      answer lang (depth + k) (.invoke x call) { w with trace } =
        answer lang depth (.invoke y call) { w with trace := trace' } := by
  induction x using ends.induction generalizing trace with
  | _ x ih =>
    by_cases further : ∃ t, w.Forwards call x t
    · obtain ⟨t, forwards⟩ := further
      let passed : Array Event := trace.push (.delegating call.method (w.typeName t))
      have step (depth : Nat) : answer lang (depth + 1) (.invoke x call) { w with trace } =
          answer lang depth (.invoke t call) { w with trace := passed } :=
        answer_invoke_forwards lang depth call forwards
      obtain ⟨k, y, trace', path, last, rest⟩ :=
        ih t forwards.target? passed
      exact ⟨k + 1, y, trace', path.head forwards, last, (step (depth + k)).trans rest⟩
    · exact ⟨0, x, trace, .refl, fun t forwards => further ⟨t, forwards⟩, rfl⟩

/-- A call that is passed on without end is never answered. -/
theorem answer_invoke_endless (lang : Language C S) (call : Call BeanId) (depth : Nat) (x : BeanId)
    (w : World C S)
    (endless : ∀ y, Relation.ReflTransGen (w.Forwards call) x y → ∃ t, w.Forwards call y t) :
    answer lang depth (.invoke x call) w = none := by
  induction depth generalizing x w with
  | zero => rfl
  | succ depth ih =>
    obtain ⟨t, forwards⟩ := endless x .refl
    rw [answer_invoke_forwards lang depth call forwards]
    exact ih t _ fun y path => endless y (path.head forwards)

theorem Later.target? {w w' : World C S} (h : Later w w') {x t : BeanId}
    (target : w.target? x = some t) : w'.target? x = some t := by
  obtain ⟨r, early, resolved⟩ := World.early_of_target? target
  obtain ⟨v, hv, becomes⟩ := h.beans x _ early
  cases becomes with
  | same => exact World.target?_of_early hv resolved
  | pinned _ t' free =>
    rw [resolved] at free
    cases free

/-- At every moment of a run at which no names lead in a circle: whatever references have led to so far are
their targets, and other beans than themselves; every chain of targets comes to an end; and a call of a
reference comes to what it does at a bean that does not pass it on. -/
theorem delegation_ends (lang : Language C S) (depth : Nat) (p : Program C S α) (s : S)
    (w' : World C S) (o : Outcome α) (past future : List (Moment C S)) (m : Moment C S)
    (run : p.history lang depth (.initial s) = some (o, w', past ++ m :: future))
    (straight : m.world.Straight) :
    (∀ m' ∈ past ++ [m], ∀ x r t, m'.Reaches x r t → m.world.target? x = some t ∧ t ≠ x) ∧
    (WellFounded fun t x => m.world.target? x = some t) ∧
    ∀ depth x call, ∃ k y trace, Relation.ReflTransGen (m.world.Forwards call) x y ∧
      (∀ t, ¬m.world.Forwards call y t) ∧
      answer lang (depth + k) (.invoke x call) m.world =
        answer lang depth (.invoke y call) { m.world with trace } := by
  have reachable : Reachable m.world :=
    ⟨lang, depth, α, p, s, o, w', past ++ m :: future, run, by simp⟩
  have ends := reachable.target_wellFounded straight
  refine ⟨fun m' hm' x r t reaches => ?_, ends, fun depth x call => ?_⟩
  · have mem : m' ∈ past ++ m :: future := by
      rcases List.mem_append.mp hm' with hm' | hm'
      · exact List.mem_append_left _ hm'
      · simp [List.mem_singleton.mp hm']
    have coherent := history_coherent run m'.world
      (List.mem_append_left _ (List.mem_map_of_mem mem))
    obtain ⟨r', early, resolved, _⟩ := reaches.leads (history_holds run m' mem) coherent
    have later : Later m'.world m.world := by
      rcases List.mem_append.mp hm' with hm' | hm'
      · obtain ⟨before, after, rfl⟩ := List.append_of_mem hm'
        rw [List.append_assoc] at run
        exact history_later_from run m.world (by simp)
      · rw [List.mem_singleton.mp hm']
        exact .refl _
    have target := later.target? (World.target?_of_early early resolved)
    refine ⟨target, ?_⟩
    rintro rfl
    exact reachable.acyclic straight t (.single target)
  · exact answer_invoke_end lang call ends depth x m.world.trace

/-- Refers to a type, registers the reference under a name, and follows a reference to that name. -/
def aliasing (c : ContainerId) : Program Unit Unit BeanId := do
  let type : BeanType := .interface "app::I"
  let status ← .request .newStatus
  let byType ← .request (.createProxy ⟨.container c, status⟩ ⟨type, none⟩)
  .request (.registerSingleton c "a" byType)
  let byName ← .request (.createMethodProxy ⟨.container c, status⟩ type ⟨"a", some type⟩)
  .request (.dereference byName)

theorem delegation_ends_aliasing : ∃ w' past w w₁,
    (aliasing ⟨0⟩).history (selfRegistering "a") 1 (.initial ()) =
      some (.ok ⟨0⟩, w', past ++ [.answered (.dereference ⟨1⟩) w (.ok ⟨0⟩) w₁]) ∧
    w₁.target? ⟨1⟩ = some ⟨0⟩ ∧ WellFounded fun t x => w₁.target? x = some t := by
  have run : ∃ w' m₁ m₂ m₃ m₄ m₅ m₆ m₇ m₈ m₉ w w₁ r,
      (aliasing ⟨0⟩).history (selfRegistering "a") 1 (.initial ()) =
        some (.ok ⟨0⟩, w', [m₁, m₂, m₃, m₄, m₅, m₆, m₇, m₈, m₉] ++
          [.answered (.dereference ⟨1⟩) w (.ok ⟨0⟩) w₁]) ∧
      w.bean? ⟨1⟩ = some (.early r) ∧ r.type.allMethods = [] ∧
      w₁.beans.size = 2 ∧ w₁.leads ⟨0⟩ = [] ∧ w₁.leads ⟨1⟩ = [⟨0⟩] :=
    ⟨_, _, _, _, _, _, _, _, _, _, _, _, _, rfl, rfl, rfl, rfl, rfl, rfl⟩
  obtain ⟨w', m₁, m₂, m₃, m₄, m₅, m₆, m₇, m₈, m₉, w, w₁, r, run, early, plain, size, first,
    second⟩ := run
  have straight : w₁.Straight := by
    refine World.straight_of_rank (·.index) fun x t ht => ?_
    match x with
    | ⟨0⟩ =>
      rw [first] at ht
      cases ht
    | ⟨1⟩ =>
      rw [second, List.mem_singleton] at ht
      subst ht
      exact Nat.zero_lt_one
    | ⟨i + 2⟩ =>
      have beyond : w₁.bean? ⟨i + 2⟩ = none :=
        Array.getElem?_eq_none (size ▸ Nat.le_add_left 2 i)
      have nowhere : w₁.leads ⟨i + 2⟩ = [] :=
        World.leads_of_not_early fun r early => by rw [beyond] at early; cases early
      rw [nowhere] at ht
      cases ht
  have own : r.Dereferenceable := by
    intro m hm
    rw [plain] at hm
    cases hm
  obtain ⟨targets, ends, _⟩ := delegation_ends _ _ _ _ _ _ _ _ _ run straight
  exact ⟨w', _, w, w₁, run, (targets _ (by simp) ⟨1⟩ r ⟨0⟩ (.dereference w w₁ early own)).1, ends⟩

/-- Refers to a type by type and registers the reference under the name of a definition of that type. -/
def selfAliasing (c : ContainerId) : Program Unit Unit BeanId := do
  let type : BeanType := .interface "app::I"
  .request (.define c { name := "a", type, lazy := true, factory := () })
  let status ← .request .newStatus
  let byType ← .request (.createProxy ⟨.container c, status⟩ ⟨type, none⟩)
  .request (.registerSingleton c "a" byType)
  .request (.dereference byType)

/-- The reference is found under the name, is its own target, and never answers a call. -/
theorem delegation_circular : ∃ w' past w w₁,
    (selfAliasing ⟨0⟩).history (selfRegistering "a") 1 (.initial ()) =
      some (.ok ⟨0⟩, w', past ++ [.answered (.dereference ⟨0⟩) w (.ok ⟨0⟩) w₁]) ∧
    w₁.target? ⟨0⟩ = some ⟨0⟩ ∧
    ∀ depth, answer (selfRegistering "a") depth (.invoke ⟨0⟩ ⟨"run", []⟩) w₁ = none := by
  have run : ∃ w' m₁ m₂ m₃ m₄ m₅ m₆ m₇ m₈ m₉ w w₁,
      (selfAliasing ⟨0⟩).history (selfRegistering "a") 1 (.initial ()) =
        some (.ok ⟨0⟩, w', [m₁, m₂, m₃, m₄, m₅, m₆, m₇, m₈, m₉] ++
          [.answered (.dereference ⟨0⟩) w (.ok ⟨0⟩) w₁]) ∧
      w₁.Forwards ⟨"run", []⟩ ⟨0⟩ ⟨0⟩ :=
    ⟨_, _, _, _, _, _, _, _, _, _, _, _, rfl, _, rfl, rfl, rfl, rfl⟩
  obtain ⟨w', m₁, m₂, m₃, m₄, m₅, m₆, m₇, m₈, m₉, w, w₁, run, forwards⟩ := run
  have stays (y : BeanId) (path : Relation.ReflTransGen (w₁.Forwards ⟨"run", []⟩) ⟨0⟩ y) :
      y = ⟨0⟩ := by
    induction path with
    | refl => rfl
    | tail _ step ih =>
      rw [ih] at step
      exact Option.some.inj (step.target?.symm.trans forwards.target?)
  refine ⟨w', _, w, w₁, run, forwards.target?, fun depth => ?_⟩
  exact answer_invoke_endless _ _ depth ⟨0⟩ w₁ fun y path => ⟨⟨0⟩, stays y path ▸ forwards⟩

end Wiring
