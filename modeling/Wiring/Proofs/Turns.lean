import Wiring.Proofs.Lookup

namespace Wiring

variable {C S α : Type}

/-- A computation that was begun in one world and has ended in another. -/
structure Deed (C S α : Type) where
  before : World C S
  outcome : Outcome α
  after : World C S

def Deed.Of (x : Deed C S α) (r : Run C S α) : Prop := r x.before = some (x.outcome, x.after)

def Outcome.map {β : Type} (f : α → β) : Outcome α → Outcome β
  | ok a => .ok (f a)
  | error e => .error e
  | panic text => .panic text

theorem Outcome.eq_of_map_fault {β : Type} {f : α → β} {a : Outcome α} {fault : Fault}
    (h : a.map f = fault.outcome) : a = fault.outcome := by
  cases a <;> cases fault <;> cases h <;> rfl

/-- The loop has something to create under this name: its definition is not lazy, and it is free. -/
def Container.Wanted (k : Container C) (n : String) : Prop :=
  (∃ d, k.definition? n = some d ∧ d.lazy = false) ∧ k.singleton? n = none

/-- The turn of a name. -/
structure Turn (C S : Type) extends Deed C S Unit where
  name : String

/-- Turns one after the other, from one world to another. -/
def Turn.Chain : World C S → List (Turn C S) → World C S → Prop
  | w, [], w' => w' = w
  | w, t :: rest, w' => t.before = w ∧ Chain t.after rest w'

/-- What the turn of a name does: a bean that is wanted then is looked up, and else nothing is done. -/
inductive Turn.Made (user : UserCode C S) (c : ContainerId) : Turn C S → Prop where
  | looked (w : World C S) (n : String) (a : Outcome BeanId) (w' : World C S)
      (wanted : (w.container c).Wanted n)
      (answered : Lookup.Answered user c n (w.record (.preinstantiating n)) a w') :
      Made user c ⟨⟨w, a.map fun _ => (), w'⟩, n⟩
  | skipped (w : World C S) (n : String) (unwanted : ¬(w.container c).Wanted n) :
      Made user c ⟨⟨w, .ok (), w⟩, n⟩

namespace Lookup

variable (user : UserCode C S) {c : ContainerId} {n : String} {w w' : World C S}

theorem wanted_iff : (((w.container c).definition? n).any (!·.lazy) &&
    !(w.container c).hasSingleton n) = true ↔ (w.container c).Wanted n := by
  simp [Container.Wanted, Container.hasSingleton, Option.any_eq_true]

theorem preinstantiateOne_unwanted (h : ¬(w.container c).Wanted n) :
    preinstantiateOne user c n w = some (.ok (), w) := by
  rw [← wanted_iff] at h
  rw [preinstantiateOne, Run.get_bind, if_neg h]
  rfl

/-- The turn of a name that is wanted is a look-up of it. -/
theorem preinstantiateOne_wanted (h : (w.container c).Wanted n) : preinstantiateOne user c n w =
    (getBean user c n (w.record (.preinstantiating n))).map fun x => (x.1.map fun _ => (), x.2) := by
  rw [preinstantiateOne, Run.get_bind, if_pos (wanted_iff.mpr h)]
  rw [Run.bind_ok _ _ _ (w.record (.preinstantiating n)) () rfl]
  rcases found : getBean user c n (w.record (.preinstantiating n)) with _ | ⟨a, w₁⟩
  · exact Run.bind_none _ _ _ found
  · rcases a.ok_or_fault with ⟨b, rfl⟩ | ⟨fault, rfl⟩
    · exact Run.bind_ok _ _ _ _ b found
    · rw [Run.bind_fault _ _ _ _ fault found]
      cases fault <;> rfl

theorem preinstantiateEach_turns {names : List String} {o : Outcome Unit}
    (h : preinstantiateEach user c names w = some (o, w')) : ∃ turns : List (Turn C S),
      turns.map (·.name) <+: names ∧ Turn.Chain w turns w' ∧
      (∀ t ∈ turns, t.Of (preinstantiateOne user c t.name)) ∧
      (o = .ok () ∧ turns.map (·.name) = names ∧ (∀ t ∈ turns, t.outcome = .ok ()) ∨
        ∃ (fault : Fault) (before : List (Turn C S)) (t : Turn C S), o = fault.outcome ∧
          turns = before ++ [t] ∧ t.outcome = fault.outcome ∧ t.after = w' ∧
          ∀ s ∈ before, s.outcome = .ok ()) := by
  induction names generalizing w with
  | nil =>
    cases h
    exact ⟨[], List.prefix_rfl, rfl, fun _ ht => absurd ht List.not_mem_nil,
      .inl ⟨rfl, rfl, fun _ ht => absurd ht List.not_mem_nil⟩⟩
  | cons n rest ih =>
    rcases Run.bind_cases _ _ _ _ _ h with ⟨⟨⟩, w₁, first, more⟩ | ⟨fault, first, rfl⟩
    · obtain ⟨turns, part, chain, done, ended⟩ := ih more
      let t : Turn C S := ⟨⟨w, .ok (), w₁⟩, n⟩
      refine ⟨t :: turns, List.cons_prefix_cons.mpr ⟨rfl, part⟩, ⟨rfl, chain⟩,
        List.forall_mem_cons.mpr ⟨first, done⟩, ?_⟩
      rcases ended with ⟨rfl, all, ok⟩ | ⟨fault, before, t', rfl, rfl, failed, last, ok⟩
      · exact .inl ⟨rfl, congrArg (n :: ·) all, List.forall_mem_cons.mpr ⟨rfl, ok⟩⟩
      · exact .inr ⟨fault, t :: before, t', rfl, rfl, failed, last, List.forall_mem_cons.mpr ⟨rfl, ok⟩⟩
    · let t : Turn C S := ⟨⟨w, fault.outcome, w'⟩, n⟩
      exact ⟨[t], List.cons_prefix_cons.mpr ⟨rfl, List.nil_prefix⟩, ⟨rfl, rfl⟩,
        List.forall_mem_singleton.mpr first,
        .inr ⟨fault, [], t, rfl, rfl, rfl, rfl, fun _ hs => absurd hs List.not_mem_nil⟩⟩

variable {user}

end Lookup

end Wiring
