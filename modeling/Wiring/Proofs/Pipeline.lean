import Wiring.Proofs.ForwardPhase
import Wiring.Proofs.Stages

namespace Wiring

variable {C S α : Type}

/-- What a pass does for a feature method. -/
inductive Stage (C S : Type) where
  | parameter (source : Source) (index : Nat) (type : BeanType) (x : Deed C S BeanId)
  | body (code : C) (ctx : Context C) (args : List BeanId) (x : Deed C S (Specification C))
  | setSource (source : Source) (s : Specification C) (x : Deed C S (Specification C))
  | validate (s : Specification C) (x : Deed C S Unit)
  | executorType (s : Specification C) (x : Deed C S String)
  | execute (e : Executor C) (s : Specification C) (x : Deed C S Unit)

namespace Stage

def before : Stage C S → World C S
  | parameter _ _ _ x => x.before
  | body _ _ _ x => x.before
  | setSource _ _ x => x.before
  | validate _ x => x.before
  | executorType _ x => x.before
  | execute _ _ x => x.before

def after : Stage C S → World C S
  | parameter _ _ _ x => x.after
  | body _ _ _ x => x.after
  | setSource _ _ x => x.after
  | validate _ x => x.after
  | executorType _ x => x.after
  | execute _ _ x => x.after

/-- The stages for which the flag is set. -/
def guarded : Stage C S → Bool
  | parameter _ _ _ _ => true
  | body _ _ _ _ => true
  | _ => false

/-- The stage was run, and came to what it tells. -/
def Done (lang : Language C S) (user : UserCode C S) (p : Processor C) : Stage C S → Prop
  | parameter source i t x => Bootstrap.Prepares user p (parameterDependency source i t) x
  | body code ctx args x => x.Of (user code (.body ctx args))
  | setSource source s x => Specification.Told user source s x
  | validate s x => Specification.Validated user s x
  | executorType s x => Specification.Typed user s x
  | execute e s x => Specification.Executed lang user p.container e s x

end Stage

/-- The parameters from some index on, prepared in their order up to the first one that fails. -/
inductive Prepared (source : Source) :
    Nat → List BeanType → List (Stage C S) → Outcome (List BeanId) → Prop where
  | all (i : Nat) : Prepared source i [] [] (.ok [])
  | next {i : Nat} {t : BeanType} {rest : List BeanType} {log : List (Stage C S)}
      {o : Outcome (List BeanId)} (w : World C S) (b : BeanId) (w' : World C S)
      (more : Prepared source (i + 1) rest log o) :
      Prepared source i (t :: rest) (.parameter source i t ⟨w, .ok b, w'⟩ :: log) (o.map (b :: ·))
  | failed {i : Nat} {t : BeanType} {rest : List BeanType} (w : World C S) (fault : Fault)
      (w' : World C S) :
      Prepared source i (t :: rest) [.parameter source i t ⟨w, fault.outcome, w'⟩] fault.outcome

/-- The body is entered if all parameters are there. -/
inductive Specified (p : Processor C) (c : Configuration C) (f : Feature C) :
    List (Stage C S) → Outcome (Specification C) → Prop where
  | unprepared {log : List (Stage C S)} (fault : Fault)
      (parameters : Prepared ⟨c.name, f.name⟩ 0 f.parameters log fault.outcome) :
      Specified p c f log fault.outcome
  | entered {log : List (Stage C S)} {args : List BeanId} (x : Deed C S (Specification C))
      (parameters : Prepared ⟨c.name, f.name⟩ 0 f.parameters log (.ok args)) :
      Specified p c f (log ++ [.body f.body ⟨p, c⟩ args x]) x.outcome

/-- A specification is told its source, validated, asked for the type of its executor and executed by the
executor of this type. -/
inductive Applied (p : Processor C) (source : Source) (s : Specification C) :
    List (Stage C S) → Outcome Unit → Prop where
  | unsourced (w : World C S) (fault : Fault) (w' : World C S) :
      Applied p source s [.setSource source s ⟨w, fault.outcome, w'⟩] fault.outcome
  | invalid (w : World C S) (s' : Specification C) (w' v : World C S) (fault : Fault)
      (v' : World C S) : Applied p source s
        [.setSource source s ⟨w, .ok s', w'⟩, .validate s' ⟨v, fault.outcome, v'⟩] fault.outcome
  | untyped (w : World C S) (s' : Specification C) (w' v v' u : World C S) (fault : Fault)
      (u' : World C S) : Applied p source s [.setSource source s ⟨w, .ok s', w'⟩,
        .validate s' ⟨v, .ok (), v'⟩, .executorType s' ⟨u, fault.outcome, u'⟩] fault.outcome
  | unsupported (w : World C S) (s' : Specification C) (w' v v' u : World C S) (type : String)
      (u' : World C S) (unknown : p.executors.get? type = none) : Applied p source s
        [.setSource source s ⟨w, .ok s', w'⟩, .validate s' ⟨v, .ok (), v'⟩,
          .executorType s' ⟨u, .ok type, u'⟩] (.error (.noExecutor type))
  | executed (w : World C S) (s' : Specification C) (w' v v' u : World C S) (type : String)
      (u' : World C S) (e : Executor C) (x : Deed C S Unit)
      (known : p.executors.get? type = some e) : Applied p source s
        [.setSource source s ⟨w, .ok s', w'⟩, .validate s' ⟨v, .ok (), v'⟩,
          .executorType s' ⟨u, .ok type, u'⟩, .execute e s' x] x.outcome

/-- The stages of one feature method, and how it ends. -/
inductive Course (p : Processor C) (c : Configuration C) (f : Feature C) :
    List (Stage C S) → Outcome Unit → Prop where
  | unspecified {log : List (Stage C S)} (fault : Fault)
      (specification : Specified p c f log fault.outcome) : Course p c f log fault.outcome
  | applied {log log' : List (Stage C S)} {s : Specification C} {o : Outcome Unit}
      (specification : Specified p c f log (.ok s))
      (application : Applied p ⟨c.name, f.name⟩ s log' o) : Course p c f (log ++ log') o

/-- How the feature methods of a pass end: all succeed, or one is the first that does not. -/
inductive Fate (C : Type) where
  | done
  | failed (c : Configuration C) (f : Feature C) (e : Error)
  | panicked (text : String)

namespace Fate

/-- A failure is reported as that of the feature method. -/
def outcome : Fate C → Outcome Unit
  | done => .ok ()
  | failed c f e => .error (.featureMethodExecution (Source.mk c.name f.name).display e)
  | panicked text => .panic text

end Fate

/-- Feature methods one after the other, up to the first one that does not succeed. -/
inductive Passes (p : Processor C) :
    List (Configuration C × Feature C) → List (Stage C S) → Fate C → Prop where
  | done : Passes p [] [] .done
  | next {c : Configuration C} {f : Feature C} {rest : List (Configuration C × Feature C)}
      {log log' : List (Stage C S)} {fate : Fate C} (first : Course p c f log (.ok ()))
      (more : Passes p rest log' fate) : Passes p ((c, f) :: rest) (log ++ log') fate
  | failed {c : Configuration C} {f : Feature C} (rest : List (Configuration C × Feature C))
      {log : List (Stage C S)} {e : Error} (first : Course p c f log (.error e)) :
      Passes p ((c, f) :: rest) log (.failed c f e)
  | panicked {c : Configuration C} {f : Feature C} (rest : List (Configuration C × Feature C))
      {log : List (Stage C S)} {text : String} (first : Course p c f log (.panic text)) :
      Passes p ((c, f) :: rest) log (.panicked text)

/-- The feature methods of a processor, in the order of registration and declaration. -/
def Processor.methods (p : Processor C) : List (Configuration C × Feature C) :=
  p.configurations.flatMap fun c => c.features.map fun f => (c, f)

/-- Nothing differs but the flag, and events that came after those from before. -/
def World.Aside (s : StatusId) (w w' : World C S) : Prop :=
  ∃ value events, w' = { w.setCreatingProxies s value with trace := w.trace ++ events }

/-- The stages lead from one world to the other, with nothing else in between. -/
def Linked (s : StatusId) : World C S → List (Stage C S) → World C S → Prop
  | w, [], w' => w.Aside s w'
  | w, x :: rest, w' => w.Aside s x.before ∧ Linked s x.after rest w'

/-- The flag along the stages. A stage for which it is set leaves it as it was; any other one starts with
it as it is. -/
def Flagged (s : StatusId) : Bool → List (Stage C S) → Bool → Prop
  | v, [], v' => v' = v
  | v, x :: rest, v' =>
    if x.guarded then x.before.creatingProxies s = true ∧ Flagged s v rest v'
    else x.before.creatingProxies s = v ∧ Flagged s (x.after.creatingProxies s) rest v'

namespace World.Aside

variable {s : StatusId} {w w₁ w₂ : World C S}

theorem refl (s : StatusId) (w : World C S) : w.Aside s w := by
  refine ⟨w.creatingProxies s, #[], ?_⟩
  rw [setCreatingProxies_self]
  simp

theorem record (s : StatusId) (w : World C S) (e : Event) : w.Aside s (w.record e) := by
  refine ⟨w.creatingProxies s, #[e], ?_⟩
  rw [setCreatingProxies_self]
  simp [World.record]

theorem flag (s : StatusId) (w : World C S) (value : Bool) :
    w.Aside s (w.setCreatingProxies s value) := by
  refine ⟨value, #[], ?_⟩
  simp [setCreatingProxies]

theorem trans (h : w.Aside s w₁) (k : w₁.Aside s w₂) : w.Aside s w₂ := by
  obtain ⟨first, events, rfl⟩ := h
  obtain ⟨second, events', rfl⟩ := k
  refine ⟨second, events ++ events', ?_⟩
  have twice := w.setCreatingProxies_twice s first second
  rw [← twice]
  simp [setCreatingProxies, Array.append_assoc]

end World.Aside

namespace Linked

variable {s : StatusId} {w w₁ w₂ : World C S} {log log' : List (Stage C S)}

theorem before (h : w.Aside s w₁) (k : Linked s w₁ log w₂) : Linked s w log w₂ := by
  cases log with
  | nil => exact h.trans k
  | cons x rest => exact ⟨h.trans k.1, k.2⟩

theorem append (h : Linked s w log w₁) (k : Linked s w₁ log' w₂) : Linked s w (log ++ log') w₂ := by
  induction log generalizing w with
  | nil => exact before h k
  | cons x rest ih => exact ⟨h.1, ih h.2⟩

theorem after (h : Linked s w log w₁) (k : w₁.Aside s w₂) : Linked s w log w₂ := by
  have whole : Linked s w (log ++ []) w₂ := append h k
  rwa [List.append_nil] at whole

end Linked

namespace Flagged

variable {s : StatusId} {v v₁ v₂ : Bool} {log log' : List (Stage C S)}

theorem append (h : Flagged s v log v₁) (k : Flagged s v₁ log' v₂) :
    Flagged s v (log ++ log') v₂ := by
  induction log generalizing v with
  | nil =>
    have same : v₁ = v := h
    exact same ▸ k
  | cons x rest ih =>
    simp only [List.cons_append, Flagged] at h ⊢
    split
    · rename_i hx
      rw [if_pos hx] at h
      exact ⟨h.1, ih h.2⟩
    · rename_i hx
      rw [if_neg hx] at h
      exact ⟨h.1, ih h.2⟩

end Flagged

variable {lang : Language C S} {user : UserCode C S} {p : Processor C}

/-- Part of a pass: its stages lead from one world to the other, and the flag goes along if it exists. -/
structure Stretch (lang : Language C S) (user : UserCode C S) (p : Processor C) (w : World C S)
    (log : List (Stage C S)) (w' : World C S) : Prop where
  done : ∀ x ∈ log, x.Done lang user p
  linked : Linked p.status w log w'
  grows : w.statuses.size ≤ w'.statuses.size
  flagged : p.status.index < w.statuses.size →
    Flagged p.status (w.creatingProxies p.status) log (w'.creatingProxies p.status)

namespace Stretch

variable {w w₁ w₂ : World C S} {log log' : List (Stage C S)}

theorem append (h : Stretch lang user p w log w₁) (k : Stretch lang user p w₁ log' w₂) :
    Stretch lang user p w (log ++ log') w₂ where
  done x hx := (List.mem_append.mp hx).elim (h.done x) (k.done x)
  linked := h.linked.append k.linked
  grows := Nat.le_trans h.grows k.grows
  flagged exist := (h.flagged exist).append (k.flagged (Nat.lt_of_lt_of_le exist h.grows))

theorem refl (w : World C S) : Stretch lang user p w [] w where
  done _ hx := absurd hx List.not_mem_nil
  linked := .refl p.status w
  grows := Nat.le_refl _
  flagged _ := rfl

theorem record (w : World C S) (e : Event) : Stretch lang user p w [] (w.record e) where
  done _ hx := absurd hx List.not_mem_nil
  linked := .record p.status w e
  grows := Nat.le_refl _
  flagged _ := rfl

end Stretch

section Library

variable {w w' : World C S} (hu : ∀ n, CallsSimulated (Self (World.AtLeast n)) user user)

include hu

theorem Stage.Done.grows {x : Stage C S} (h : x.Done lang user p) :
    x.before.statuses.size ≤ x.after.statuses.size := by
  cases x with
  | parameter source i t x =>
    exact Run.Grows.of_simulated
      (fun n _ _ => Bootstrap.parameter_simulated (.atLeast n) (hu n) p _) _ _ _
      (Bootstrap.parameter_iff.mpr h)
  | body code ctx args x => exact Run.Grows.of_simulated (fun n => hu n code _) _ _ _ h
  | setSource source s x =>
    exact Run.Grows.of_simulated
      (fun n _ _ => Specification.setSource_simulated (hu n) source s) _ _ _
      (Specification.setSource_iff.mpr h)
  | validate s x =>
    exact Run.Grows.of_simulated (fun n _ _ => Specification.validate_simulated (hu n) s) _ _ _
      (Specification.validate_iff.mpr h)
  | executorType s x =>
    exact Run.Grows.of_simulated (fun n _ _ => Specification.executorType_simulated (hu n) s) _ _ _
      (Specification.executorType_iff.mpr h)
  | execute e s x =>
    exact Run.Grows.of_simulated
      (fun n _ _ => Specification.applyTo_simulated (.atLeast n) (hu n) _ e s) _ _ _
      (Specification.applyTo_iff.mpr h)

namespace Bootstrap

end Bootstrap

omit hu in
theorem Passes.append {l l' : List (Configuration C × Feature C)} {log log' : List (Stage C S)}
    {fate : Fate C} (h : Passes p l log .done) (k : Passes p l' log' fate) :
    Passes p (l ++ l') (log ++ log') fate := by
  generalize hd : Fate.done = first at h
  induction h with
  | done => exact k
  | next course _ ih =>
    rw [List.append_assoc]
    exact .next course (ih hd)
  | failed | panicked => cases hd

omit hu in
/-- What comes after the first feature method that does not succeed is never begun. -/
theorem Passes.cut {l : List (Configuration C × Feature C)} {log : List (Stage C S)} {fate : Fate C}
    (h : Passes p l log fate) (l' : List (Configuration C × Feature C))
    (stopped : fate ≠ .done) : Passes p (l ++ l') log fate := by
  induction h with
  | done => exact absurd rfl stopped
  | next course _ ih => exact .next course (ih stopped)
  | failed rest course => exact .failed (rest ++ l') course
  | panicked rest course => exact .panicked (rest ++ l') course

namespace Bootstrap

end Bootstrap

end Library

end Wiring
