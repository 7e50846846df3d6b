import Wiring.Library

namespace Wiring

/-- A moment at which control passes between user code and the library, with the world then. -/
inductive Moment (C S : Type) where
  | asked (q : Request C) (w : World C S)
  | answered (q : Request C) (before : World C S) (o : Outcome q.Answer) (after : World C S)
  | entered (code : C) (e : Entry C) (w : World C S)
  | left (code : C) (e : Entry C) (before : World C S) (o : Outcome e.Answer) (after : World C S)

def Moment.world {C S : Type} : Moment C S → World C S
  | asked _ w => w
  | answered _ _ _ after => after
  | entered _ _ w => w
  | left _ _ _ _ after => after

/-- The state of user code with the moments so far, the latest first. Neither the library nor user code itself
looks at them. -/
abbrev Noted (C S : Type) := S × List (Moment C S)

namespace World

variable {C S : Type}

/-- The world without the chronicle. -/
def plain (w : World C (Noted C S)) : World C S :=
  ⟨w.containers, w.beans, w.statuses, w.marks, w.trace, w.user.1⟩

def past (w : World C (Noted C S)) : List (Moment C S) := w.user.2

def note (w : World C (Noted C S)) (m : Moment C S) : World C (Noted C S) :=
  { w with user := (w.user.1, m :: w.user.2) }

/-- The world at the start of a chronicle. -/
def chronicled (w : World C S) : World C (Noted C S) :=
  ⟨w.containers, w.beans, w.statuses, w.marks, w.trace, (w.user, [])⟩

/-- The empty world: what there is before anything was asked for. -/
def initial (s : S) : World C S := { user := s }

end World

/-- Notes the moment before a computation and the one after it. -/
def Run.noting {C S α : Type} (start : World C S → Moment C S)
    (finish : World C S → Outcome α → World C S → Moment C S) (r : Run C (Noted C S) α) :
    Run C (Noted C S) α := fun w =>
  match r (w.note (start w.plain)) with
  | none => none
  | some (o, v) => some (o, v.note (finish w.plain o v.plain))

theorem Run.noting_some {C S α : Type} {start : World C S → Moment C S}
    {finish : World C S → Outcome α → World C S → Moment C S} {r : Run C (Noted C S) α}
    {v v₁ : World C (Noted C S)} {o : Outcome α} (h : r (v.note (start v.plain)) = some (o, v₁)) :
    Run.noting start finish r v = some (o, v₁.note (finish v.plain o v₁.plain)) := by
  simp only [Run.noting, h]

theorem Run.noting_cases {C S α : Type} {start : World C S → Moment C S}
    {finish : World C S → Outcome α → World C S → Moment C S} {r : Run C (Noted C S) α}
    {v v' : World C (Noted C S)} {o : Outcome α} (h : Run.noting start finish r v = some (o, v')) :
    ∃ v₁, r (v.note (start v.plain)) = some (o, v₁) ∧ v' = v₁.note (finish v.plain o v₁.plain) := by
  unfold Run.noting at h
  split at h
  · cases h
  · rename_i ran
    cases h
    exact ⟨_, ran, rfl⟩

/-- The program as it runs beside a chronicle. -/
def Program.chronicled {C S α : Type} : Program C S α → Program C (Noted C S) α
  | done o => .done o
  | peek k => .peek fun s => (k s.1).chronicled
  | poke s k => .peek fun n => .poke (s, n.2) k.chronicled
  | ask q k => .ask q fun a => (k a).chronicled

namespace Language

variable {C S : Type}

def chronicled (lang : Language C S) : Language C (Noted C S) where
  run code e := (lang.run code e).chronicled
  describe := lang.describe

/-- User code run with its calls noted. -/
def witnessed (lang : Language C S) (ask : (q : Request C) → Run C (Noted C S) q.Answer) :
    UserCode C (Noted C S) := fun code e =>
  Run.noting (.entered code e) (.left code e) (lang.chronicled.user ask code e)

end Language

/-- Answers a request like `answer`, with all moments noted. -/
def chronicle {C S : Type} (lang : Language C S) :
    Nat → (q : Request C) → Run C (Noted C S) q.Answer
  | 0, _ => fun _ => none
  | depth + 1, q =>
    Run.noting (.asked q) (.answered q)
      (serve lang.chronicled (lang.witnessed (chronicle lang depth)) (chronicle lang depth) q)

/-- The outcome of a computation, the world after it, and all moments on the way in their order. -/
def Run.history {C S α : Type} (r : Run C (Noted C S) α) (w : World C S) :
    Option (Outcome α × World C S × List (Moment C S)) :=
  (r w.chronicled).map fun (o, v) => (o, v.plain, v.past.reverse)

def Program.history {C S α : Type} (lang : Language C S) (depth : Nat) (p : Program C S α)
    (w : World C S) : Option (Outcome α × World C S × List (Moment C S)) :=
  Run.history (p.chronicled.interpret (chronicle lang depth)) w

/-- A world that user code can come to see, at any moment of any run from the empty world, or at the
end of the run. -/
def Reachable {C S : Type} (w : World C S) : Prop :=
  ∃ (lang : Language C S) (depth : Nat) (α : Type) (p : Program C S α) (s : S) (o : Outcome α)
    (final : World C S) (h : List (Moment C S)),
    p.history lang depth (World.initial s) = some (o, final, h) ∧
      w ∈ h.map Moment.world ++ [final]

end Wiring
