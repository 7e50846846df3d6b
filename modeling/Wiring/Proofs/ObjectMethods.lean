import Wiring.Proofs.Coherence
import Wiring.Proofs.ForwardPhase

namespace Wiring

variable {C S : Type}

def ObjectMethod.name : ObjectMethod → String
  | describe => describeMethod
  | equals => equalsMethod
  | hashCode => hashCodeMethod

/-- What a call of an object method on a reference may come to: a reference, by a producer method of that
name, the description, or a failure. -/
inductive ObjectAnswer (t : BeanType) : Outcome (Value BeanId) → Prop where
  | reference (b : BeanId) : ObjectAnswer t (.ok (.bean b))
  | description : ObjectAnswer t (.ok (.str (earlyDescription t)))
  | refused (e : Error) : ObjectAnswer t (.error e)

/-- A request is answered at once: user code is not called, and no more happens than that references without
targets are made. -/
structure Inert (lang : Language C S) (depth : Nat) (q : Request C) (w : World C S)
    (o : Outcome q.Answer) (w' : World C S) : Prop where
  answered : (Program.request q).history lang depth w = some (o, w', [.asked q w, .answered q w o w'])
  frame : Frame w w'
  flags : w'.statuses = w.statuses
  user : w'.user = w.user

theorem Reachable.routes {w : World C S} (h : Reachable w) {b : BeanId} {r : EarlyReference C}
    (early : w.bean? b = some (.early r)) : r.routes = Routes.forType r.type := by
  obtain ⟨lang, depth, α, p, s, o, final, moments, run, mem⟩ := h
  exact (history_coherent run w mem).routes b r early

namespace Routes

theorem standard_object (m : ObjectMethod) : standard.route m.name = .object m := by cases m <;> rfl

theorem route_object (t : BeanType) (m : ObjectMethod) :
    (forType t).route m.name = .object m ∨ ∃ x, (forType t).route m.name = .produce x := by
  rw [← standard_object]
  exact route_forType_cases t m.name

theorem forward_object (t : BeanType) (m : ObjectMethod) : ((forType t).route m.name).Forward := by
  rcases route_object t m with object | ⟨x, produced⟩
  · rw [object]
    trivial
  · rw [produced]
    trivial

theorem route_object_of_none {t : BeanType} {m : ObjectMethod} (none : t.producers m.name = []) :
    (forType t).route m.name = .object m := by
  rw [route_forType_eq, none]
  exact standard_object m

end Routes

namespace Reference

/-- A producer method called on a reference yields a reference or fails. -/
theorem produce_answers (r : EarlyReference C) (m : Method BeanType) (w : World C S) :
    ∃ o w', produce r m w = some (o, w') ∧ ObjectAnswer r.type o := by
  unfold produce
  rw [Run.get_bind]
  split
  · cases target : producedTarget r.type m with
    | ok target' =>
      obtain ⟨b, w', made⟩ : ∃ b w', make r.creator target' w = some (.ok b, w') := ⟨_, _, rfl⟩
      refine ⟨_, w', Run.bind_ok _ _ w w' b ?_, .reference b⟩
      rw [createMethodProxy, target]
      exact made
    | error e =>
      refine ⟨_, w, Run.bind_error _ _ w w e ?_, .refused e⟩
      rw [createMethodProxy, target]
      rfl
  · exact ⟨_, w, rfl, .refused _⟩

variable (user : UserCode C S) (ask : (q : Request C) → Run C S q.Answer) (b : BeanId)
  (r : EarlyReference C) (args : List (Value BeanId)) (w : World C S)

theorem invoke_answers (routes : r.routes = Routes.forType r.type) (m : ObjectMethod) :
    ∃ o w', invoke user ask b r ⟨m.name, args⟩ w = some (o, w') ∧ ObjectAnswer r.type o := by
  simp only [invoke, routes]
  rcases Routes.route_object r.type m with object | ⟨x, produced⟩
  · simp only [object, onRoute]
    cases m with
    | describe => exact ⟨_, w, rfl, .description⟩
    | equals | hashCode => exact ⟨_, w, rfl, .refused _⟩
  · simp only [produced, onRoute]
    exact produce_answers r x w

theorem invoke_object (m : ObjectMethod) (object : r.routes.route m.name = .object m) :
    invoke user ask b r ⟨m.name, args⟩ w = Run.ofExcept (answerObjectMethod m r.type) w := by
  simp only [invoke, object, onRoute]

end Reference

namespace Bean

variable (user : UserCode C S) (ask : (q : Request C) → Run C S q.Answer) (b : BeanId)
  (r : EarlyReference C) (w : World C S) (early : w.bean? b = some (.early r))

include early

section Any

variable (routes : r.routes = Routes.forType r.type)

include routes

theorem describe_answers : ∃ o w', describe user ask b w = some (o, w') ∧
    (o = .ok (earlyDescription r.type) ∨ ∃ e, o = .error e) := by
  obtain ⟨o, w', called, answer⟩ := Reference.invoke_answers user ask b r [] w routes .describe
  rw [describe, Run.bind_ok _ _ _ _ _ (Run.bean_some b _ w early)]
  cases answer with
  | reference t => exact ⟨_, w', Run.bind_ok _ _ w w' _ called, .inr ⟨_, rfl⟩⟩
  | description => exact ⟨_, w', Run.bind_ok _ _ w w' _ called, .inl rfl⟩
  | refused e => exact ⟨_, w', Run.bind_error _ _ w w' e called, .inr ⟨e, rfl⟩⟩

theorem equals_refused (other : Value BeanId) :
    ∃ e w', equals user ask b other w = some (.error e, w') := by
  obtain ⟨o, w', called, answer⟩ := Reference.invoke_answers user ask b r [other] w routes .equals
  rw [equals, Run.bind_ok _ _ _ _ _ (Run.bean_some b _ w early)]
  cases answer with
  | reference t => exact ⟨_, w', Run.bind_ok _ _ w w' _ called⟩
  | description => exact ⟨_, w', Run.bind_ok _ _ w w' _ called⟩
  | refused e => exact ⟨e, w', Run.bind_error _ _ w w' e called⟩

theorem hashCode_refused : ∃ e w', hashCode user ask b w = some (.error e, w') := by
  obtain ⟨o, w', called, answer⟩ := Reference.invoke_answers user ask b r [] w routes .hashCode
  rw [hashCode, Run.bind_ok _ _ _ _ _ (Run.bean_some b _ w early)]
  cases answer with
  | reference t => exact ⟨_, w', Run.bind_ok _ _ w w' _ called⟩
  | description => exact ⟨_, w', Run.bind_ok _ _ w w' _ called⟩
  | refused e => exact ⟨e, w', Run.bind_error _ _ w w' e called⟩

end Any

theorem invoke_object (m : ObjectMethod) (object : r.routes.route m.name = .object m)
    (args : List (Value BeanId)) :
    invoke user ask b ⟨m.name, args⟩ w = Run.ofExcept (answerObjectMethod m r.type) w := by
  rw [invoke, Run.bind_ok _ _ _ _ _ (Run.bean_some b _ w early)]
  exact Reference.invoke_object user ask b r args w m object

theorem describe_object (object : r.routes.route describeMethod = .object .describe) :
    describe user ask b w = some (.ok (earlyDescription r.type), w) := by
  rw [describe, Run.bind_ok _ _ _ _ _ (Run.bean_some b _ w early)]
  exact Run.bind_ok _ _ w w _ (Reference.invoke_object user ask b r [] w .describe object)

theorem equals_object (object : r.routes.route equalsMethod = .object .equals) {e : Error}
    (refused : answerObjectMethod (β := BeanId) .equals r.type = .error e) (other : Value BeanId) :
    equals user ask b other w = some (.error e, w) := by
  rw [equals, Run.bind_ok _ _ _ _ _ (Run.bean_some b _ w early)]
  apply Run.bind_error
  rw [← ObjectMethod.name, Reference.invoke_object user ask b r _ w .equals object, refused]
  rfl

theorem hashCode_object (object : r.routes.route hashCodeMethod = .object .hashCode) {e : Error}
    (refused : answerObjectMethod (β := BeanId) .hashCode r.type = .error e) :
    hashCode user ask b w = some (.error e, w) := by
  rw [hashCode, Run.bind_ok _ _ _ _ _ (Run.bean_some b _ w early)]
  apply Run.bind_error
  rw [← ObjectMethod.name, Reference.invoke_object user ask b r _ w .hashCode object, refused]
  rfl

end Bean

/-- A request that only makes references, whatever user code there is, is answered at once. -/
theorem inert_of_onlyRefers {lang : Language C S} {depth : Nat} {q : Request C} {w w' : World C S}
    {o : Outcome q.Answer} {beans : q.Answer → List BeanId}
    (refers : ∀ (user : UserCode C (Noted C S)) ask,
      OnlyRefers beans (serve lang.chronicled user ask q) (w.chronicled.note (.asked q w)))
    (h : answer lang (depth + 1) q w = some (o, w')) : Inert lang (depth + 1) q w o w' := by
  obtain ⟨o₁, v, served, frame, flags, user, _⟩ :=
    refers (lang.witnessed (chronicle lang depth)) (chronicle lang depth)
  have noted : chronicle lang (depth + 1) q w.chronicled =
      some (o₁, v.note (.answered q w o₁ v.plain)) := Run.noting_some served
  obtain ⟨answered, history⟩ := history_of_chronicle noted
  cases answered.symm.trans h
  have past : v.past = [.asked q w] := congrArg Prod.snd user
  have moments : (v.note (.answered q w o v.plain)).past.reverse =
      [.asked q w, .answered q w o v.plain] := congrArg (fun l => (_ :: l).reverse) past
  rw [moments] at history
  exact ⟨history, ⟨frame.containers, frame.marks, frame.kept, frame.fresh⟩, flags,
    congrArg Prod.fst user⟩

/-- The object methods of a reference are inert, at any moment of any run: comparing and hashing fail, and
describing either fails or gives the fixed description of the type. Nothing is touched, whatever the type
declares. Where no producer method bears the name, comparing and hashing are refused as unsupported, the
description is given, and a call by name comes to the same with any arguments. -/
theorem object_methods_inert (lang : Language C S) (depth : Nat) (w : World C S) (b : BeanId)
    (r : EarlyReference C) (reachable : Reachable w) (early : w.bean? b = some (.early r)) :
    (∃ o w', Inert lang (depth + 1) (.describe b) w o w' ∧
      (o = .ok ("EarlyBeanReferenceProxy for bean of type " ++ r.type.simpleName) ∨ ∃ e, o = .error e)) ∧
    (∀ other, ∃ e w', Inert lang (depth + 1) (.equals b other) w (.error e) w') ∧
    (∃ e w', Inert lang (depth + 1) (.hashCode b) w (.error e) w') ∧
    (r.type.producers "describe" = [] →
      let text := "EarlyBeanReferenceProxy for bean of type " ++ r.type.simpleName
      answer lang (depth + 1) (.describe b) w = some (.ok text, w) ∧
      ∀ args, answer lang (depth + 1) (.invoke b ⟨"describe", args⟩) w = some (.ok (.str text), w)) ∧
    (r.type.producers "equals" = [] → ∃ text,
      (∀ other, answer lang (depth + 1) (.equals b other) w =
        some (.error (.unsupportedOperation text), w)) ∧
      ∀ args, answer lang (depth + 1) (.invoke b ⟨"equals", args⟩) w =
        some (.error (.unsupportedOperation text), w)) ∧
    (r.type.producers "hash_code" = [] → ∃ text,
      answer lang (depth + 1) (.hashCode b) w = some (.error (.unsupportedOperation text), w) ∧
      ∀ args, answer lang (depth + 1) (.invoke b ⟨"hash_code", args⟩) w =
        some (.error (.unsupportedOperation text), w)) := by
  have routes : r.routes = Routes.forType r.type := reachable.routes early
  have object (m : ObjectMethod) (none : r.type.producers m.name = []) :
      r.routes.route m.name = .object m := by rw [routes, Routes.route_object_of_none none]
  have forward (m : ObjectMethod) : (r.routes.route m.name).Forward := by
    rw [routes]
    exact Routes.forward_object r.type m
  let user := lang.user (answer lang depth)
  let ask := answer lang depth
  have early' (q : Request C) :
      (w.chronicled.note (.asked q w)).bean? b = some (.early r) := early
  refine ⟨?_, fun other => ?_, ?_, fun none => ?_, fun none => ?_, fun none => ?_⟩
  · obtain ⟨o, w', answered, shape⟩ := Bean.describe_answers user ask b r w early routes
    exact ⟨o, w', inert_of_onlyRefers (fun user ask =>
      Bean.describe_onlyRefers user ask b r _ (early' _) (forward .describe)) answered, shape⟩
  · obtain ⟨e, w', answered⟩ := Bean.equals_refused user ask b r w early routes other
    exact ⟨e, w', inert_of_onlyRefers (fun user ask =>
      Bean.equals_onlyRefers user ask b r _ (early' _) other (forward .equals)) answered⟩
  · obtain ⟨e, w', answered⟩ := Bean.hashCode_refused user ask b r w early routes
    exact ⟨e, w', inert_of_onlyRefers (fun user ask =>
      Bean.hashCode_onlyRefers user ask b r _ (early' _) (forward .hashCode)) answered⟩
  · exact ⟨Bean.describe_object user ask b r w early (object .describe none),
      Bean.invoke_object user ask b r w early .describe (object .describe none)⟩
  · exact ⟨_, Bean.equals_object user ask b r w early (object .equals none) rfl,
      Bean.invoke_object user ask b r w early .equals (object .equals none)⟩
  · exact ⟨_, Bean.hashCode_object user ask b r w early (object .hashCode none) rfl,
      Bean.invoke_object user ask b r w early .hashCode (object .hashCode none)⟩

/-- An interface with a producer method where references are compared. -/
def comparable : BeanType :=
  { BeanType.interface "app::C" with methods := [⟨"equals", some (.interface "app::I")⟩] }

/-- A reference to such a type, with the flag on, so that its producer method yields references. -/
def referToComparable : Program Unit Unit BeanId := do
  let s ← .request .newStatus
  let _ ← .request (.setStatus s true)
  .request (.createProxy ⟨.container ⟨0⟩, s⟩ ⟨comparable, none⟩)

theorem object_methods_inert_comparable : ∃ b w,
    referToComparable.interpret (answer (chaining "a" "b") 1) (.initial ()) = some (.ok b, w) ∧
    w.creatingProxies ⟨0⟩ = true ∧
    (∃ e w', Inert (chaining "a" "b") 1 (.equals b (.bean b)) w (.error e) w') ∧
    answer (chaining "a" "b") 1 (.describe b) w =
      some (.ok "EarlyBeanReferenceProxy for bean of type C", w) := by
  obtain ⟨b, w, run⟩ : ∃ b w, referToComparable.interpret (answer (chaining "a" "b") 1) (.initial ()) =
      some (.ok b, w) := ⟨_, _, rfl⟩
  have reachable : Reachable w := .of_interpret run
  cases run
  obtain ⟨_, compared, _, described, _⟩ := object_methods_inert (chaining "a" "b") 0 _ ⟨0⟩
    (.make ⟨.container ⟨0⟩, ⟨0⟩⟩ (.dependency ⟨comparable, none⟩)) reachable rfl
  exact ⟨⟨0⟩, _, rfl, rfl, compared (.bean ⟨0⟩), (described rfl).1⟩

end Wiring
