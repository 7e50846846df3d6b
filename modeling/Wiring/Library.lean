import Wiring.Bootstrap

namespace Wiring

variable {C S : Type}

/-- User code run with its requests answered by `ask`. -/
def Language.user (lang : Language C S) (ask : (q : Request C) → Run C S q.Answer) : UserCode C S :=
  fun code e => (lang.run code e).interpret ask

/-- Answers a request; `user` runs the user code that this calls, and `ask` makes the calls that early
references pass on. -/
def serve (lang : Language C S) (user : UserCode C S) (ask : (q : Request C) → Run C S q.Answer) :
    (q : Request C) → Run C S q.Answer
  | .define c r => Run.modify (·.define c r)
  | .registerSingleton c name b => Lookup.registerSingleton c name b
  | .getBean c name => Lookup.getBean user c name
  | .resolve c d requesting => Lookup.resolve user c d requesting
  | .preinstantiate c => Lookup.preinstantiate user c
  | .container c => fun w => some (.ok (w.container c), w)
  | .create t code => fun w => let (b, w') := w.addBean (.object t code); some (.ok b, w')
  | .bean b => Run.bean b
  | .invoke b call => Bean.invoke user ask b call
  | .describe b => Bean.describe user ask b
  | .equals b other => Bean.equals user ask b other
  | .hashCode b => Bean.hashCode user ask b
  | .dereference b => Bean.dereference user b
  | .newStatus => fun w =>
    some (.ok ⟨w.statuses.size⟩, { w with statuses := w.statuses.push {} })
  | .status s => fun w => some (.ok (w.creatingProxies s), w)
  | .setStatus s value => Run.modify (·.setCreatingProxies s value)
  | .createProxy k d => Reference.createProxy k d
  | .createMethodProxy k declaring m => Reference.createMethodProxy k declaring m
  | .registerConfiguration p c => Bootstrap.registerConfiguration p c
  | .process p => Bootstrap.process lang user p
  | .beanMethod ctx name =>
    Bootstrap.callProducer user ctx.processor ctx.configuration name
  | .beanMethodOn ctx configuration name =>
    Bootstrap.callProducerOn user ctx.processor configuration name
  | .execute c s e => s.execute lang user c e

/-- Answers a request with calls of user code nested at most this deep. -/
def answer (lang : Language C S) : Nat → (q : Request C) → Run C S q.Answer
  | 0, _ => fun _ => none
  | depth + 1, q => serve lang (lang.user (answer lang depth)) (answer lang depth) q

end Wiring
