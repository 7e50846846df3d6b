import Mathlib.Data.List.Forall2
import Wiring.Proofs.Delivery
import Wiring.Settings.File

namespace Wiring

open Document

namespace Document

/-- A scalar that is read as this truth value. Text in quotes is none. -/
def Scalar.IsTruth (v : Scalar) (b : Bool) : Prop :=
  v.plain = true ∧ v.text ∈ if b then ["true", "True", "TRUE"] else ["false", "False", "FALSE"]

instance (v : Scalar) (b : Bool) : Decidable (v.IsTruth b) := by
  unfold Scalar.IsTruth
  infer_instance

theorem Meaning.bool?_eq_some_iff (text : String) (b : Bool) : Meaning.bool? text = some b ↔
    text ∈ if b then ["true", "True", "TRUE"] else ["false", "False", "FALSE"] := by
  have apart : ∀ t ∈ ["true", "True", "TRUE"], t ∉ ["false", "False", "FALSE"] := by decide
  rw [Meaning.bool?]
  by_cases on : text ∈ ["true", "True", "TRUE"]
  · have off := apart text on
    cases b <;> simp only [on, off, if_true, Bool.false_eq_true, if_false, Option.some.injEq, reduceCtorEq]
  · rw [if_neg on]
    cases b <;> simp only [on, if_true, Bool.false_eq_true, if_false, Option.ite_none_right_eq_some,
      Option.some.injEq, and_false, and_true]

theorem Scalar.IsTruth.unique {v : Scalar} {b b' : Bool} (h : v.IsTruth b) (h' : v.IsTruth b') : b = b' := by
  have same := ((Meaning.bool?_eq_some_iff v.text b).mpr h.2).symm.trans
    ((Meaning.bool?_eq_some_iff v.text b').mpr h'.2)
  exact Option.some.inj same

end Document

namespace Settings

/-- What is relied on of visitors that are generated from declarations. Entries are taken one by one: one with
a field that is not declared is an error where such fields are denied, one with a field that was given before
is an error, and the value of any other one is that of its field. A field that is not given has its default. -/
structure Derives (derived : Declaration → Visitor) : Prop where
  unknown {D : Declaration} {g : Given} {key : String} {o : Offer} {rest : List Offer} {f : String → Bool}
    (denied : D.denyUnknown = true) (offered : o.key = .ok key) (undeclared : key ∉ D.fields) :
    (derived D).visit g (o :: rest) ≠ .ok f
  repeated {D : Declaration} {g : Given} {key : String} {o : Offer} {rest : List Offer} {f : String → Bool}
    (offered : o.key = .ok key) (declared : key ∈ D.fields) (given : g key ≠ none) :
    (derived D).visit g (o :: rest) ≠ .ok f
  mistyped {D : Declaration} {g : Given} {key : String} {o : Offer} {rest : List Offer} {f : String → Bool}
    (offered : o.key = .ok key) (declared : key ∈ D.fields) (untrue : ∀ b, o.value ≠ .ok b) :
    (derived D).visit g (o :: rest) ≠ .ok f
  taken {D : Declaration} {g : Given} {key : String} {b : Bool} {o : Offer} {rest : List Offer}
    (offered : o.key = .ok key) (declared : key ∈ D.fields) (free : g key = none) (value : o.value = .ok b) :
    (derived D).visit g (o :: rest) = (derived D).visit (g.put key b) rest
  absent {D : Declaration} {g : Given} {values : String → Bool} (default : D.default = some values) :
    (derived D).visit g [] = .ok fun key => (g key).getD (values key)

/-- The entry is offered with its key, and with its value if that is a truth value. -/
structure Offered (e : Entry) (o : Offer) : Prop where
  key : o.key = .ok e.key.text
  value : ∀ b, o.value = .ok b ↔ e.value.IsTruth b

/-- What is relied on of the reader of documents: of a flat document, the visitor is offered the entries, in
their order and nothing else. -/
def Delivers (r : Reader) : Prop :=
  ∀ d : Flat, ∃ offers, List.Forall₂ Offered d.entries offers ∧ ∀ (D : Declaration) (f : String → Bool),
    r.text (r.derived D) d.text = .ok f ↔ (r.derived D).visit (fun _ => none) offers = .ok f

theorem derives_visitor : Derives Declaration.visitor where
  unknown {D g key o rest f} denied offered undeclared := by
    obtain ⟨_, value⟩ := o
    cases offered
    simp [Declaration.visitor, Declaration.visit, undeclared, denied]
  repeated {D g key o rest f} offered declared given := by
    obtain ⟨_, value⟩ := o
    cases offered
    simp [Declaration.visitor, Declaration.visit, declared, Option.isSome_iff_ne_none.mpr given]
  mistyped {D g key o rest f} offered declared untrue := by
    obtain ⟨_, value⟩ := o
    cases offered
    cases value with
    | ok b => exact absurd rfl (untrue b)
    | error flaw =>
      simp only [Declaration.visitor, Declaration.visit, declared, if_true]
      split <;> exact nofun
  taken {D g key b o rest} offered declared free value := by
    obtain ⟨_, _⟩ := o
    cases offered
    cases value
    simp [Declaration.visitor, Declaration.visit, declared, free]
  absent {D g values} default := by
    simp [Declaration.visitor, Declaration.visit, Declaration.complete, default]

namespace Offer

def ofEntry (e : Entry) : Offer := ⟨.ok e.key.text, truth e.key.text (.scalar e.value.text e.value.plain)⟩

theorem truth_eq_ok_iff (key : String) (v : Scalar) (b : Bool) :
    truth key (.scalar v.text v.plain) = .ok b ↔ v.IsTruth b := by
  obtain ⟨text, plain⟩ := v
  cases plain with
  | false => simp [truth, Scalar.IsTruth]
  | true =>
    rw [Scalar.IsTruth, ← Meaning.bool?_eq_some_iff, truth]
    cases Meaning.bool? text <;> simp

theorem offered_ofEntry (e : Entry) : Offered e (ofEntry e) := ⟨rfl, truth_eq_ok_iff _ e.value⟩

theorem ofPieces_entries (es : List Entry) :
    ofPieces (es.flatMap Entry.pieces ++ [.close]) = es.map ofEntry := by
  induction es with
  | nil => rfl
  | cons e es ih =>
    rw [List.flatMap_cons, List.append_assoc, List.map_cons, ← ih]
    rfl

end Offer

namespace Reader

theorem readText_flat (v : Visitor) (d : Flat) :
    readText v d.text = v.visit (fun _ => none) (d.entries.map Offer.ofEntry) := by
  rw [readText, ofText_flat, delivered]
  cases d.entries with
  | nil => rfl
  | cons e es =>
    rw [← Offer.ofPieces_entries]
    rfl

theorem delivers_standard : Delivers standard := by
  refine fun d => ⟨d.entries.map Offer.ofEntry, ?_, fun D f => ?_⟩
  · induction d.entries with
    | nil => exact .nil
    | cons e es ih => exact .cons (Offer.offered_ofEntry e) ih
  · have read : standard.text (standard.derived D) d.text =
        (standard.derived D).visit (fun _ => none) (d.entries.map Offer.ofEntry) := readText_flat _ d
    rw [read]

end Reader

end Settings

end Wiring
