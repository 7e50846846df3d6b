import Wiring.EarlyReference
import Wiring.Proofs.Container
import Wiring.Proofs.Methods

namespace Wiring

namespace BeanType

/-- The producer methods of a name. -/
def producers (t : BeanType) (n : String) : List (Method BeanType) :=
  (t.named n).filter (·.isProducer)

/-- Those that the type itself declares. -/
def declaredProducers (t : BeanType) (n : String) : List (Method BeanType) :=
  (t.declared n).filter (·.isProducer)

theorem mem_declaredProducers (t : BeanType) (n : String) (m : Method BeanType) :
    m ∈ t.declaredProducers n ↔ m ∈ t.methods ∧ m.name = n ∧ m.isProducer = true := by
  rw [declaredProducers, declared, List.filter_filter, List.mem_filter, Bool.and_eq_true, beq_iff_eq]
  exact and_congr_right fun _ => and_comm

end BeanType

namespace Routes

theorem route_addProducer (routes : Routes) (m : Method BeanType) (n : String) :
    (routes.addProducer m).route n =
      if m.name = n ∧ m.isProducer = true then .produce m else routes.route n := by
  by_cases producer : m.isProducer = true
  · by_cases name : m.name = n
    · simp [addProducer, route, producer, name]
    · simp [addProducer, route, producer, name, Ne.symm name]
  · simp [addProducer, producer]

/-- Of the producer methods of a name, the last one put in has the route. -/
theorem route_foldl (ms : List (Method BeanType)) (routes : Routes) (n : String) :
    (ms.foldl addProducer routes).route n =
      ((((ms.filter (·.name == n)).filter (·.isProducer)).getLast?).map .produce).getD
        (routes.route n) := by
  induction ms generalizing routes with
  | nil => rfl
  | cons m rest ih =>
    rw [List.foldl_cons, ih, route_addProducer]
    by_cases own : m.name = n ∧ m.isProducer = true
    · obtain ⟨name, producer⟩ := own
      simp only [name, producer, and_self, if_true, List.filter_cons, beq_self_eq_true,
        List.getLast?_cons, Option.map_some, Option.getD_some]
      cases ((rest.filter (·.name == n)).filter (·.isProducer)).getLast? <;> rfl
    · have skipped : ((m :: rest).filter (·.name == n)).filter (·.isProducer) =
          (rest.filter (·.name == n)).filter (·.isProducer) := by
        by_cases name : m.name = n
        · have plain : m.isProducer = false := by simpa [name] using own
          simp [name, plain]
        · simp [name]
      rw [if_neg own, skipped]

theorem route_forType_eq (t : BeanType) (n : String) :
    (forType t).route n =
      (((t.producers n).getLast?).map .produce).getD (standard.route n) :=
  route_foldl t.allMethods standard n

/-- No producer method has a standard route. -/
theorem standard_ne_produce (n : String) (m : Method BeanType) : standard.route n ≠ .produce m := by
  simp only [standard, route, Table.get?_insert]
  repeat' split
  all_goals simp [Table.get?]

theorem route_eq_produce_iff (t : BeanType) (n : String) (m : Method BeanType) :
    (forType t).route n = .produce m ↔ (t.producers n).getLast? = some m := by
  rw [route_forType_eq]
  cases (t.producers n).getLast? with
  | none => simpa using standard_ne_produce n m
  | some m' => simp

theorem exists_route_iff (t : BeanType) (n : String) :
    (∃ m, (forType t).route n = .produce m) ↔ t.producers n ≠ [] := by
  simp only [route_eq_produce_iff, ne_eq, ← List.getLast?_eq_none_iff, Option.ne_none_iff_exists']

theorem mem_producers_of_route {t : BeanType} {n : String} {m : Method BeanType}
    (h : (forType t).route n = .produce m) : m ∈ t.producers n :=
  List.mem_of_getLast? ((route_eq_produce_iff t n m).mp h)

/-- Where no producer method of the type has a name, the standard route of that name is left. -/
theorem route_forType (t : BeanType) (name : String)
    (h : ∀ m ∈ t.allMethods, m.name = name → m.isProducer = false) :
    (forType t).route name = standard.route name := by
  have none : t.producers name = [] := by
    refine List.filter_eq_nil_iff.mpr fun m hm => ?_
    obtain ⟨hm, same⟩ := List.mem_filter.mp hm
    simp [h m hm (by simpa using same)]
  rw [route_forType_eq, none]
  rfl

/-- A name has its standard route, or that of a producer method. -/
theorem route_forType_cases (t : BeanType) (name : String) :
    (forType t).route name = standard.route name ∨ ∃ m, (forType t).route name = .produce m := by
  rw [route_forType_eq]
  cases (t.producers name).getLast? with
  | none => exact .inl rfl
  | some m => exact .inr ⟨m, rfl⟩

/-- Of a name that belongs to one method at most, the routes have what the look-up finds. -/
theorem route_eq_produce_iff_method? (t : BeanType) (n : String) (single : (t.named n).length ≤ 1)
    (m : Method BeanType) :
    (forType t).route n = .produce m ↔ t.method? n = some m ∧ m.isProducer = true := by
  rw [route_eq_produce_iff, BeanType.producers, BeanType.method?_eq]
  match t.named n, single with
  | [], _ => simp
  | [x], _ =>
    by_cases producer : x.isProducer = true
    · simp only [List.filter_cons, producer, if_true, List.filter_nil, List.getLast?_singleton,
        List.head?_cons, Option.some.injEq]
      exact ⟨fun e => ⟨e, e ▸ producer⟩, And.left⟩
    · simp only [List.filter_cons, producer, if_false, Bool.false_eq_true, List.filter_nil,
        List.getLast?_nil, List.head?_cons, Option.some.injEq, reduceCtorEq, false_iff]
      rintro ⟨rfl, h⟩
      exact producer h

end Routes

private theorem eq_of_mem_of_single {l : List (Method BeanType)} (single : l.length ≤ 1)
    {m m' : Method BeanType} (h : m ∈ l) (h' : m' ∈ l) : m = m' := by
  match l with
  | [x] => rw [List.mem_singleton.mp h, List.mem_singleton.mp h']

/-- The routes of a type have a producer method under a name exactly if the look-up finds one, or the type
declares one itself: a producer method has priority over a plain one that is declared beside it. It is the
method that the look-up finds, or else one that the type declares; and it is the one that is found wherever
the type does not declare several producer methods of the name. Of a name that the type does not declare
twice, routes and look-up always agree. -/
theorem routing_follows_lookup (t : BeanType) (n : String) :
    ((∃ m, (Routes.forType t).route n = .produce m) ↔
      (∃ m, t.method? n = some m ∧ m.isProducer = true) ∨ t.declaredProducers n ≠ []) ∧
    (∀ m, (Routes.forType t).route n = .produce m →
      m.name = n ∧ m.isProducer = true ∧ (t.method? n = some m ∨ m ∈ t.declaredProducers n)) ∧
    (∀ m, t.method? n = some m → m.isProducer = true → (t.declaredProducers n).length ≤ 1 →
      (Routes.forType t).route n = .produce m) ∧
    ((t.declared n).length ≤ 1 → ∀ m,
      (Routes.forType t).route n = .produce m ↔ t.method? n = some m ∧ m.isProducer = true) := by
  have named (m : Method BeanType) (h : t.method? n = some m) : m.name = n := by
    simpa using List.find?_some h
  rcases t.named_cases n with declares | ⟨none, single⟩
  · have producers : t.producers n = t.declaredProducers n := by
      rw [BeanType.producers, declares, BeanType.declaredProducers]
    have found (m : Method BeanType) (h : t.method? n = some m) (producer : m.isProducer = true) :
        m ∈ t.declaredProducers n := by
      rw [BeanType.method?_eq, declares] at h
      exact List.mem_filter.mpr ⟨List.mem_of_head? h, producer⟩
    refine ⟨?_, fun m routed => ?_, fun m h producer several => ?_, fun single m => ?_⟩
    · rw [Routes.exists_route_iff, producers]
      refine ⟨.inr, ?_⟩
      rintro (⟨m, h, producer⟩ | some)
      · exact List.ne_nil_of_mem (found m h producer)
      · exact some
    · have mem := Routes.mem_producers_of_route routed
      rw [producers] at mem
      obtain ⟨_, name, producer⟩ := (t.mem_declaredProducers n m).mp mem
      exact ⟨name, producer, .inr mem⟩
    · obtain ⟨m', routed⟩ := (Routes.exists_route_iff t n).mpr
        (producers ▸ List.ne_nil_of_mem (found m h producer))
      have mem := producers ▸ Routes.mem_producers_of_route routed
      rw [routed, eq_of_mem_of_single several mem (found m h producer)]
    · rw [← declares] at single
      exact Routes.route_eq_produce_iff_method? t n single m
  · have agree := Routes.route_eq_produce_iff_method? t n single
    have undeclared : t.declaredProducers n = [] := by rw [BeanType.declaredProducers, none]; rfl
    refine ⟨⟨fun ⟨m, routed⟩ => .inl ⟨m, (agree m).mp routed⟩, ?_⟩, fun m routed => ?_,
      fun m h producer _ => (agree m).mpr ⟨h, producer⟩, fun _ => agree⟩
    · rintro (⟨m, h⟩ | h)
      · exact ⟨m, (agree m).mpr h⟩
      · exact absurd undeclared h
    · obtain ⟨h, producer⟩ := (agree m).mp routed
      exact ⟨named m h, producer, .inl h⟩

/-- An interface that declares a plain method, and after it a producer method of the same name. -/
def declaringTwice : BeanType :=
  { BeanType.interface "app::T" with
    methods := [⟨"a", none⟩, ⟨"a", some (.interface "app::I")⟩] }

/-- The look-up finds the plain one, while the routes have the other. -/
theorem routing_beside_lookup :
    declaringTwice.method? "a" = some ⟨"a", none⟩ ∧
    (Routes.forType declaringTwice).route "a" = .produce ⟨"a", some (.interface "app::I")⟩ ∧
    ¬∀ t n m, (Routes.forType t).route n = .produce m ↔ t.method? n = some m ∧ m.isProducer = true := by
  refine ⟨rfl, rfl, fun agree => ?_⟩
  obtain ⟨found, _⟩ := (agree declaringTwice "a" ⟨"a", some (.interface "app::I")⟩).mp rfl
  have plain : declaringTwice.method? "a" = some ⟨"a", none⟩ := rfl
  cases plain.symm.trans found

end Wiring
