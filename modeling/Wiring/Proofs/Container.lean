import Wiring.Lookup

namespace Wiring

namespace Table

variable {κ ν : Type} [DecidableEq κ]

private theorem lookup_replace (k k' : κ) (v : ν) (l : List (κ × ν)) :
    (replace k v l).lookup k' = if k' = k then some v else l.lookup k' := by
  induction l with
  | nil =>
    by_cases h : k' = k
    · simp [replace, h]
    · have hb : (k' == k) = false := beq_false_of_ne h
      simp [replace, List.lookup_cons, h, hb]
  | cons e l ih =>
    obtain ⟨a, b⟩ := e
    by_cases h : k' = a
    · by_cases ha : a = k <;> simp [replace, h, ha]
    · have hb : (k' == a) = false := beq_false_of_ne h
      by_cases ha : a = k
      · subst ha
        simp [replace, List.lookup_cons, h, hb]
      · simp [replace, List.lookup_cons, ha, hb, ih]

@[simp] theorem get?_insert (t : Table κ ν) (k k' : κ) (v : ν) :
    (t.insert k v).get? k' = if k' = k then some v else t.get? k' :=
  lookup_replace k k' v t.entries

end Table

namespace Container

variable {C : Type}

@[simp] theorem singleton?_bind (c : Container C) (name other : String) (b : BeanId) :
    (c.bind name b).singleton? other = if other = name then some b else c.singleton? other :=
  Table.get?_insert c.singletons name other b

@[simp] theorem singleton?_remember (c : Container C) (name other : String) :
    (c.remember name).singleton? other = c.singleton? other := by
  unfold remember
  split <;> rfl

@[simp] theorem singleton?_define (c : Container C) (r : Recipe C) (name : String) :
    (c.define r).singleton? name = c.singleton? name :=
  singleton?_remember _ _ _

@[simp] theorem singleton?_accept (c : Container C) (serial : Nat) (b : BeanId) (name : String) :
    (c.accept serial b).singleton? name = c.singleton? name := rfl

@[simp] theorem definitions_remember (c : Container C) (name : String) :
    (c.remember name).definitions = c.definitions := by
  unfold remember
  split <;> rfl

@[simp] theorem definitions_bind (c : Container C) (name : String) (b : BeanId) :
    (c.bind name b).definitions = c.definitions := rfl

@[simp] theorem definitions_define (c : Container C) (r : Recipe C) :
    (c.define r).definitions = r.definition c.definitions.length :: c.definitions := by
  simp [define]

theorem name_of_definition? (c : Container C) (name : String) (d : Definition C)
    (h : c.definition? name = some d) : d.name = name := by
  simpa using List.find?_some h

theorem mem_of_definition? (c : Container C) (name : String) (d : Definition C)
    (h : c.definition? name = some d) : d ∈ c.definitions := List.mem_of_find?_eq_some h

theorem hasSingleton_iff (c : Container C) (name : String) :
    c.hasSingleton name = true ↔ ∃ b, c.singleton? name = some b := by
  simp [hasSingleton, Option.isSome_iff_exists]

theorem hasDefinition_iff (c : Container C) (name : String) :
    c.hasDefinition name = true ↔ ∃ d ∈ c.definitions, d.name = name := by
  simp [hasDefinition, definition?]

theorem hasBean_iff (c : Container C) (name : String) :
    c.hasBean name = true ↔ c.hasDefinition name = true ∨ c.hasSingleton name = true := by
  simp [hasBean]

theorem hasSingleton_bind (c : Container C) (name other : String) (b : BeanId) :
    (c.bind name b).hasSingleton other = true ↔ other = name ∨ c.hasSingleton other = true := by
  by_cases h : other = name <;> simp [hasSingleton, h]

theorem definition?_define (c : Container C) (r : Recipe C) (name : String) :
    (c.define r).definition? name =
      if r.name = name then some (r.definition c.definitions.length) else c.definition? name := by
  by_cases h : r.name = name <;> simp [definition?, Recipe.definition, h]

theorem definition?_accept (c : Container C) (serial : Nat) (b : BeanId) (name : String) :
    (c.accept serial b).definition? name = (c.definition? name).map fun d =>
      if d.serial = serial then { d with created := some b } else d := by
  have same : (fun d : Definition C => d.name == name) ∘ (fun d : Definition C =>
      if d.serial = serial then { d with created := some b } else d) = (·.name == name) := by
    funext d
    by_cases h : d.serial = serial <;> simp [h]
  simp only [definition?, accept, List.find?_map, same]

theorem hasDefinition_define (c : Container C) (r : Recipe C) (name : String) :
    (c.define r).hasDefinition name = true ↔ name = r.name ∨ c.hasDefinition name = true := by
  by_cases h : r.name = name
  · simp [hasDefinition, definition?_define, h]
  · simp [hasDefinition, definition?_define, h, Ne.symm h]

theorem hasDefinition_accept (c : Container C) (serial : Nat) (b : BeanId) (name : String) :
    (c.accept serial b).hasDefinition name = c.hasDefinition name := by
  simp [hasDefinition, definition?_accept]

theorem names_remember (c : Container C) (name : String) :
    (c.remember name).names = if name ∈ c.names then c.names else c.names ++ [name] := by
  by_cases h : name ∈ c.names <;> simp [remember, h]

end Container

namespace World

variable {C S : Type}

@[simp] theorem container_setContainer (w : World C S) (c c' : ContainerId) (v : Container C) :
    (w.setContainer c v).container c' = if c' = c then v else w.container c' := by
  unfold container setContainer
  simp only [Table.get?_insert]
  split <;> rfl

@[simp] theorem container_record (w : World C S) (e : Event) (c : ContainerId) :
    (w.record e).container c = w.container c := rfl

@[simp] theorem container_unmark (w : World C S) (name : String) (c : ContainerId) :
    (w.unmark name).container c = w.container c := rfl

theorem container_define (w : World C S) (c c' : ContainerId) (r : Recipe C) :
    (w.define c r).container c' =
      if c' = c then (w.container c).define r else w.container c' := by
  unfold define
  split <;> simp

@[simp] theorem container_accept (w : World C S) (c c' : ContainerId) (serial : Nat) (b : BeanId) :
    (w.accept c serial b).container c' =
      if c' = c then (w.container c).accept serial b else w.container c' := by
  simp [accept]

@[simp] theorem container_bind (w : World C S) (c c' : ContainerId) (name : String) (b : BeanId) :
    (w.bind c name b).container c' =
      if c' = c then (w.container c).bind name b else w.container c' := by
  simp [bind]

@[simp] theorem container_remember (w : World C S) (c c' : ContainerId) (name : String) :
    (w.remember c name).container c' =
      if c' = c then (w.container c).remember name else w.container c' := by
  simp [remember]

end World

end Wiring
