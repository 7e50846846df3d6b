import Wiring.Proofs.Reader

namespace Wiring

open Document

namespace Settings

/-- A setting by its key. -/
def at? (s : Settings) (key : String) : Option Bool :=
  if key = proxyKey then some s.proxyFeatureParameters
  else if key = preinstantiateKey then some s.preinstantiateSingletons
  else none

/-- Entries that make a settings document. -/
structure Legal (es : List Entry) : Prop where
  known : ∀ e ∈ es, e.key.text ∈ keys
  once : (es.map (·.key.text)).Nodup
  truths : ∀ e ∈ es, ∃ b, e.value.IsTruth b

/-- Each given setting is as given, and each other one is at its default. -/
structure Means (es : List Entry) (s : Settings) : Prop where
  given : ∀ e ∈ es, ∀ b, e.value.IsTruth b → s.at? e.key.text = some b
  absent : ∀ key, (∀ e ∈ es, e.key.text ≠ key) → s.at? key = ({} : Settings).at? key

/-- The entry writes down what its key has without it. -/
def IsDefault (e : Entry) : Prop := ∃ b, e.value.IsTruth b ∧ ({} : Settings).at? e.key.text = some b

theorem proxyKey_ne : proxyKey ≠ preinstantiateKey := by decide

theorem mem_keys_iff (key : String) : key ∈ keys ↔ key = proxyKey ∨ key = preinstantiateKey := by
  simp [keys]

theorem at?_eq (s : Settings) (key : String) :
    s.at? key = if key ∈ keys then some (s.value key) else none := by
  simp only [mem_keys_iff]
  by_cases proxy : key = proxyKey
  · simp [at?, value, proxy]
  · by_cases pre : key = preinstantiateKey <;> simp [at?, value, proxy, pre, proxyKey_ne.symm]

theorem value_ofValues (f : String → Bool) {key : String} (known : key ∈ keys) :
    (ofValues f).value key = f key := by
  rcases (mem_keys_iff key).mp known with rfl | rfl
  · simp [ofValues, value]
  · simp [ofValues, value, proxyKey_ne.symm]

theorem Legal.cons_iff (e : Entry) (es : List Entry) : Legal (e :: es) ↔
    e.key.text ∈ keys ∧ (∃ b, e.value.IsTruth b) ∧ (∀ x ∈ es, x.key.text ≠ e.key.text) ∧ Legal es := by
  have apart : e.key.text ∉ es.map (·.key.text) ↔ ∀ x ∈ es, x.key.text ≠ e.key.text := by
    simp only [List.mem_map, not_exists, not_and, ne_eq]
  constructor
  · rintro ⟨known, once, truths⟩
    rw [List.forall_mem_cons] at known truths
    rw [List.map_cons, List.nodup_cons, apart] at once
    exact ⟨known.1, truths.1, once.1, known.2, once.2, truths.2⟩
  · rintro ⟨known, truth, others, legal⟩
    refine ⟨List.forall_mem_cons.mpr ⟨known, legal.known⟩, ?_,
      List.forall_mem_cons.mpr ⟨truth, legal.truths⟩⟩
    rw [List.map_cons, List.nodup_cons, apart]
    exact ⟨others, legal.once⟩

/-- What is left of a legal document when some settings were given. -/
structure Legal.After (g : Given) (es : List Entry) : Prop extends Legal es where
  fresh : ∀ e ∈ es, g e.key.text = none

theorem Legal.after_cons_iff (g : Given) (e : Entry) (es : List Entry) : Legal.After g (e :: es) ↔
    e.key.text ∈ keys ∧ g e.key.text = none ∧
      ∃ b, e.value.IsTruth b ∧ Legal.After (g.put e.key.text b) es := by
  constructor
  · rintro ⟨legal, fresh⟩
    obtain ⟨known, ⟨b, truth⟩, apart, legal⟩ := (Legal.cons_iff e es).mp legal
    obtain ⟨free, fresh⟩ := List.forall_mem_cons.mp fresh
    refine ⟨known, free, b, truth, legal, fun x mem => ?_⟩
    rw [Given.put, if_neg (apart x mem), fresh x mem]
  · rintro ⟨known, free, b, truth, legal, fresh⟩
    have apart (x : Entry) (mem : x ∈ es) : x.key.text ≠ e.key.text ∧ g x.key.text = none := by
      have after := fresh x mem
      rw [Given.put] at after
      by_cases same : x.key.text = e.key.text
      · rw [if_pos same] at after
        cases after
      · rw [if_neg same] at after
        exact ⟨same, after⟩
    exact ⟨(Legal.cons_iff e es).mpr ⟨known, ⟨b, truth⟩, fun x mem => (apart x mem).1, legal⟩,
      List.forall_mem_cons.mpr ⟨free, fun x mem => (apart x mem).2⟩⟩

section Visit

variable {derived : Declaration → Visitor} (derives : Derives derived) (g : Given)

include derives

/-- One entry. -/
theorem Derives.cons_iff {e : Entry} {o : Offer} (offered : Offered e o) (rest : List Offer)
    (f : String → Bool) : (derived declaration).visit g (o :: rest) = .ok f ↔
      e.key.text ∈ keys ∧ g e.key.text = none ∧ ∃ b, e.value.IsTruth b ∧
        (derived declaration).visit (g.put e.key.text b) rest = .ok f := by
  constructor
  · intro h
    have known : e.key.text ∈ keys := by
      by_contra unknown
      exact derives.unknown rfl offered.key unknown h
    have free : g e.key.text = none := by
      by_contra given
      exact derives.repeated offered.key known given h
    obtain ⟨b, value⟩ : ∃ b, o.value = .ok b := by
      by_contra untrue
      exact derives.mistyped offered.key known (fun b value => untrue ⟨b, value⟩) h
    rw [derives.taken offered.key known free value] at h
    exact ⟨known, free, b, (offered.value b).mp value, h⟩
  · rintro ⟨known, free, b, truth, h⟩
    rw [derives.taken offered.key known free ((offered.value b).mpr truth)]
    exact h

/-- Entries are accepted exactly if they are legal. -/
theorem Derives.accepts_iff {es : List Entry} {offers : List Offer}
    (offered : List.Forall₂ Offered es offers) :
    (∃ f, (derived declaration).visit g offers = .ok f) ↔ Legal.After g es := by
  induction offered generalizing g with
  | nil => exact ⟨fun _ => ⟨⟨nofun, List.nodup_nil, nofun⟩, nofun⟩, fun _ => ⟨_, derives.absent rfl⟩⟩
  | cons first _ ih =>
    simp only [derives.cons_iff g first, Legal.after_cons_iff, ← ih]
    constructor
    · rintro ⟨f, known, free, b, truth, more⟩
      exact ⟨known, free, b, truth, f, more⟩
    · rintro ⟨known, free, b, truth, f, more⟩
      exact ⟨f, known, free, b, truth, more⟩

/-- Accepted entries give their values, and leave all others as they were given before or are by default. -/
theorem Derives.values {es : List Entry} {offers : List Offer} (offered : List.Forall₂ Offered es offers)
    {f : String → Bool} (h : (derived declaration).visit g offers = .ok f) :
    (∀ e ∈ es, ∀ b, e.value.IsTruth b → f e.key.text = b) ∧
      ∀ key, (∀ e ∈ es, e.key.text ≠ key) → f key = (g key).getD (({} : Settings).value key) := by
  induction offered generalizing g with
  | nil =>
    cases (derives.absent rfl).symm.trans h
    exact ⟨nofun, fun _ _ => rfl⟩
  | @cons e o es offers first others ih =>
    have legal := (derives.accepts_iff g (.cons first others)).mp ⟨f, h⟩
    obtain ⟨known, free, b, truth, more⟩ := (derives.cons_iff g first offers f).mp h
    obtain ⟨given, absent⟩ := ih (g.put e.key.text b) more
    obtain ⟨_, _, apart, _⟩ := (Legal.cons_iff e es).mp legal.toLegal
    -- No later entry has this key, so what it was given stays.
    have here : f e.key.text = b := by
      rw [absent e.key.text apart, Given.put, if_pos rfl]
      rfl
    refine ⟨List.forall_mem_cons.mpr ⟨fun b' truth' => ?_, given⟩, fun key apart' => ?_⟩
    · rw [here, truth.unique truth']
    · obtain ⟨other, more⟩ := List.forall_mem_cons.mp apart'
      rw [absent key more, Given.put, if_neg other.symm]

end Visit

theorem ext_at? {s s' : Settings} (h : ∀ key, s.at? key = s'.at? key) : s = s' := by
  obtain ⟨proxy, pre⟩ := s
  obtain ⟨proxy', pre'⟩ := s'
  have first := h proxyKey
  have second := h preinstantiateKey
  simp only [at?, if_true, proxyKey_ne.symm, if_false, Option.some.injEq] at first second
  rw [first, second]

theorem Means.unique {es : List Entry} {s s' : Settings} (legal : Legal es) (h : Means es s)
    (h' : Means es s') : s = s' := by
  refine ext_at? fun key => ?_
  by_cases given : ∃ e ∈ es, e.key.text = key
  · obtain ⟨e, mem, rfl⟩ := given
    obtain ⟨b, truth⟩ := legal.truths e mem
    rw [h.given e mem b truth, h'.given e mem b truth]
  · have absent : ∀ e ∈ es, e.key.text ≠ key := fun e mem same => given ⟨e, mem, same⟩
    rw [h.absent key absent, h'.absent key absent]

section Order

variable {es es' : List Entry}

theorem Legal.perm (h : es'.Perm es) (legal : Legal es) : Legal es' where
  known e mem := legal.known e (h.mem_iff.mp mem)
  once := ((h.map _).nodup_iff).mpr legal.once
  truths e mem := legal.truths e (h.mem_iff.mp mem)

theorem Means.perm {s : Settings} (h : es'.Perm es) (means : Means es s) : Means es' s where
  given e mem := means.given e (h.mem_iff.mp mem)
  absent key others := means.absent key fun e mem => others e (h.mem_iff.mpr mem)

theorem legal_means_perm_iff (h : es'.Perm es) (s : Settings) :
    Legal es' ∧ Means es' s ↔ Legal es ∧ Means es s :=
  ⟨fun both => ⟨both.1.perm h.symm, both.2.perm h.symm⟩, fun both => ⟨both.1.perm h, both.2.perm h⟩⟩

end Order

section Default

variable {e : Entry} {es : List Entry} (isDefault : IsDefault e)
  (absent : ∀ x ∈ es, x.key.text ≠ e.key.text)

include isDefault absent

theorem legal_cons_default_iff : Legal (e :: es) ↔ Legal es := by
  obtain ⟨b, truth, there⟩ := isDefault
  have known : e.key.text ∈ keys := by
    by_contra unknown
    rw [at?_eq, if_neg unknown] at there
    cases there
  rw [Legal.cons_iff]
  exact ⟨fun both => both.2.2.2, fun legal => ⟨known, ⟨b, truth⟩, absent, legal⟩⟩

theorem means_cons_default_iff (s : Settings) : Means (e :: es) s ↔ Means es s := by
  obtain ⟨b, truth, there⟩ := isDefault
  constructor
  · rintro ⟨given, rest⟩
    refine ⟨fun x mem => given x (.tail e mem), fun key others => ?_⟩
    by_cases here : e.key.text = key
    · rw [← here, there]
      exact given e List.mem_cons_self b truth
    · exact rest key (List.forall_mem_cons.mpr ⟨here, others⟩)
  · rintro ⟨given, rest⟩
    refine ⟨List.forall_mem_cons.mpr ⟨fun b' truth' => ?_, given⟩, fun key others => ?_⟩
    · rw [rest e.key.text absent, there, truth.unique truth']
    · exact rest key (List.forall_mem_cons.mp others).2

end Default

theorem Legal.fresh {es : List Entry} (legal : Legal es) : Legal.After (fun _ => none) es :=
  ⟨legal, fun _ _ => rfl⟩

section Load

variable {r : Reader} (delivers : Delivers r) (derives : Derives r.derived) (d : Flat)

include delivers derives

/-- What is read of a flat document are the values of its entries. -/
theorem load_eq_ok_iff (s : Settings) :
    r.load (.text d.text) = .ok s ↔ Legal d.entries ∧ Means d.entries s := by
  obtain ⟨offers, offered, read⟩ := delivers d
  have means {f : String → Bool} (h : r.text (r.derived declaration) d.text = .ok f) :
      Legal d.entries ∧ Means d.entries (ofValues f) := by
    have visited := (read declaration f).mp h
    have legal := ((derives.accepts_iff _ offered).mp ⟨f, visited⟩).toLegal
    obtain ⟨given, absent⟩ := derives.values _ offered visited
    refine ⟨legal, fun e mem b truth => ?_, fun key others => ?_⟩
    · have known := legal.known e mem
      rw [at?_eq, if_pos known, value_ofValues f known, given e mem b truth]
    · rw [at?_eq, at?_eq]
      by_cases known : key ∈ keys
      · rw [if_pos known, if_pos known, value_ofValues f known, absent key others]
        rfl
      · rw [if_neg known, if_neg known]
  rw [Reader.load]
  constructor
  · intro h
    cases taken : r.text (r.derived declaration) d.text with
    | error flaw =>
      rw [taken] at h
      cases h
    | ok f =>
      rw [taken] at h
      cases h
      exact means taken
  · rintro ⟨legal, meant⟩
    obtain ⟨f, visited⟩ := (derives.accepts_iff _ offered).mpr legal.fresh
    have taken := (read declaration f).mpr visited
    rw [taken, meant.unique legal (means taken).2]
    rfl

/-- A legal document is read, and any other one cannot be parsed. -/
theorem load_cases : (Legal d.entries ∧ ∃ s, r.load (.text d.text) = .ok s) ∨
    ¬Legal d.entries ∧ ∃ flaw, r.load (.text d.text) = .error (.parse flaw) := by
  obtain ⟨offers, offered, read⟩ := delivers d
  cases taken : r.text (r.derived declaration) d.text with
  | ok f =>
    have legal := ((derives.accepts_iff _ offered).mp ⟨f, (read declaration f).mp taken⟩).toLegal
    exact .inl ⟨legal, ofValues f, by rw [Reader.load, taken]; rfl⟩
  | error flaw =>
    refine .inr ⟨fun legal => ?_, flaw, by rw [Reader.load, taken]; rfl⟩
    obtain ⟨f, visited⟩ := (derives.accepts_iff _ offered).mpr legal.fresh
    cases taken.symm.trans ((read declaration f).mpr visited)

end Load

/-- Settings documents mean exactly their keys, whatever they are read with, as long as it hands over the
entries of flat documents in order and generates visitors as they are declared. A flat document is accepted if
and only if each key is known, none stands twice and each value is a plain truth value, and then has each given
setting as given and each other one at its default; else it is a document that cannot be parsed. The order of
the entries, comments and a default that is written down make no difference. -/
theorem documents_mean_their_keys (r : Reader) (delivers : Delivers r) (derives : Derives r.derived)
    (d : Flat) :
    ((∃ s, r.load (.text d.text) = .ok s) ↔ Legal d.entries) ∧
    (∀ s, r.load (.text d.text) = .ok s → Means d.entries s) ∧
    (¬Legal d.entries → ∃ flaw, r.load (.text d.text) = .error (.parse flaw)) ∧
    ∀ d' : Flat,
      (d'.entries.Perm d.entries →
        ∀ s, r.load (.text d'.text) = .ok s ↔ r.load (.text d.text) = .ok s) ∧
      ∀ e, IsDefault e → (∀ x ∈ d.entries, x.key.text ≠ e.key.text) →
        d'.entries.Perm (e :: d.entries) →
          ∀ s, r.load (.text d'.text) = .ok s ↔ r.load (.text d.text) = .ok s := by
  have accepted := load_eq_ok_iff delivers derives
  refine ⟨⟨fun ⟨s, h⟩ => ((accepted d s).mp h).1, fun legal => ?_⟩, fun s h => ((accepted d s).mp h).2,
    fun illegal => ?_, fun d' => ⟨fun perm s => ?_, fun e isDefault absent perm s => ?_⟩⟩
  · rcases load_cases delivers derives d with ⟨_, read⟩ | ⟨illegal, _⟩
    · exact read
    · exact absurd legal illegal
  · rcases load_cases delivers derives d with ⟨legal, _⟩ | ⟨_, refused⟩
    · exact absurd legal illegal
    · exact refused
  · rw [accepted, accepted, legal_means_perm_iff perm]
  · rw [accepted, accepted, legal_means_perm_iff perm, legal_cons_default_iff isDefault absent,
      means_cons_default_iff isDefault absent]

/-- An entry in plain text, the value after a space. -/
def plainLine (key value : List Char) (tail : Tail)
    (keyStarts : startsPlain key = true) (keyFits : goesOn false key = true)
    (starts : startsPlain value = true) (fits : goesOn false value = true)
    (opens : opensLine key = true) (soon : bytes key ≤ 1024) : EntryLine where
  key := .plain key keyStarts keyFits
  pad := ⟨[], rfl⟩
  assigned := .value ⟨[' '], by decide⟩ (.plain value starts fits)
  tail := tail
  opens := opens
  soon := by rw [List.append_nil]; exact soon

/-- One setting is given, with comments around it. -/
def sparse : Flat where
  lines := [.comment 0 ⟨" lazily".toList, by decide⟩,
    .entry (plainLine preinstantiateKey.toList "False".toList
      (.comment ⟨[' '], by decide⟩ ⟨" for now".toList, by decide⟩)
      (by decide) (by decide) (by decide) (by decide) (by decide) (by decide)), .blank 0]

/-- Both settings are given, one of them at its default. -/
def full : Flat where
  lines := [
    .entry (plainLine preinstantiateKey.toList "False".toList (.blank ⟨[], rfl⟩)
      (by decide) (by decide) (by decide) (by decide) (by decide) (by decide)), .blank 2,
    .entry (plainLine proxyKey.toList "TRUE".toList (.blank ⟨[], rfl⟩)
      (by decide) (by decide) (by decide) (by decide) (by decide) (by decide))]
  lineBreak := .both

/-- The key is no name of a setting. -/
def misspelt : Flat where
  lines := [
    .entry (plainLine "proxy_feature_parameter".toList "false".toList (.blank ⟨[], rfl⟩)
      (by decide) (by decide) (by decide) (by decide) (by decide) (by decide))]

theorem documents_mean_their_keys_thrice :
    sparse.text = "# lazily\npreinstantiate_singletons: False # for now\n" ∧
    load (.text sparse.text) = .ok ⟨true, false⟩ ∧ load (.text full.text) = .ok ⟨true, false⟩ ∧
    ∃ flaw, load (.text misspelt.text) = .error (.parse flaw) := by
  obtain ⟨accepts, means, _, others⟩ :=
    documents_mean_their_keys .standard Reader.delivers_standard derives_visitor sparse
  obtain ⟨_, _, rejects, _⟩ :=
    documents_mean_their_keys .standard Reader.delivers_standard derives_visitor misspelt
  have read : load (.text sparse.text) = .ok ⟨true, false⟩ := by
    obtain ⟨⟨proxy, preinstantiate⟩, read⟩ := accepts.mpr ⟨by decide, by decide, by decide⟩
    have given := (means _ read).given ⟨⟨preinstantiateKey, true⟩, ⟨"False", true⟩⟩ (by decide) false
      (by decide)
    have absent := (means _ read).absent proxyKey (by decide)
    simp only [at?, proxyKey_ne.symm, if_false, if_true, Option.some.injEq] at given absent
    rw [load, read, given, absent]
  have same := (others full).2 ⟨⟨proxyKey, true⟩, ⟨"TRUE", true⟩⟩ ⟨true, by decide, by decide⟩ (by decide)
    (by decide)
  refine ⟨by decide, read, (same _).mpr read, rejects fun legal => ?_⟩
  exact absurd (legal.known ⟨⟨"proxy_feature_parameter", true⟩, ⟨"false", true⟩⟩ (by decide)) (by decide)

end Settings

end Wiring
