import SchemaRules.Proofs.Paths
import SchemaRules.Proofs.Readings

/-!
# Schemas that are written and read again

A node is written as an object with an entry for each field that says something, and with every
extension. Reading puts each entry back where it comes from, whatever the order of the entries.

* `Schema.follow?`, `Schema.documentWay`: **the nodes below a schema**, and where the document has
  theirs.
* `Schema.readFrom_follow?`: every node is read from an object of the document.
* `Schema.ofJson_toJson`: **a schema is read again from what it is written as**, if no extension is
  named like a keyword.
* `Schema.follow?_toJson`: what a schema is written as has the written form of every node below it.
* `serialization_is_undone`: both for a schema that is read from a document.
-/

namespace SchemaRules

/-- What a way leads to is canonical, too. -/
theorem Json.Canonical.of_follow? {way : List Json.Step} : ∀ {v w : Json}, v.Canonical →
    v.follow? way = some w → w.Canonical := by
  induction way with
  | nil =>
    intro v w hv h
    cases h
    exact hv
  | cons step rest ih =>
    intro v w hv h
    obtain ⟨u, hu, hw⟩ := Option.bind_eq_some_iff.1 h
    refine ih ?_ hw
    cases v with
    | obj fields =>
      cases step with
      | key k => exact canonicalFields_iff.1 hv.2 _ (Fields.mem_of_get? hu)
      | item i => cases hu
    | arr items =>
      cases step with
      | key k => cases hu
      | item i => exact canonicalItems_iff.1 hv _ (List.mem_of_getElem? hu)
    | _ => cases hu

namespace Schema

/-! ## Nodes and their documents -/

/-- The node that a step leads to. -/
def part? (s : Schema) : Step → Option Schema
  | .property name => s.property? name
  | .items => s.items
  | .values => s.mapValues?

/-- **The node at the end of a way.** -/
def follow? (s : Schema) : List Step → Option Schema
  | [] => some s
  | step :: rest => (s.part? step).bind fun t => t.follow? rest

/-- The way from the document of a node to that of the node at a step. -/
def Step.inDocument : Step → List Json.Step
  | property name => [.key "properties", .key name]
  | items => [.key "items"]
  | values => [.key "additionalProperties"]

/-- **The way through a document** to that of a node. -/
def documentWay (way : List Step) : List Json.Step :=
  way.flatMap Step.inDocument

theorem additional_of_mapValues? {s t : Schema} (h : s.mapValues? = some t) :
    s.additional = some (.inr t) := by
  unfold mapValues? at h
  split at h
  · next he => cases h; exact he
  · cases h

/-- **The node at a step is read from the document there.** -/
theorem ReadFrom.part {fields : Fields Json} {s t : Schema} (h : ReadFrom fields s) {step : Step}
    (ht : s.part? step = some t) :
    ∃ w, (Json.obj fields).follow? step.inDocument = some w ∧ ofJson w = .ok t := by
  cases step with
  | property name =>
    have hne : s.properties ≠ [] := by
      intro he
      rw [part?, property?, he] at ht
      cases ht
    obtain ⟨v, hv, hread⟩ := h.properties.of_ne hne
    cases v with
    | obj listed =>
      obtain ⟨w, hw, hof⟩ := get?_propertyEntries hread ht
      refine ⟨w, ?_, hof⟩
      simp only [Step.inDocument, Json.follow?, Json.part?, hv, Option.bind_some, hw]
    | _ => cases hread
  | items =>
    obtain ⟨v, hv, hread⟩ := h.items.of_ne (by rw [show s.items = some t from ht]; nofun)
    refine ⟨v, by simp only [Step.inDocument, Json.follow?, Json.part?, hv, Option.bind_some], ?_⟩
    simp only [unlessNull, show s.items = some t from ht] at hread
    split at hread
    · cases hread
    · obtain ⟨_, hof, he⟩ := map_eq_ok hread
      cases he
      exact hof
  | values =>
    have hadditional := additional_of_mapValues? ht
    obtain ⟨v, hv, hread⟩ := h.additional.of_ne (by rw [hadditional]; nofun)
    refine ⟨v, by simp only [Step.inDocument, Json.follow?, Json.part?, hv, Option.bind_some], ?_⟩
    simp only [additionalOf, hadditional] at hread
    split at hread
    · cases hread
    · cases hread
    · obtain ⟨_, hof, he⟩ := map_eq_ok (alternative_eq_ok hread)
      cases he
      exact hof

/-- A schema is read from an object. -/
theorem exists_of_ofJson {v : Json} {s : Schema} (hv : v.Canonical) (h : ofJson v = .ok s) :
    ∃ fields, v = .obj fields ∧ ReadFrom fields s := by
  cases v with
  | obj fields => exact ⟨fields, rfl, readFrom_of_ofJson hv.1 h⟩
  | _ => cases h

/-- **Every node is read from an object** of the document. -/
theorem readFrom_follow? (way : List Step) : ∀ {v : Json} {s t : Schema}, v.Canonical →
    ofJson v = .ok s → s.follow? way = some t →
    ∃ fields, v.follow? (documentWay way) = some (.obj fields) ∧ ReadFrom fields t := by
  induction way with
  | nil =>
    intro v s t hv h ht
    cases ht
    obtain ⟨fields, rfl, hread⟩ := exists_of_ofJson hv h
    exact ⟨fields, rfl, hread⟩
  | cons step rest ih =>
    intro v s t hv h ht
    obtain ⟨u, hu, ht⟩ := Option.bind_eq_some_iff.1 ht
    obtain ⟨fields, rfl, hread⟩ := exists_of_ofJson hv h
    obtain ⟨w, hw, hof⟩ := hread.part hu
    obtain ⟨listed, hlisted, hread⟩ := ih (hv.of_follow? hw) hof ht
    refine ⟨listed, ?_, hread⟩
    rw [documentWay, List.flatMap_cons, Json.follow?_append, hw]
    exact hlisted

/-! ## The written form of a node -/

/-- The entries that a node is written as, before they are put in order. -/
def writtenEntries (s : Schema) : List (String × Json) :=
  entryIf "type" (typesJson s.types) (!s.types.isEmpty) ++
  textEntry "format" s.format ++
  textEntry "description" s.description ++
  entryIf "properties" (.obj (propertiesJson s.properties)) (!s.properties.isEmpty) ++
  itemsEntry s.items ++
  additionalEntry s.additional ++
  entryIf "required" (.arr (s.required.map .str)) (!s.required.isEmpty) ++
  entryIf "nullable" (.bool true) s.nullable ++
  s.extensions

theorem toJson_eq (s : Schema) : s.toJson = .obj (Fields.ofList s.writtenEntries) := by
  cases s
  rw [toJson]
  rfl

/-- What is said about additional properties, when it is written. -/
def additionalJson : Bool ⊕ Schema → Json
  | .inl b => .bool b
  | .inr t => t.toJson

/-- **What a node has under a key** when it is written: the field of a keyword, if it says
something, or an extension. -/
def entry? (s : Schema) (key : String) : Option Json :=
  match key with
  | "type" => if s.types.isEmpty then none else some (typesJson s.types)
  | "format" => s.format.map .str
  | "description" => s.description.map .str
  | "properties" =>
    if s.properties.isEmpty then none else some (.obj (propertiesJson s.properties))
  | "items" => s.items.map toJson
  | "additionalProperties" => s.additional.map additionalJson
  | "required" => if s.required.isEmpty then none else some (.arr (s.required.map .str))
  | "nullable" => if s.nullable then some (.bool true) else none
  | _ => Fields.get? key s.extensions

theorem entry?_of_notMem {s : Schema} {key : String} (h : key ∉ keywords) :
    s.entry? key = Fields.get? key s.extensions := by
  unfold entry?
  split
  all_goals first | exact absurd (by decide) h | rfl

section Written

variable {s : Schema} {key : String}

/-- **No extension is named like a keyword.** -/
def Separate (s : Schema) : Prop :=
  ∀ key ∈ Fields.names s.extensions, key ∉ keywords

theorem mem_entryIf_iff {v : Json} {present : Bool} {e : String × Json} :
    e ∈ entryIf key v present ↔ present = true ∧ e = (key, v) := by
  unfold entryIf
  split <;> simp [*]

theorem mem_textEntry_iff {text : Option String} {e : String × Json} :
    e ∈ textEntry key text ↔ ∃ x, text = some x ∧ e = (key, .str x) := by
  cases text <;> simp [textEntry]

theorem mem_itemsEntry_iff {items : Option Schema} {e : String × Json} :
    e ∈ itemsEntry items ↔ ∃ t, items = some t ∧ e = ("items", t.toJson) := by
  cases items <;> simp [itemsEntry]

theorem mem_additionalEntry_iff {additional : Option (Bool ⊕ Schema)} {e : String × Json} :
    e ∈ additionalEntry additional ↔
      ∃ x, additional = some x ∧ e = ("additionalProperties", additionalJson x) := by
  rcases additional with _ | b | t <;> simp [additionalEntry, additionalJson]

/-- **The entries of a node**, one for each key. -/
theorem mem_writtenEntries_iff (hext : Fields.Ordered s.extensions) (hs : s.Separate) {v : Json} :
    (key, v) ∈ s.writtenEntries ↔ s.entry? key = some v := by
  simp only [writtenEntries, List.mem_append, mem_entryIf_iff, mem_textEntry_iff,
    mem_itemsEntry_iff, mem_additionalEntry_iff, Prod.mk.injEq]
  have hno : ∀ key ∈ keywords, (key, v) ∉ s.extensions := fun key hkey he =>
    hs key (List.mem_map_of_mem he) hkey
  simp only [keywords, List.forall_mem_cons] at hno
  obtain ⟨htype, hformat, hdescription, hproperties, hitems, hadditional, hrequired, hnullable,
    -⟩ := hno
  -- under a keyword there is the entry of its field only, under another key only an extension
  unfold entry?
  split
  · simp [htype, eq_comm (a := v)]
  · simp [hformat, eq_comm (a := v)]
  · simp [hdescription, eq_comm (a := v)]
  · simp [hproperties, eq_comm (a := v)]
  · simp [hitems, eq_comm (a := v)]
  · simp [hadditional, eq_comm (a := v)]
  · simp [hrequired, eq_comm (a := v)]
  · simp [hnullable, eq_comm (a := v)]
  · next h₁ h₂ h₃ h₄ h₅ h₆ h₇ h₈ =>
    simp only [eq_false h₁, eq_false h₂, eq_false h₃, eq_false h₄, eq_false h₅, eq_false h₆,
      eq_false h₇, eq_false h₈, false_and, and_false, exists_false, false_or]
    exact hext.get?_eq_some_iff.symm

/-- **What is found under a key** of the written form. -/
theorem get?_ofList_writtenEntries (hext : Fields.Ordered s.extensions) (hs : s.Separate)
    (key : String) : Fields.get? key (Fields.ofList s.writtenEntries) = s.entry? key := by
  refine Option.ext fun v => ?_
  rw [(Fields.ordered_ofList _).get?_eq_some_iff, ← mem_writtenEntries_iff hext hs]
  refine ⟨Fields.mem_of_mem_ofList, fun h => ?_⟩
  -- the key has a field, and of entries with the key there is only one
  obtain ⟨e, he, hkey⟩ := List.mem_map.1
    (Fields.mem_names_ofList_iff.2 (List.mem_map_of_mem (f := Prod.fst) h))
  obtain ⟨k, w⟩ := e
  obtain rfl : k = key := hkey
  have hw := (mem_writtenEntries_iff hext hs).1 (Fields.mem_of_mem_ofList he)
  rw [(mem_writtenEntries_iff hext hs).1 h] at hw
  cases hw
  exact he

/-! ## Reading the written form -/

theorem textsOf_map_str (texts : List String) : textsOf (.arr (texts.map .str)) = .ok texts := by
  have htext : ∀ text, (Json.str text).asText = .ok text := fun _ => rfl
  exact mapM_map_eq_ok htext texts

theorem typesOf_typesJson (types : List String) : typesOf (typesJson types) = .ok types := by
  unfold typesJson
  split
  · rfl
  · rw [typesOf, textsOf_map_str]
    nofun

theorem unlessNull_toJson {t : Schema} (h : ofJson t.toJson = .ok t) :
    unlessNull t.toJson (ofJson t.toJson) = .ok (some t) := by
  rw [h, toJson_eq]
  rfl

theorem additionalOf_additionalJson {x : Bool ⊕ Schema}
    (h : ∀ t, x = .inr t → ofJson t.toJson = .ok t) :
    additionalOf (additionalJson x) (ofJson (additionalJson x)) = .ok (some x) := by
  cases x with
  | inl b => rfl
  | inr t =>
    rw [additionalJson, h t rfl, toJson_eq]
    rfl

/-- The extensions are the entries that are no keywords. -/
theorem others_ofList_writtenEntries (hext : Fields.Ordered s.extensions) (hs : s.Separate) :
    others (Fields.ofList s.writtenEntries) = s.extensions := by
  have hordered := Fields.ordered_ofList s.writtenEntries
  refine Fields.Ordered.eq_of_mem_iff (hordered.filter _) hext fun e => ?_
  obtain ⟨key, v⟩ := e
  rw [others, List.mem_filter, ← hordered.get?_eq_some_iff, get?_ofList_writtenEntries hext hs,
    decide_eq_true_eq]
  constructor
  · rintro ⟨hv, hkey⟩
    rw [entry?_of_notMem hkey] at hv
    exact Fields.mem_of_get? hv
  · intro he
    have hkey := hs key (List.mem_map_of_mem he)
    rw [entry?_of_notMem hkey]
    exact ⟨hext.get?_eq_some_iff.2 he, hkey⟩

/-- A field that is written if it says something is read back. -/
theorem fieldOf_of_ite {α : Type} {fields : Fields Json} {read : Json → Except Mismatch α}
    {absent field : α} {silent : Bool} {v : Json}
    (hget : Fields.get? key fields = if silent then none else some v)
    (habsent : silent = true → field = absent) (hread : read v = .ok field) :
    FieldOf fields key read absent field := by
  rw [FieldOf, hget]
  cases silent with
  | true => exact habsent rfl
  | false => exact hread

/-- A field that may be left out is read back. -/
theorem fieldOf_of_map {α : Type} {fields : Fields Json} {read : Json → Except Mismatch (Option α)}
    {field : Option α} {write : α → Json} (hget : Fields.get? key fields = field.map write)
    (hread : ∀ x, field = some x → read (write x) = .ok (some x)) :
    FieldOf fields key read none field := by
  rw [FieldOf, hget]
  cases field with
  | none => rfl
  | some x => exact hread x rfl

/-- **A node is read from its written form**, if the nodes at its steps are. -/
theorem readFrom_writtenEntries (hext : Fields.Ordered s.extensions) (hs : s.Separate)
    (hproperties : propertyEntries (propertiesJson s.properties) = .ok s.properties)
    (hitems : ∀ t, s.items = some t → ofJson t.toJson = .ok t)
    (hvalues : ∀ t, s.additional = some (.inr t) → ofJson t.toJson = .ok t) :
    ReadFrom (Fields.ofList s.writtenEntries) s := by
  have hget := get?_ofList_writtenEntries hext hs
  constructor
  · exact fieldOf_of_ite (hget _) List.isEmpty_iff.1 (typesOf_typesJson s.types)
  · exact fieldOf_of_map (hget _) fun _ _ => rfl
  · exact fieldOf_of_map (hget _) fun _ _ => rfl
  · exact fieldOf_of_ite (hget _) List.isEmpty_iff.1 hproperties
  · exact fieldOf_of_map (hget _) fun t ht => unlessNull_toJson (hitems t ht)
  · exact fieldOf_of_map (hget _) fun x hx =>
      additionalOf_additionalJson fun t ht => hvalues t (ht ▸ hx)
  · exact fieldOf_of_ite (hget _) List.isEmpty_iff.1 (textsOf_map_str s.required)
  · rw [FieldOf, hget, entry?]
    cases s.nullable <;> rfl
  · exact (others_ofList_writtenEntries hext hs).symm

theorem ofJson_toJson_of_parts (hext : Fields.Ordered s.extensions) (hs : s.Separate)
    (hproperties : propertyEntries (propertiesJson s.properties) = .ok s.properties)
    (hitems : ∀ t, s.items = some t → ofJson t.toJson = .ok t)
    (hvalues : ∀ t, s.additional = some (.inr t) → ofJson t.toJson = .ok t) :
    ofJson s.toJson = .ok s := by
  rw [toJson_eq, ofJson_eq_ok_iff (Fields.ordered_ofList _)]
  exact readFrom_writtenEntries hext hs hproperties hitems hvalues

end Written

/-- **No node has an extension that is named like a keyword.** -/
def SeparateBelow (s : Schema) : Prop :=
  ∀ way t, s.follow? way = some t → t.Separate

theorem SeparateBelow.part {s t : Schema} (h : s.SeparateBelow) (step : Step)
    (ht : s.part? step = some t) : t.SeparateBelow := by
  intro way u hu
  refine h (step :: way) u ?_
  rw [follow?, ht]
  exact hu

mutual
/-- **A schema is read again from what it is written as.** -/
theorem ofJson_toJson : ∀ {s : Schema}, s.Canonical → s.SeparateBelow → ofJson s.toJson = .ok s
  -- by the recursion that writes: the parts of a node are read again before the node is
  | ⟨_, _, _, properties, items, additional, _, _, _⟩, ⟨hordered, hext, hp, hi, ha⟩, hs => by
    have hproperty : ∀ e ∈ properties, e.2.SeparateBelow := fun e he =>
      hs.part (.property e.1) (hordered.get?_eq_some_iff.2 he)
    have hitem : ∀ t, items = some t → t.SeparateBelow := fun t ht =>
      hs.part .items ht
    have hvalue : ∀ t, additional = some (.inr t) → t.SeparateBelow := fun t ht =>
      hs.part .values (by rw [part?, mapValues?, ht])
    exact ofJson_toJson_of_parts hext (hs [] _ rfl) (propertyEntries_propertiesJson hp hproperty)
      (ofJson_toJson_items hi hitem) (ofJson_toJson_values ha hvalue)
theorem propertyEntries_propertiesJson : ∀ {properties : List (String × Schema)},
    CanonicalProperties properties → (∀ e ∈ properties, e.2.SeparateBelow) →
      propertyEntries (propertiesJson properties) = .ok properties
  | [], _, _ => by
    rw [propertiesJson, propertyEntries]
  | (name, s) :: rest, hp, hs => by
    obtain ⟨hfirst, hrest⟩ := List.forall_mem_cons.1 hs
    rw [propertiesJson, propertyEntries, ofJson_toJson hp.1 hfirst,
      propertyEntries_propertiesJson hp.2 hrest]
    rfl
theorem ofJson_toJson_items : ∀ {items : Option Schema}, CanonicalItems items →
    (∀ t, items = some t → t.SeparateBelow) → ∀ t, items = some t → ofJson t.toJson = .ok t
  | none, _, _, _, h => nomatch h
  | some t, hi, hs, _, rfl => ofJson_toJson hi (hs t rfl)
theorem ofJson_toJson_values : ∀ {additional : Option (Bool ⊕ Schema)},
    CanonicalAdditional additional → (∀ t, additional = some (.inr t) → t.SeparateBelow) →
      ∀ t, additional = some (.inr t) → ofJson t.toJson = .ok t
  | none, _, _, _, h => nomatch h
  | some (.inl _), _, _, _, h => nomatch h
  | some (.inr t), ha, hs, _, rfl => ofJson_toJson ha (hs t rfl)
end

/-! ## The nodes of the written form -/

theorem propertiesJson_eq_map (properties : List (String × Schema)) :
    propertiesJson properties = properties.map fun e => (e.1, e.2.toJson) := by
  induction properties with
  | nil => rw [propertiesJson, List.map_nil]
  | cons e rest ih => rw [propertiesJson, ih, List.map_cons]

theorem Canonical.ordered_extensions {s : Schema} (h : s.Canonical) :
    Fields.Ordered s.extensions := by
  cases s
  exact h.2.1

theorem Canonical.part {s t : Schema} (h : s.Canonical) {step : Step}
    (ht : s.part? step = some t) : t.Canonical := by
  cases step with
  | property name =>
    obtain ⟨_, _, _, properties, _, _, _, _, _⟩ := s
    exact RuleTree.canonicalProperties_iff.1 h.2.2.1 _ (Fields.mem_of_get? ht)
  | items => exact RuleTree.canonical_items h ht
  | values =>
    obtain ⟨_, _, _, _, _, additional, _, _, _⟩ := s
    obtain rfl : additional = some (.inr t) := additional_of_mapValues? ht
    exact h.2.2.2.2

/-- **The written form of a node has that of the node at a step.** -/
theorem follow?_inDocument_toJson {s t : Schema} (hext : Fields.Ordered s.extensions)
    (hs : s.Separate) {step : Step} (ht : s.part? step = some t) :
    s.toJson.follow? step.inDocument = some t.toJson := by
  have hget := get?_ofList_writtenEntries hext hs
  rw [toJson_eq]
  cases step with
  | property name =>
    have hne : s.properties.isEmpty = false := by
      cases hp : s.properties with
      | nil => rw [part?, property?, hp] at ht; cases ht
      | cons e rest => rfl
    have hchild : Fields.get? name (propertiesJson s.properties) = some t.toJson := by
      rw [propertiesJson_eq_map, Fields.get?_map,
        show Fields.get? name s.properties = some t from ht]
      rfl
    simp [Step.inDocument, Json.follow?, Json.part?, hget, entry?, hne, hchild]
  | items =>
    have hitems : s.items = some t := ht
    simp [Step.inDocument, Json.follow?, Json.part?, hget, entry?, hitems]
  | values =>
    simp [Step.inDocument, Json.follow?, Json.part?, hget, entry?, additional_of_mapValues? ht,
      additionalJson]

/-- **The written form of a schema has that of every node below it.** -/
theorem follow?_toJson (way : List Step) : ∀ {s t : Schema}, s.Canonical → s.SeparateBelow →
    s.follow? way = some t → s.toJson.follow? (documentWay way) = some t.toJson := by
  induction way with
  | nil =>
    intro s t _ _ ht
    cases ht
    rfl
  | cons step rest ih =>
    intro s t hc hs ht
    obtain ⟨u, hu, ht⟩ := Option.bind_eq_some_iff.1 ht
    have hstep := follow?_inDocument_toJson hc.ordered_extensions (hs [] s rfl) hu
    rw [documentWay, List.flatMap_cons, Json.follow?_append, hstep]
    exact ih (hc.part hu) (hs.part step hu) ht

/-- No entry that is read as an extension is named like a keyword. -/
theorem separateBelow_of_ofJson {v : Json} (hv : v.Canonical) {s : Schema}
    (h : ofJson v = .ok s) : s.SeparateBelow := by
  intro way t ht key hkey
  obtain ⟨fields, -, hread⟩ := readFrom_follow? way hv h ht
  rw [hread.extensions] at hkey
  obtain ⟨e, he, rfl⟩ := List.mem_map.1 hkey
  exact of_decide_eq_true (List.mem_filter.1 he).2

end Schema

open Schema in
/-- **Serialization is undone by reading.** A schema that is read from a document is read again from
what it is written as, so that to read and write once more changes nothing. At every node the
extensions are the entries of its document that are no keywords, and they are entries of what the
node is written as, which stands in what the schema is written as. -/
theorem serialization_is_undone {v : Json} (hv : v.Canonical) {s : Schema}
    (h : ofJson v = .ok s) :
    ofJson s.toJson = .ok s ∧ (ofJson s.toJson).map toJson = (ofJson v).map toJson ∧
    ∀ way t, s.follow? way = some t →
      ∃ fields, v.follow? (documentWay way) = some (.obj fields) ∧ ofJson (.obj fields) = .ok t ∧
        t.extensions = fields.filter (fun e => e.1 ∉ keywords) ∧
        s.toJson.follow? (documentWay way) = some t.toJson ∧
        ∀ key w, (key, w) ∈ t.extensions → t.toJson.get? key = some w := by
  have hc : s.Canonical := canonical_ofJson hv h
  have hs := separateBelow_of_ofJson hv h
  have hback : ofJson s.toJson = .ok s := ofJson_toJson hc hs
  refine ⟨hback, by rw [hback, h], fun way t ht => ?_⟩
  obtain ⟨fields, hdoc, hread⟩ := readFrom_follow? way hv h ht
  have hfields : Fields.Ordered fields := (hv.of_follow? hdoc).1
  have hof := (ofJson_eq_ok_iff hfields).2 hread
  have ht' : t.Separate := hs way t ht
  refine ⟨fields, hdoc, hof, hread.extensions, follow?_toJson way hc hs ht, fun key w hw => ?_⟩
  have hext : Fields.Ordered t.extensions := by
    rw [hread.extensions]
    exact hfields.filter _
  rw [toJson_eq, Json.get?, get?_ofList_writtenEntries hext ht',
    entry?_of_notMem (ht' key (List.mem_map_of_mem hw))]
  exact hext.get?_eq_some_iff.2 hw

/-- A document with fields that say nothing, a list of one type, and extensions at two nodes. -/
def shelves : Json :=
  .obj [("additionalProperties", .obj [("items", .obj [("x-unit", .arr [.null])])]),
    ("format", .null),
    ("properties", .obj [("n", .obj [("nullable", .bool false), ("type", .arr [.str "integer"]),
      ("x-hint", .null)])]),
    ("required", .arr []), ("type", .arr [.str "object"])]

/-- What says nothing is not written again, and the extensions are. -/
theorem shelves_are_written_again :
    shelves.Canonical ∧ ∃ s, Schema.ofJson shelves = .ok s ∧ Schema.ofJson s.toJson = .ok s ∧
      s.toJson = .obj [
        ("additionalProperties", .obj [("items", .obj [("x-unit", .arr [.null])])]),
        ("properties", .obj [("n", .obj [("type", .str "integer"), ("x-hint", .null)])]),
        ("type", .str "object")] ∧
      ∃ t, s.follow? [.values, .items] = some t ∧
        ∀ key w, (key, w) ∈ t.extensions → t.toJson.get? key = some w := by
  have hv : shelves.Canonical := by decide +kernel
  have h : Schema.ofJson shelves = .ok _ := rfl
  obtain ⟨hback, -, hnodes⟩ := serialization_is_undone hv h
  obtain ⟨-, -, -, -, -, hkept⟩ := hnodes [.values, .items] _ rfl
  exact ⟨hv, _, h, hback, rfl, _, rfl, hkept⟩

end SchemaRules
