import SchemaRules.Declaration.OfSchema
import SchemaRules.Proofs.Canonical

/-!
# What is read from a document and declared

* `Schema.reading_of_ofEntries`: **a field of a schema that is read is what stands under its
  keyword**, and is as before where the keyword is missing.
* `Schema.ofJson_eq_ok_iff`: **what is read from an object**: `Schema.ReadFrom` says it of every
  field and of the extensions.
* `Schema.get?_propertyEntries`, `Schema.get?_declareFields`: a listed property is read from its own
  document, and a field is declared by the schema of its own property.
-/

namespace SchemaRules.Schema

/-! ## Entries -/

/-- A node with one more entry. -/
def readEntry (key : String) (v : Json) (s : Schema) : Except Mismatch Schema :=
  match key with
  | "type" => do pure { s with types := ← typesOf v }
  | "format" => do pure { s with format := ← optionalText v }
  | "description" => do pure { s with description := ← optionalText v }
  | "properties" => do pure { s with properties := ← propertiesOf v }
  | "items" => do pure { s with items := ← unlessNull v (ofJson v) }
  | "additionalProperties" => do
    pure { s with additional := ← additionalOf v (ofJson v) }
  | "required" => do pure { s with required := ← textsOf v }
  | "nullable" => do pure { s with nullable := ← flagOf v }
  | _ => pure (s.extend key v)

theorem ofEntries_cons (key : String) (v : Json) (rest : Fields Json) (s : Schema) :
    ofEntries ((key, v) :: rest) s = readEntry key v s >>= ofEntries rest := by
  rw [ofEntries.eq_def]
  dsimp only
  unfold readEntry
  split <;> simp only [bind_assoc, pure_bind]

/-- **What an entry changes**: the field of its keyword is read from it, the others stay. -/
structure Reads (key : String) (v : Json) (s t : Schema) : Prop where
  types : if key = "type" then typesOf v = .ok t.types else t.types = s.types
  format : if key = "format" then optionalText v = .ok t.format else t.format = s.format
  description : if key = "description" then optionalText v = .ok t.description
    else t.description = s.description
  properties : if key = "properties" then propertiesOf v = .ok t.properties
    else t.properties = s.properties
  items : if key = "items" then unlessNull v (ofJson v) = .ok t.items else t.items = s.items
  additional : if key = "additionalProperties" then additionalOf v (ofJson v) = .ok t.additional
    else t.additional = s.additional
  required : if key = "required" then textsOf v = .ok t.required else t.required = s.required
  nullable : if key = "nullable" then flagOf v = .ok t.nullable else t.nullable = s.nullable
  extensions : t.extensions = if key ∈ keywords then s.extensions
    else Fields.insert key v s.extensions

theorem reads_of_readEntry {key : String} {v : Json} {s t : Schema}
    (h : readEntry key v s = .ok t) : Reads key v s t := by
  unfold readEntry at h
  split at h
  case h_9 htype hformat hdescription hproperties hitems hadditional hrequired hnullable =>
    -- an extension is none of the keywords
    cases h
    have hkey : key ∉ keywords := by
      simp only [keywords, List.mem_cons, not_or]
      exact ⟨htype, hformat, hdescription, hproperties, hitems, hadditional, hrequired, hnullable,
        List.not_mem_nil⟩
    constructor
    · rw [if_neg htype]; rfl
    · rw [if_neg hformat]; rfl
    · rw [if_neg hdescription]; rfl
    · rw [if_neg hproperties]; rfl
    · rw [if_neg hitems]; rfl
    · rw [if_neg hadditional]; rfl
    · rw [if_neg hrequired]; rfl
    · rw [if_neg hnullable]; rfl
    · rw [if_neg hkey]; rfl
  all_goals
    obtain ⟨a, ha, h⟩ := bind_eq_ok h
    cases h
    constructor
    all_goals first | exact ha | rfl

/-- What stands under a keyword, if it is there, is read as a field. -/
def FieldOf {α : Type} (fields : Fields Json) (key : String) (read : Json → Except Mismatch α)
    (absent field : α) : Prop :=
  match Fields.get? key fields with
  | some v => read v = .ok field
  | none => field = absent

/-- **A field is what stands under its keyword**, and stays as it was where that is missing. -/
theorem reading_of_ofEntries {α : Type} {key : String} {read : Json → Except Mismatch α}
    {field : Schema → α}
    (hentry : ∀ {k v s t}, Reads k v s t →
      if k = key then read v = .ok (field t) else field t = field s)
    {fields : Fields Json} (hfields : Fields.Ordered fields) {s t : Schema}
    (h : ofEntries fields s = .ok t) : FieldOf fields key read (field s) (field t) := by
  unfold FieldOf
  induction fields generalizing s with
  | nil =>
    cases h
    rfl
  | cons e rest ih =>
    obtain ⟨k, v⟩ := e
    rw [ofEntries_cons] at h
    obtain ⟨s', hs', h⟩ := bind_eq_ok h
    have hrest := ih hfields.tail h
    have hfirst := hentry (reads_of_readEntry hs')
    by_cases hk : k = key
    · subst hk
      rw [hfields.get?_tail] at hrest
      rw [if_pos rfl] at hfirst
      rw [Fields.get?_cons_self, hrest]
      exact hfirst
    · rw [if_neg hk] at hfirst
      rw [Fields.get?_cons_of_ne hk, ← hfirst]
      exact hrest

/-- The entries of a document that are no keywords. -/
def others (fields : Fields Json) : Fields Json :=
  fields.filter fun e => e.1 ∉ keywords

/-- **The extensions are the entries that are no keywords**, in their order, behind those that there
were before. -/
theorem extensions_of_ofEntries {fields : Fields Json} (hfields : Fields.Ordered fields)
    {s t : Schema} (h : ofEntries fields s = .ok t)
    (hs : ∀ key ∈ Fields.names s.extensions, ∀ e ∈ fields, key < e.1) :
    t.extensions = s.extensions ++ others fields := by
  induction fields generalizing s with
  | nil =>
    cases h
    exact (List.append_nil _).symm
  | cons e rest ih =>
    obtain ⟨k, v⟩ := e
    rw [ofEntries_cons] at h
    obtain ⟨s', hs', h⟩ := bind_eq_ok h
    have hstep := (reads_of_readEntry hs').extensions
    by_cases hk : k ∈ keywords
    · rw [if_pos hk] at hstep
      have hrest := ih hfields.tail h fun key hkey e he =>
        hs key (hstep ▸ hkey) e (List.mem_cons_of_mem _ he)
      rw [hrest, hstep, others, others, List.filter_cons_of_neg (by simpa using hk)]
    · -- the new extension comes behind the others, and in front of the entries to come
      rw [if_neg hk, Fields.insert_of_forall_lt fun key hkey => hs key hkey _ List.mem_cons_self]
        at hstep
      have hrest := ih hfields.tail h fun key hkey e he => by
        rw [hstep, Fields.names, List.map_append, List.mem_append] at hkey
        rcases hkey with hkey | hkey
        · exact hs key hkey e (List.mem_cons_of_mem _ he)
        · obtain rfl := List.mem_singleton.1 hkey
          exact (List.pairwise_cons.1 hfields).1 e he
      rw [hrest, hstep, List.append_assoc, others, others,
        List.filter_cons_of_pos (by simpa using hk), List.singleton_append]

/-- **The document of a schema**: every field is read from its keyword, and the other entries are
extensions. -/
structure ReadFrom (fields : Fields Json) (s : Schema) : Prop where
  types : FieldOf fields "type" typesOf [] s.types
  format : FieldOf fields "format" optionalText none s.format
  description : FieldOf fields "description" optionalText none s.description
  properties : FieldOf fields "properties" propertiesOf [] s.properties
  items : FieldOf fields "items" (fun v => unlessNull v (ofJson v)) none s.items
  additional :
    FieldOf fields "additionalProperties" (fun v => additionalOf v (ofJson v)) none s.additional
  required : FieldOf fields "required" textsOf [] s.required
  nullable : FieldOf fields "nullable" flagOf false s.nullable
  extensions : s.extensions = others fields

theorem readFrom_of_ofJson {fields : Fields Json} (hfields : Fields.Ordered fields) {s : Schema}
    (h : ofJson (.obj fields) = .ok s) : ReadFrom fields s := by
  rw [ofJson] at h
  constructor
  · exact reading_of_ofEntries (fun h => h.types) hfields h
  · exact reading_of_ofEntries (fun h => h.format) hfields h
  · exact reading_of_ofEntries (fun h => h.description) hfields h
  · exact reading_of_ofEntries (fun h => h.properties) hfields h
  · exact reading_of_ofEntries (fun h => h.items) hfields h
  · exact reading_of_ofEntries (fun h => h.additional) hfields h
  · exact reading_of_ofEntries (fun h => h.required) hfields h
  · exact reading_of_ofEntries (fun h => h.nullable) hfields h
  · exact extensions_of_ofEntries hfields h nofun

theorem FieldOf.of_some {α : Type} {fields : Fields Json} {key : String}
    {read : Json → Except Mismatch α} {absent field : α}
    (h : FieldOf fields key read absent field) {v : Json} (hv : Fields.get? key fields = some v) :
    read v = .ok field := by
  rw [FieldOf, hv] at h
  exact h

theorem FieldOf.of_ne {α : Type} {fields : Fields Json} {key : String}
    {read : Json → Except Mismatch α} {absent field : α}
    (h : FieldOf fields key read absent field) (hne : field ≠ absent) :
    ∃ v, Fields.get? key fields = some v ∧ read v = .ok field := by
  unfold FieldOf at h
  split at h
  · next v hv => exact ⟨v, hv, h⟩
  · exact absurd h hne

theorem FieldOf.unique {α : Type} {fields : Fields Json} {key : String}
    {read : Json → Except Mismatch α} {absent field field' : α}
    (h : FieldOf fields key read absent field) (h' : FieldOf fields key read absent field') :
    field = field' := by
  unfold FieldOf at h h'
  split at h
  · next v hv =>
    rw [hv] at h'
    exact Except.ok.inj (h.symm.trans h')
  · next hv =>
    rw [hv] at h'
    rw [h, h']

theorem ReadFrom.unique {fields : Fields Json} {s t : Schema} (hs : ReadFrom fields s)
    (ht : ReadFrom fields t) : s = t := by
  have htypes := hs.types.unique ht.types
  have hformat := hs.format.unique ht.format
  have hdescription := hs.description.unique ht.description
  have hproperties := hs.properties.unique ht.properties
  have hitems := hs.items.unique ht.items
  have hadditional := hs.additional.unique ht.additional
  have hrequired := hs.required.unique ht.required
  have hnullable := hs.nullable.unique ht.nullable
  have hextensions := hs.extensions.trans ht.extensions.symm
  cases s
  cases t
  rw [mk.injEq]
  exact ⟨htypes, hformat, hdescription, hproperties, hitems, hadditional, hrequired, hnullable,
    hextensions⟩

/-- The entry of a field that can be read is read. -/
theorem ReadFrom.readEntry_eq_ok {fields : Fields Json} {s : Schema} (h : ReadFrom fields s)
    {key : String} {v : Json} (hv : Fields.get? key fields = some v) (t : Schema) :
    ∃ t', readEntry key v t = .ok t' := by
  unfold readEntry
  split
  · rw [h.types.of_some hv]; exact ⟨_, rfl⟩
  · rw [h.format.of_some hv]; exact ⟨_, rfl⟩
  · rw [h.description.of_some hv]; exact ⟨_, rfl⟩
  · rw [h.properties.of_some hv]; exact ⟨_, rfl⟩
  · rw [h.items.of_some hv]; exact ⟨_, rfl⟩
  · rw [h.additional.of_some hv]; exact ⟨_, rfl⟩
  · rw [h.required.of_some hv]; exact ⟨_, rfl⟩
  · rw [h.nullable.of_some hv]; exact ⟨_, rfl⟩
  · exact ⟨_, rfl⟩

/-- Entries that can be read one by one are read. -/
theorem ofEntries_eq_ok {fields : Fields Json}
    (h : ∀ e ∈ fields, ∀ t, ∃ t', readEntry e.1 e.2 t = .ok t') (s : Schema) :
    ∃ t, ofEntries fields s = .ok t := by
  induction fields generalizing s with
  | nil => exact ⟨s, rfl⟩
  | cons e rest ih =>
    obtain ⟨hfirst, hrest⟩ := List.forall_mem_cons.1 h
    obtain ⟨s', hs'⟩ := hfirst s
    rw [ofEntries_cons, hs']
    exact ih hrest s'

/-- **What is read from an object**: each field from its keyword, and nothing else. -/
theorem ofJson_eq_ok_iff {fields : Fields Json} (hfields : Fields.Ordered fields) {s : Schema} :
    ofJson (.obj fields) = .ok s ↔ ReadFrom fields s := by
  refine ⟨readFrom_of_ofJson hfields, fun h => ?_⟩
  have hentries : ∀ e ∈ fields, ∀ t, ∃ t', readEntry e.1 e.2 t = .ok t' :=
    fun e he => h.readEntry_eq_ok (hfields.get?_eq_some_iff.2 he)
  obtain ⟨t, ht⟩ := ofEntries_eq_ok hentries empty
  have hread : ofJson (.obj fields) = .ok t := by
    rw [ofJson]
    exact ht
  rw [hread, (readFrom_of_ofJson hfields hread).unique h]

/-! ## Properties -/

/-- **A property is read from its own document.** -/
theorem get?_propertyEntries {listed : Fields Json} {ps : List (String × Schema)}
    (h : propertyEntries listed = .ok ps) {key : String} {s : Schema}
    (hs : Fields.get? key ps = some s) :
    ∃ part, Fields.get? key listed = some part ∧ ofJson part = .ok s := by
  induction listed generalizing ps with
  | nil => cases h; cases hs
  | cons e rest ih =>
    obtain ⟨name, v⟩ := e
    rw [propertyEntries] at h
    obtain ⟨s', hs', h⟩ := bind_eq_ok h
    obtain ⟨ps', hps', h⟩ := bind_eq_ok h
    cases h
    by_cases hname : name = key
    · subst hname
      rw [Fields.get?_cons_self] at hs ⊢
      cases hs
      exact ⟨v, rfl, hs'⟩
    · rw [Fields.get?_cons_of_ne hname] at hs ⊢
      exact ih hps' hs

/-- **A field is declared by the schema of its property.** -/
theorem get?_declareFields {name : String} {ps : List (String × Schema)}
    {ds : List (String × Declaration)} (h : declareFields name ps = .ok ds) {key : String}
    {d : Declaration} (hd : Fields.get? key ds = some d) :
    ∃ s place, Fields.get? key ps = some s ∧ s.declare place = .ok d := by
  induction ps generalizing ds with
  | nil => cases h; cases hd
  | cons e rest ih =>
    obtain ⟨field, s⟩ := e
    rw [declareFields] at h
    obtain ⟨d', hd', h⟩ := bind_eq_ok h
    obtain ⟨ds', hds', h⟩ := bind_eq_ok h
    cases h
    by_cases hfield : field = key
    · subst hfield
      rw [Fields.get?_cons_self] at hd ⊢
      cases hd
      exact ⟨s, _, rfl, hd'⟩
    · rw [Fields.get?_cons_of_ne hfield] at hd ⊢
      exact ih hds' hd

/-- A field is read from the document of its property. -/
theorem ReadFrom.field {fields : Fields Json} {s : Schema} (h : ReadFrom fields s) {name : String}
    {ds : List (String × Declaration)} (hds : declareFields name s.properties = .ok ds)
    {key : String} {d : Declaration} (hd : Fields.get? key ds = some d) :
    ∃ listed part child place, Fields.get? "properties" fields = some (.obj listed) ∧
      Fields.get? key listed = some part ∧ ofJson part = .ok child ∧
      child.declare place = .ok d := by
  obtain ⟨child, place, hchild, hdeclare⟩ := get?_declareFields hds hd
  have hproperties := h.properties
  unfold FieldOf at hproperties
  split at hproperties
  · next properties hget =>
    cases properties with
    | obj listed =>
      obtain ⟨part, hpart, hread⟩ := get?_propertyEntries hproperties hchild
      exact ⟨listed, part, child, place, hget, hpart, hread, hdeclare⟩
    | _ => cases hproperties
  · rw [hproperties] at hchild
    cases hchild

/-! ## Declarations -/

/-- **How a node is declared**, one case for each kind of value. -/
inductive DeclaredAs (s : Schema) : Declaration → Prop
  | map {values : Schema} {place : String} {d : Declaration} :
      s.typeName? = some "object" → s.additional = some (.inr values) →
      values.declare place = .ok d → DeclaredAs s (.map d)
  | object {name : String} {ds : List (String × Declaration)} :
      s.typeName? = some "object" → (∀ values, s.additional ≠ some (.inr values)) →
      declareFields name s.properties = .ok ds → DeclaredAs s (.object name ds)
  | list {items : Schema} {place : String} {d : Declaration} :
      s.typeName? = some "array" → s.items = some items → items.declare place = .ok d →
      DeclaredAs s (.list d)
  | string : s.typeName? = some "string" → DeclaredAs s .string
  | int : s.typeName? = some "integer" → DeclaredAs s .int
  | double : s.typeName? = some "number" → DeclaredAs s .double
  | bool : s.typeName? = some "boolean" → DeclaredAs s .bool

theorem declaredAs_of_declare {s : Schema} {name : String} {d : Declaration}
    (h : s.declare name = .ok d) : DeclaredAs s d := by
  obtain ⟨types, format, description, properties, items, additional, required, nullable,
    extensions⟩ := s
  rw [declare.eq_def] at h
  dsimp only at h
  split at h
  · cases h
  · next htype =>
    split at h
    · obtain ⟨d', hd', h⟩ := bind_eq_ok h
      cases h
      exact .map htype rfl hd'
    · next hno =>
      obtain ⟨ds, hds, h⟩ := bind_eq_ok h
      cases h
      exact .object htype hno hds
  · next htype =>
    split at h
    · obtain ⟨d', hd', h⟩ := bind_eq_ok h
      cases h
      exact .list htype rfl hd'
    · cases h
  · next htype => cases h; exact .string htype
  · next htype => cases h; exact .int htype
  · next htype => cases h; exact .double htype
  · next htype => cases h; exact .bool htype
  · cases h

end SchemaRules.Schema
