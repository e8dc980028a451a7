import SchemaRules.Proofs.RoundTrip
import SchemaRules.Schema.OfYaml

/-!
# Schemas of documents

A schema that is read from a document is sound, whether the document is JSON or YAML: names ascend,
and no extension is named like a keyword, at every node.

* `Schema.SoundParts.sound`: **a node is sound if its parts are**.
* `Schema.sound_ofNode?`: a schema that is read from YAML is sound, entry by entry
  (`Schema.readNode?`).
* `Schema.OfDocument.sound`: **a schema of a document is sound**, so it is read again from what it
  is written as (`Schema.Sound.ofJson_toJson`).
-/

namespace SchemaRules.Schema

open Yaml (Node)

/-- **Names ascend and extensions are no keywords**, at every node. -/
structure Sound (s : Schema) : Prop where
  canonical : s.Canonical
  separate : s.SeparateBelow

/-- A sound schema is read again from what it is written as. -/
theorem Sound.ofJson_toJson {s : Schema} (h : s.Sound) : ofJson s.toJson = .ok s :=
  Schema.ofJson_toJson h.canonical h.separate

/-- What makes a node sound. -/
structure SoundParts (s : Schema) : Prop where
  ordered : Fields.Ordered s.properties
  extensions : Fields.Ordered s.extensions
  separate : s.Separate
  properties : ∀ e ∈ s.properties, e.2.Sound
  items : ∀ t, s.items = some t → t.Sound
  values : ∀ t, s.additional = some (.inr t) → t.Sound

theorem Sound.part {s t : Schema} (h : s.Sound) (step : Step) (ht : s.part? step = some t) :
    t.Sound :=
  ⟨h.canonical.part ht, h.separate.part step ht⟩

theorem Sound.parts {s : Schema} (h : s.Sound) : SoundParts s := by
  have hordered : Fields.Ordered s.properties := by
    have hc := h.canonical
    cases s
    exact hc.1
  refine ⟨hordered, h.canonical.ordered_extensions, h.separate [] s rfl, fun e he => ?_,
    fun t ht => ?_, fun t ht => ?_⟩
  · exact h.part (.property e.1) (hordered.get?_eq_some_iff.2 he)
  · exact h.part .items ht
  · exact h.part .values (by rw [part?, mapValues?, ht])

/-- **A node is sound if its parts are.** -/
theorem SoundParts.sound {s : Schema} (h : SoundParts s) : s.Sound := by
  constructor
  · obtain ⟨_, _, _, properties, items, additional, _, _, extensions⟩ := s
    refine ⟨h.ordered, h.extensions, ?_, ?_, ?_⟩
    · exact RuleTree.canonicalProperties_iff.2 fun e he => (h.properties e he).canonical
    · cases items with
      | none => trivial
      | some t => exact (h.items t rfl).canonical
    · rcases additional with _ | b | t
      · trivial
      · trivial
      · exact (h.values t rfl).canonical
  · intro way t ht
    cases way with
    | nil => cases ht; exact h.separate
    | cons step rest =>
      obtain ⟨u, hu, ht⟩ := Option.bind_eq_some_iff.1 ht
      have hsound : u.Sound := by
        cases step with
        | property name => exact h.properties _ (Fields.mem_of_get? hu)
        | items => exact h.items u hu
        | values => exact h.values u (additional_of_mapValues? hu)
      exact hsound.separate rest t ht

theorem sound_empty : Sound empty :=
  SoundParts.sound ⟨.nil, .nil, nofun, nofun, nofun, nofun⟩

/-- An extension with a name of its own keeps a node sound. -/
theorem Sound.extend {s : Schema} (h : s.Sound) {key : String} (hkey : key ∉ keywords) (v : Json) :
    (s.extend key v).Sound := by
  have hparts := h.parts
  refine SoundParts.sound ⟨hparts.ordered, hparts.extensions.insert key v, ?_, hparts.properties,
    hparts.items, hparts.values⟩
  intro name hname
  rcases Fields.mem_names_insert_iff.1 hname with rfl | hname
  · exact hkey
  · exact hparts.separate name hname

/-- A schema that is read from JSON is sound. -/
theorem sound_ofJson {v : Json} (hv : v.Canonical) {s : Schema} (h : ofJson v = .ok s) : s.Sound :=
  ⟨canonical_ofJson hv h, separateBelow_of_ofJson hv h⟩

/-! ## Reading YAML -/

/-- A node with one more entry of a mapping. -/
def readNode? (strict : Bool) (key : String) (n : Node) (s : Schema) : Option Schema :=
  match key with
  | "type" => do pure { s with types := ← nodeTypes? n }
  | "format" => do pure { s with format := ← nodeText? strict n }
  | "description" => do pure { s with description := ← nodeText? strict n }
  | "properties" => do pure { s with properties := ← nodeProperties? strict n }
  | "items" => do
    let absent ← n.isAbsent? strict
    let items ← if absent then pure none else some <$> ofNode? strict n
    pure { s with items }
  | "additionalProperties" => do
    let absent ← n.isAbsent? strict
    let additional ← if absent then pure none else some <$> nodeAdditional? n
    pure { s with additional }
  | "required" => do pure { s with required := ← n.texts? strict }
  | "nullable" => do pure { s with nullable := ← n.flag? strict }
  | _ => do pure (s.extend key (← n.content?))

theorem ofNodeEntries?_cons (strict : Bool) (k n : Node) (rest : List (Node × Node))
    (seen : List String) (s : Schema) :
    ofNodeEntries? strict ((k, n) :: rest) seen s = (do
      let key ← k.text? strict
      if seen.contains key then none
      else
        readNode? strict key n s >>=
          ofNodeEntries? strict rest (if keywords.contains key then key :: seen else seen)) := by
  rw [ofNodeEntries?]
  refine congrArg (Option.bind _) (funext fun key => ?_)
  by_cases hseen : seen.contains key = true
  · simp only [if_pos hseen]
    rfl
  · simp only [if_neg hseen]
    generalize (if keywords.contains key then key :: seen else seen) = seen'
    unfold readNode?
    -- the reader goes on within each case, so the rest has to be drawn into the choices
    have hite {α : Type} (c : Prop) [Decidable c] (x y : Option α) (f : α → Option Schema) :
        (if c then x else y) >>= f = if c then x >>= f else y >>= f := by split <;> rfl
    split <;> simp only [bind_assoc, pure_bind, hite]

/-- Properties that keep a node sound. -/
def SoundProperties (properties : List (String × Schema)) : Prop :=
  Fields.Ordered properties ∧ ∀ e ∈ properties, e.2.Sound

/-- **An entry of a mapping keeps a node sound**, if what is below the entry is sound. -/
theorem Sound.readNode? {strict : Bool} {key : String} {n : Node} {s t : Schema} (hs : s.Sound)
    (hproperties : ∀ {properties}, nodeProperties? strict n = some properties →
      SoundProperties properties)
    (hitems : ∀ {u}, ofNode? strict n = some u → u.Sound)
    (hvalues : ∀ {u}, nodeAdditional? n = some (.inr u) → u.Sound)
    (h : readNode? strict key n s = some t) : t.Sound := by
  have hparts := hs.parts
  unfold Schema.readNode? at h
  split at h
  -- an extension first, then the entries that hold schemas
  case h_9 h₁ h₂ h₃ h₄ h₅ h₆ h₇ h₈ =>
    obtain ⟨v, -, h⟩ := Option.bind_eq_some_iff.1 h
    cases h
    exact hs.extend (by simpa [keywords] using ⟨h₁, h₂, h₃, h₄, h₅, h₆, h₇, h₈⟩) v
  case h_4 =>
    obtain ⟨properties, hread, h⟩ := Option.bind_eq_some_iff.1 h
    cases h
    exact SoundParts.sound { hparts with
      ordered := (hproperties hread).1
      properties := (hproperties hread).2 }
  case h_5 =>
    obtain ⟨absent, -, h⟩ := Option.bind_eq_some_iff.1 h
    split at h
    · cases h
      exact SoundParts.sound { hparts with items := nofun }
    · obtain ⟨items, hread, h⟩ := Option.bind_eq_some_iff.1 h
      cases h
      obtain ⟨u, hu, rfl⟩ := Option.map_eq_some_iff.1 hread
      exact SoundParts.sound { hparts with items := fun _ ht => by cases ht; exact hitems hu }
  case h_6 =>
    obtain ⟨absent, -, h⟩ := Option.bind_eq_some_iff.1 h
    split at h
    · cases h
      exact SoundParts.sound { hparts with values := nofun }
    · obtain ⟨additional, hread, h⟩ := Option.bind_eq_some_iff.1 h
      cases h
      obtain ⟨x, hx, rfl⟩ := Option.map_eq_some_iff.1 hread
      exact SoundParts.sound { hparts with values := fun _ ht => by cases ht; exact hvalues hx }
  -- the other keywords change none of these parts
  all_goals
    obtain ⟨_, -, h⟩ := Option.bind_eq_some_iff.1 h
    cases h
    exact SoundParts.sound { hparts with }

mutual
/-- **A schema that is read from YAML is sound.** -/
theorem sound_ofNode? {strict : Bool} : ∀ {n : Node} {s : Schema}, ofNode? strict n = some s →
    s.Sound
  | .map _ entries, _, h => sound_ofNodeEntries? entries sound_empty h
  | .scalar _ style text, s, h => by
    rw [ofNode?.eq_def] at h
    split at h
    · contradiction
    · split at h
      · cases h
      · cases h
        exact sound_empty
    · cases h
  | .seq .., _, h => nomatch h
theorem sound_ofNodeEntries? {strict : Bool} : ∀ (entries : List (Node × Node))
    {seen : List String} {s t : Schema}, s.Sound → ofNodeEntries? strict entries seen s = some t →
    t.Sound
  | [], _, _, _, hs, h => by
    cases h
    exact hs
  | (k, n) :: rest, _, _, _, hs, h => by
    rw [ofNodeEntries?_cons] at h
    obtain ⟨key, -, h⟩ := Option.bind_eq_some_iff.1 h
    split at h
    · cases h
    · obtain ⟨u, hu, h⟩ := Option.bind_eq_some_iff.1 h
      exact sound_ofNodeEntries? rest
        (hs.readNode? sound_nodeProperties? sound_ofNode? sound_nodeAdditional? hu) h
theorem sound_nodeProperties? {strict : Bool} : ∀ {n : Node} {properties : List (String × Schema)},
    nodeProperties? strict n = some properties → SoundProperties properties
  | .map _ entries, _, h => sound_nodePropertyEntries? entries ⟨.nil, nofun⟩ h
  | .scalar _ style text, _, h => by
    rw [nodeProperties?.eq_def] at h
    split at h
    · contradiction
    · split at h
      · cases h
      · cases h
        exact ⟨.nil, nofun⟩
    · cases h
  | .seq .., _, h => nomatch h
theorem sound_nodePropertyEntries? {strict : Bool} : ∀ (entries : List (Node × Node))
    {before after : List (String × Schema)}, SoundProperties before →
    nodePropertyEntries? strict entries before = some after → SoundProperties after
  | [], _, _, hp, h => by
    cases h
    exact hp
  | (k, n) :: rest, _, _, hp, h => by
    rw [nodePropertyEntries?] at h
    obtain ⟨name, -, h⟩ := Option.bind_eq_some_iff.1 h
    obtain ⟨t, ht, h⟩ := Option.bind_eq_some_iff.1 h
    refine sound_nodePropertyEntries? rest ⟨hp.1.insert name t, fun e he => ?_⟩ h
    rcases Fields.mem_insert he with rfl | he
    · exact sound_ofNode? ht
    · exact hp.2 e he
theorem sound_nodeAdditional? : ∀ {n : Node} {s : Schema}, nodeAdditional? n = some (.inr s) →
    s.Sound
  | .map tag entries, _, h => by
    rw [nodeAdditional?] at h
    obtain ⟨_, -, h⟩ := Option.bind_eq_some_iff.1 h
    obtain ⟨t, ht, h⟩ := Option.bind_eq_some_iff.1 h
    cases h
    exact sound_ofNodeEntries? entries sound_empty ht
  | .scalar .., _, h => by
    obtain ⟨b, -, hb⟩ := Option.map_eq_some_iff.1 h
    cases hb
  | .seq .., _, h => by
    obtain ⟨b, -, hb⟩ := Option.map_eq_some_iff.1 h
    cases hb
end

theorem sound_ofYaml? {text : String} {s : Schema} (h : ofYaml? text = some s) : s.Sound := by
  obtain ⟨d, -, h⟩ := Option.bind_eq_some_iff.1 h
  split at h
  · cases h
    exact sound_empty
  · obtain ⟨n, -, h⟩ := Option.bind_eq_some_iff.1 h
    exact sound_ofNode? h

/-- **The schemas that documents hold**, at the root or below it. -/
inductive OfDocument : Schema → Prop
  | json {v : Json} {s : Schema} (hv : v.Canonical) (h : ofJson v = .ok s) : OfDocument s
  | yaml {text : String} {s : Schema} (h : ofYaml? text = some s) : OfDocument s
  | part {s t : Schema} {step : Step} (h : OfDocument s) (ht : s.part? step = some t) :
    OfDocument t

/-- **A schema of a document is sound.** -/
theorem OfDocument.sound {s : Schema} (h : OfDocument s) : s.Sound := by
  induction h with
  | json hv h => exact sound_ofJson hv h
  | yaml h => exact sound_ofYaml? h
  | part _ ht ih => exact ih.part _ ht

end SchemaRules.Schema
