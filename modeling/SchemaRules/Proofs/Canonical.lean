import SchemaRules.Schema.Reader

/-!
# Schemas that are read are canonical

* `Schema.canonical_ofJson`: **a schema that is read from a document is canonical**: its properties
  stand in the order of the document, and an extension is put in its place.
-/

namespace SchemaRules

/-! ## Steps that may fail -/

theorem bind_eq_ok {ε α β : Type} {x : Except ε α} {f : α → Except ε β} {b : β}
    (h : (x >>= f) = .ok b) : ∃ a, x = .ok a ∧ f a = .ok b := by
  cases x with
  | error e => cases h
  | ok a => exact ⟨a, rfl, h⟩

theorem map_eq_ok {ε α β : Type} {x : Except ε α} {f : α → β} {b : β}
    (h : (f <$> x) = .ok b) : ∃ a, x = .ok a ∧ f a = b := by
  cases x with
  | error e => cases h
  | ok a => cases h; exact ⟨a, rfl, rfl⟩

/-- A list is read again if each of its elements is. -/
theorem mapM_map_eq_ok {ε α β : Type} {read : β → Except ε α} {write : α → β}
    (h : ∀ a, read (write a) = .ok a) (items : List α) :
    (items.map write).mapM read = .ok items := by
  induction items with
  | nil => rfl
  | cons a rest ih =>
    rw [List.map_cons, List.mapM_cons, h, ih]
    rfl

namespace Schema

theorem canonical_empty : Canonical empty :=
  ⟨List.Pairwise.nil, List.Pairwise.nil, trivial, trivial, trivial⟩

theorem canonical_extend {s : Schema} (hs : s.Canonical) (key : String) (v : Json) :
    (s.extend key v).Canonical := by
  cases s
  obtain ⟨hp, he, hrest⟩ := hs
  exact ⟨hp, he.insert key v, hrest⟩

theorem alternative_eq_ok {α : Type} {choice : String} {x : Except Mismatch α} {a : α}
    (h : alternative choice x = .ok a) : x = .ok a := by
  cases x with
  | error e => cases h
  | ok _ => exact h

theorem canonical_unlessNull {v : Json} {x : Except Mismatch Schema} {items : Option Schema}
    (hx : ∀ s, x = .ok s → s.Canonical) (h : unlessNull v x = .ok items) :
    CanonicalItems items := by
  unfold unlessNull at h
  split at h
  · cases h; trivial
  · obtain ⟨s, hs, rfl⟩ := map_eq_ok h
    exact hx s hs

theorem canonical_additionalOf {v : Json} {x : Except Mismatch Schema}
    {additional : Option (Bool ⊕ Schema)} (hx : ∀ s, x = .ok s → s.Canonical)
    (h : additionalOf v x = .ok additional) : CanonicalAdditional additional := by
  unfold additionalOf at h
  split at h
  · cases h; trivial
  · cases h; trivial
  · obtain ⟨s, hs, rfl⟩ := map_eq_ok (alternative_eq_ok h)
    exact hx s hs

/-- A list of properties has the names of the entries that it is read from. -/
theorem names_propertyEntries {fields : List (String × Json)} {ps : List (String × Schema)}
    (h : propertyEntries fields = .ok ps) : Fields.names ps = Fields.names fields := by
  induction fields generalizing ps with
  | nil => cases h; rfl
  | cons e rest ih =>
    obtain ⟨name, v⟩ := e
    rw [propertyEntries] at h
    obtain ⟨s, -, h⟩ := bind_eq_ok h
    obtain ⟨qs, hqs, h⟩ := bind_eq_ok h
    cases h
    exact congrArg (name :: ·) (ih hqs)

mutual
/-- **A schema that is read from a document is canonical.** -/
theorem canonical_ofJson : ∀ {v : Json} {s : Schema}, v.Canonical → ofJson v = .ok s → s.Canonical
  | .obj _, _, hv, h => canonical_ofEntries hv.2 canonical_empty h
theorem canonical_ofEntries : ∀ {fields : List (String × Json)} {s t : Schema},
    Json.CanonicalFields fields → s.Canonical → ofEntries fields s = .ok t → t.Canonical
  | [], _, _, _, hs, h => by cases h; exact hs
  | (key, v) :: rest, s, t, hf, hs, h => by
    have hsub : ∀ s, ofJson v = .ok s → s.Canonical := fun _ h => canonical_ofJson hf.1 h
    have hext := canonical_extend hs key v
    obtain ⟨_, _, _, _, _, _, _, _, _⟩ := s
    obtain ⟨hp, he, hps, hi, ha⟩ := hs
    unfold ofEntries at h
    dsimp only at h
    split at h
    -- the entries that hold schemas, then an extension, then the others
    case h_4 =>
      obtain ⟨ps, hread, h⟩ := bind_eq_ok h
      obtain ⟨hp, hps⟩ := canonical_propertiesOf hf.1 hread
      refine canonical_ofEntries hf.2 ?_ h
      exact ⟨hp, he, hps, hi, ha⟩
    case h_5 =>
      obtain ⟨items, hread, h⟩ := bind_eq_ok h
      refine canonical_ofEntries hf.2 ?_ h
      exact ⟨hp, he, hps, canonical_unlessNull hsub hread, ha⟩
    case h_6 =>
      obtain ⟨additional, hread, h⟩ := bind_eq_ok h
      refine canonical_ofEntries hf.2 ?_ h
      exact ⟨hp, he, hps, hi, canonical_additionalOf hsub hread⟩
    case h_9 => exact canonical_ofEntries hf.2 hext h
    all_goals
      obtain ⟨_, -, h⟩ := bind_eq_ok h
      refine canonical_ofEntries hf.2 ?_ h
      exact ⟨hp, he, hps, hi, ha⟩
theorem canonical_propertiesOf : ∀ {v : Json} {ps : List (String × Schema)},
    v.Canonical → propertiesOf v = .ok ps → Fields.Ordered ps ∧ CanonicalProperties ps
  | .obj fields, ps, hv, h => by
    refine ⟨?_, canonical_propertyEntries hv.2 h⟩
    rw [Fields.ordered_iff_names, names_propertyEntries h, ← Fields.ordered_iff_names]
    exact hv.1
theorem canonical_propertyEntries : ∀ {fields : List (String × Json)} {ps : List (String × Schema)},
    Json.CanonicalFields fields → propertyEntries fields = .ok ps → CanonicalProperties ps
  | [], _, _, h => by cases h; trivial
  | (name, v) :: rest, ps, hf, h => by
    rw [propertyEntries] at h
    obtain ⟨s, hs, h⟩ := bind_eq_ok h
    obtain ⟨qs, hqs, h⟩ := bind_eq_ok h
    cases h
    exact ⟨canonical_ofJson hf.1 hs, canonical_propertyEntries hf.2 hqs⟩
end

end Schema

end SchemaRules
