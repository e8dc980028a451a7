import SchemaRules.Proofs.Conversions

/-!
# Samples as values

A rule is tried on the value of a sample. The sample and its conversion follow the declaration side
by side, so the value is of the declared kind at every position, whatever keys its maps hold and
whatever order they stand in.

* `Declaration.Filled`: **a value that fills a declaration** as samples do, with everything that is
  declared and nothing else.
* `Declaration.filled_map`, `Declaration.filled_object`: maps and objects of samples are filled by
  the values of their parts.
* `values_of_samples_fill_declarations`: the value of every sample, by induction on the declaration.
-/

namespace SchemaRules

namespace Declaration

/-- **A value that fills a declaration.** A scalar is of the declared kind. A list has one item, a
map has values that are alike under the given keys and the empty one, an object has the declared
fields, and the parts fill their own declarations. -/
inductive Filled (keys : List String) : Declaration → Value → Prop
  | bool (b : Bool) : Filled keys .bool (.bool b)
  | int {n : Int} : Value.isInt n = true → Filled keys .int (.int n)
  | double (x : Float) : Filled keys .double (.double x)
  | string (s : String) : Filled keys .string (.str s)
  | list {d : Declaration} {w : Value} : Filled keys d w → Filled keys (.list d) (.list [w])
  | map {d : Declaration} {entries : List (Key × Value)} :
      (entries.map Prod.fst).Nodup →
      (∀ key, key ∈ entries.map Prod.fst ↔ ∃ k ∈ "" :: keys, key = .str k) →
      (∀ e ∈ entries, ∀ f ∈ entries, e.2.Alike f.2) → (∀ e ∈ entries, Filled keys d e.2) →
      Filled keys (.map d) (.map entries)
  | object {name : String} {ds : List (String × Declaration)} {entries : List (Key × Value)} :
      (entries.map Prod.fst).Perm ((Fields.names ds).map .str) →
      (∀ key d w, Fields.get? key ds = some d → Value.lookup? (.str key) entries = some w →
        Filled keys d w) →
      Filled keys (.object name ds) (.map entries)

variable {keys : List String}

/-- **The map of a sample** holds values of one sample under all keys. -/
theorem filled_map {d : Declaration} (h : ∀ s, d.Filled keys (d.convert (d.sample keys) s))
    (s : Seed) : (map d).Filled keys ((map d).convert ((map d).sample keys) s) := by
  have hkeys : ((s.arrange (convertValues d (sampleEntries keys (d.sample keys)) s)).map
      Prod.fst).Perm ((Fields.names (sampleEntries keys (d.sample keys))).map .str) := by
    refine (s.perm_keys_arrange _).trans (.of_eq ?_)
    rw [convertValues_eq_map, Fields.names, List.map_map, List.map_map]
    rfl
  have hvalues : ∀ e ∈ s.arrange (convertValues d (sampleEntries keys (d.sample keys)) s),
      ∃ t, e.2 = d.convert (d.sample keys) t := by
    intro e he
    rw [Seed.mem_arrange, convertValues_eq_map] at he
    obtain ⟨f, hf, rfl⟩ := List.mem_map.1 he
    exact ⟨s.under f.1, by rw [(mem_sampleEntries_iff.1 hf).2]⟩
  have hnodup := Fields.nodup_names (ordered_sampleEntries keys (d.sample keys))
  show (map d).Filled keys
    (.map (s.arrange (convertValues d (sampleEntries keys (d.sample keys)) s)))
  refine .map ?_ (fun key => ?_) (fun e he f hf => ?_) (fun e he => ?_)
  · rw [hkeys.nodup_iff]
    exact hnodup.map fun a b hab => Key.str.inj hab
  · rw [hkeys.mem_iff, List.mem_map]
    simp only [mem_names_sampleEntries_iff, eq_comm]
  · obtain ⟨t, ht⟩ := hvalues e he
    obtain ⟨u, hu⟩ := hvalues f hf
    rw [ht, hu]
    exact alike_convertAt (d.sample keys) (some d) t u
  · obtain ⟨t, ht⟩ := hvalues e he
    rw [ht]
    exact h t

/-- **The object of a sample** holds the value of the sample of each field. -/
theorem filled_object {ds : List (String × Declaration)}
    (h : ∀ e ∈ ds, ∀ s, e.2.Filled keys (e.2.convert (e.2.sample keys) s)) (name : String)
    (s : Seed) :
    (object name ds).Filled keys ((object name ds).convert ((object name ds).sample keys) s) := by
  rw [sample, convert]
  refine .object ?_ fun key d w hd hw => ?_
  · refine (s.perm_keys_arrange _).trans (.of_eq ?_)
    rw [← names_sampleFields keys ds, convertFields_eq_map, Fields.names, List.map_map,
      List.map_map]
    rfl
  · rw [Seed.lookup?_arrange, lookup?_convertFields hd, get?_sampleFields, hd] at hw
    cases hw
    exact h (key, d) (Fields.mem_of_get? hd) _

end Declaration

/-- **The value of a sample fills its declaration**, whatever keys were asked for: scalars are of
the declared kinds, every list has one item, every map has exactly the keys and the empty one, with
values that are alike, and every object has exactly the declared fields. -/
theorem values_of_samples_fill_declarations (d : Declaration) (keys : List String) (s : Seed) :
    d.Filled keys (d.convert (d.sample keys) s) := by
  induction d using Declaration.induct generalizing s with
  | bool => exact .bool false
  | int => exact .int (by decide)
  | double => exact .double 0.0
  | string => exact .string ""
  | list d ih => exact .list (ih s.here)
  | map d ih => exact Declaration.filled_map ih s
  | object name ds ih => exact Declaration.filled_object ih name s

example :
    (Declaration.list (.map .int)).convert ((Declaration.list (.map .int)).sample ["b", "a", "b"])
        .standard =
      .list [.map [(.str "", .int 0), (.str "a", .int 0), (.str "b", .int 0)]] := rfl

end SchemaRules
