import SchemaRules.Proofs.RoundTrip
import SchemaRules.Proofs.Skeletons

/-!
# What a skeleton keeps

The skeleton of a schema is a schema again. It has the same nodes, and of a node it changes no more
than the type and the marks.

* `Structure.skeleton_skeleton`: **the skeleton of a skeleton is the skeleton itself**, since its
  entries are as a skeleton has them.
* `Structure.follow?_skeleton`: **the nodes of a skeleton are the skeletons of the nodes**, at the
  same places.
* `Structure.Retyped`, `Structure.Retains`: what becomes of the type of a node, and of its other
  entries.
* `skeleton_changes_types_and_marks`: all of this for a schema document.
-/

namespace SchemaRules

open Schema (documentWay)

namespace Structure

/-! ## Entries -/

/-- **The entries of a skeleton** are those without `nullable` and `format`, in their order. -/
theorem skeletonEntries_eq (fields : Fields Json) :
    skeletonEntries fields =
      (fields.filter fun e => e.1 ≠ "nullable" ∧ e.1 ≠ "format").map
        fun e => (e.1, skeletonUnder e.1 e.2) := by
  induction fields with
  | nil => rw [skeletonEntries]; rfl
  | cons e rest ih =>
    obtain ⟨key, v⟩ := e
    rw [skeletonEntries, ih]
    by_cases hdrop : key = "nullable" ∨ key = "format"
    · rw [if_pos hdrop, List.filter_cons_of_neg (by simpa [or_iff_not_imp_left] using hdrop)]
    · rw [if_neg hdrop, List.filter_cons_of_pos (by simpa using hdrop), List.map_cons]
      rfl

theorem names_skeletonEntries_eq (fields : Fields Json) :
    Fields.names (skeletonEntries fields) =
      (Fields.names fields).filter fun key => key ≠ "nullable" ∧ key ≠ "format" := by
  rw [skeletonEntries_eq, Fields.names, Fields.names, List.map_map, List.filter_map]
  rfl

/-- Entries that are as a skeleton has them stay as they are. -/
theorem skeletonEntries_eq_self {fields : Fields Json}
    (hkeys : ∀ e ∈ fields, e.1 ≠ "nullable" ∧ e.1 ≠ "format")
    (hvalues : ∀ e ∈ fields, skeletonUnder e.1 e.2 = e.2) : skeletonEntries fields = fields := by
  have hkept : (fields.filter fun e => e.1 ≠ "nullable" ∧ e.1 ≠ "format") = fields :=
    List.filter_eq_self.2 fun e he => decide_eq_true (hkeys e he)
  rw [skeletonEntries_eq, hkept]
  exact (List.map_congr_left fun e he => by rw [hvalues e he]; rfl).trans (List.map_id fields)

/-- An entry of a node is one of the entries of its skeleton, or the type. -/
theorem mem_node {fields : Fields Json} {e : String × Json} (h : e ∈ node fields) :
    e.1 = "type" ∨ e ∈ skeletonEntries fields := by
  unfold node widen at h
  split at h
  · split at h
    · rcases Fields.mem_insert h with rfl | h
      · exact .inl rfl
      · exact .inr h
    · exact .inr h
  · exact .inr h

theorem names_node {fields : Fields Json} (h : Fields.Ordered fields) :
    Fields.names (node fields) =
      (Fields.names fields).filter fun key => key ≠ "nullable" ∧ key ≠ "format" := by
  rw [← names_skeletonEntries_eq, node]
  split
  · unfold widen
    split
    · next types htype =>
      have hentries : Fields.Ordered (skeletonEntries fields) := by
        rw [Fields.ordered_iff_names] at h ⊢
        exact h.sublist (names_skeletonEntries fields)
      exact hentries.names_insert (Fields.mem_names_of_get? htype) _
    · rfl
  · rfl

/-- **The node of a skeleton stays as it is**, if the values under its keywords do. -/
theorem node_node {fields : Fields Json}
    (hvalues : ∀ e ∈ skeletonEntries fields, skeletonUnder e.1 e.2 = e.2) :
    node (node fields) = node fields := by
  have hkeys : ∀ e ∈ node fields, e.1 ≠ "nullable" ∧ e.1 ≠ "format" := by
    intro e he
    rcases mem_node he with htype | he
    · rw [htype]; decide
    · have hname := List.mem_map_of_mem (f := Prod.fst) he
      rw [← Fields.names, names_skeletonEntries_eq] at hname
      exact of_decide_eq_true (List.mem_filter.1 hname).2
  have hsame : ∀ e ∈ node fields, skeletonUnder e.1 e.2 = e.2 := by
    intro e he
    rcases mem_node he with htype | he
    · rw [htype]; rfl
    · exact hvalues e he
  -- no node of a skeleton is marked, so nothing is widened twice
  have hmark : Fields.get? "nullable" (node fields) = none :=
    Fields.get?_eq_none_iff.2 fun hname => by
      obtain ⟨e, he, hkey⟩ := List.mem_map.1 hname
      exact (hkeys e he).1 hkey
  have hplain : isNullable (node fields) = false := by
    rw [isNullable, hmark]
  conv_lhs => rw [node, hplain, if_neg Bool.false_ne_true]
  exact skeletonEntries_eq_self hkeys hsame

/-! ## The skeleton of a skeleton -/

mutual
/-- **The skeleton of a skeleton is the skeleton itself.** -/
theorem skeleton_skeleton : ∀ v : Json, skeleton (skeleton v) = skeleton v
  | .obj fields => by
    rw [skeleton_obj, skeleton_obj, node_node (skeletonUnder_of_mem fields)]
  | .null | .bool _ | .int _ | .double _ | .str _ | .arr _ => by
    simp only [skeleton]
/-- What stands under a keyword of a skeleton stays as it is. -/
theorem skeletonUnder_of_mem : ∀ fields : List (String × Json),
    ∀ e ∈ skeletonEntries fields, skeletonUnder e.1 e.2 = e.2
  | [], e, he => by
    rw [skeletonEntries] at he
    cases he
  | (key, v) :: rest, e, he => by
    rw [skeletonEntries] at he
    split at he
    · exact skeletonUnder_of_mem rest e he
    · rcases List.mem_cons.1 he with rfl | he
      · by_cases hproperties : key = "properties"
        · simp only [skeletonUnder, if_pos hproperties, skeletonProperties_skeletonProperties v]
        · by_cases hpart : key = "items" ∨ key = "additionalProperties"
          · simp only [skeletonUnder, if_neg hproperties, if_pos hpart, skeleton_skeleton v]
          · simp only [skeletonUnder, if_neg hproperties, if_neg hpart]
      · exact skeletonUnder_of_mem rest e he
theorem skeletonProperties_skeletonProperties : ∀ v : Json,
    skeletonProperties (skeletonProperties v) = skeletonProperties v
  | .obj fields => by
    rw [skeletonProperties, skeletonProperties, skeletonMembers_skeletonMembers fields]
  | .null | .bool _ | .int _ | .double _ | .str _ | .arr _ => by
    simp only [skeletonProperties]
theorem skeletonMembers_skeletonMembers : ∀ fields : List (String × Json),
    skeletonMembers (skeletonMembers fields) = skeletonMembers fields
  | [] => by simp only [skeletonMembers]
  | (name, v) :: rest => by
    rw [skeletonMembers, skeletonMembers, skeleton_skeleton v,
      skeletonMembers_skeletonMembers rest]
end

/-! ## Places -/

theorem skeleton_of_ne_obj {v : Json} (h : ∀ fields, v ≠ .obj fields) : skeleton v = v := by
  cases v with
  | obj fields => exact absurd rfl (h fields)
  | _ => rw [skeleton]; exact h

/-- **A step in a skeleton leads to the skeleton of what it leads to in the schema.** -/
theorem follow?_skeleton_step (v : Json) (step : Schema.Step) :
    (skeleton v).follow? step.inDocument = (v.follow? step.inDocument).map skeleton := by
  cases v with
  | obj fields =>
    rw [skeleton_obj]
    cases step with
    | property name =>
      simp only [Schema.Step.inDocument, Json.follow?, Json.part?, get?_properties_node]
      cases Fields.get? "properties" fields with
      | none => rfl
      | some listed =>
        cases listed with
        | obj members =>
          simp only [Option.map_some, Option.bind_some, skeletonProperties,
            skeletonMembers_eq_map, Fields.get?_map]
          cases Fields.get? name members <;> rfl
        | _ => rfl
    | items =>
      simp only [Schema.Step.inDocument, Json.follow?, Json.part?, get?_items_node]
      cases Fields.get? "items" fields <;> rfl
    | values =>
      simp only [Schema.Step.inDocument, Json.follow?, Json.part?, get?_additional_node]
      cases Fields.get? "additionalProperties" fields <;> rfl
  | _ =>
    -- what is no object has no parts that are schemas
    simp only [skeleton]
    cases step <;> rfl

/-- **The nodes of a skeleton are the skeletons of the nodes.** -/
theorem follow?_skeleton (way : List Schema.Step) : ∀ v : Json,
    (skeleton v).follow? (documentWay way) = (v.follow? (documentWay way)).map skeleton := by
  induction way with
  | nil => intro v; rfl
  | cons step rest ih =>
    intro v
    rw [documentWay, List.flatMap_cons, Json.follow?_append, Json.follow?_append,
      follow?_skeleton_step]
    cases v.follow? step.inDocument with
    | none => rfl
    | some u => exact ih u

/-! ## Nodes -/

/-- **What becomes of the type of a node.** Where the node is marked, null comes last, unless a list
has it already. -/
inductive Retyped (fields : Fields Json) : Json → Json → Prop
  | unmarked (types : Json) : Fields.get? "nullable" fields ≠ some (.bool true) →
      Retyped fields types types
  | name (name : String) : Fields.get? "nullable" fields = some (.bool true) →
      Retyped fields (.str name) (.arr [.str name, .str "null"])
  | list {names : List Json} : Fields.get? "nullable" fields = some (.bool true) →
      .str "null" ∉ names → Retyped fields (.arr names) (.arr (names ++ [.str "null"]))
  | listed {names : List Json} : Fields.get? "nullable" fields = some (.bool true) →
      .str "null" ∈ names → Retyped fields (.arr names) (.arr names)
  | other {types : Json} : (∀ name, types ≠ .str name) → (∀ names, types ≠ .arr names) →
      Retyped fields types types

/-- **What the skeleton of a node has of the node**: its keys without `nullable` and `format`, its
type with null perhaps, the names of its properties, and everything else that is no schema. -/
structure Retains (fields kept : Fields Json) : Prop where
  names : Fields.names kept =
    (Fields.names fields).filter fun key => key ≠ "nullable" ∧ key ≠ "format"
  type : Option.Rel (Retyped fields) (Fields.get? "type" fields) (Fields.get? "type" kept)
  properties : ∀ listed, Fields.get? "properties" fields = some (.obj listed) →
    ∃ members, Fields.get? "properties" kept = some (.obj members) ∧
      Fields.names members = Fields.names listed
  others : ∀ key v, Fields.get? key fields = some v →
    key ∉ ["nullable", "format", "type", "items", "additionalProperties"] →
    (key = "properties" → ∀ listed, v ≠ .obj listed) → Fields.get? key kept = some v

theorem retyped_widenTypes {fields : Fields Json} (types : Json) :
    Retyped fields types (if isNullable fields then widenTypes types else types) := by
  by_cases hmark : isNullable fields = true
  · rw [if_pos hmark]
    have hnullable := isNullable_iff.1 hmark
    cases types with
    | str name => exact .name name hnullable
    | arr names =>
      rw [widenTypes]
      by_cases hnull : names.any isNullName = true
      · rw [if_pos hnull]
        simp only [List.any_eq_true, isNullName_iff, exists_eq_right] at hnull
        exact .listed hnullable hnull
      · rw [if_neg hnull]
        simp only [List.any_eq_true, isNullName_iff, exists_eq_right] at hnull
        exact .list hnullable hnull
    | _ => exact .other (by simp) (by simp)
  · rw [if_neg hmark]
    exact .unmarked types fun h => hmark (isNullable_iff.2 h)

/-- **The skeleton of a node has everything of the node but its marks.** -/
theorem retains_node {fields : Fields Json} (h : Fields.Ordered fields) :
    Retains fields (node fields) := by
  constructor
  · exact names_node h
  · rw [get?_type_node]
    cases Fields.get? "type" fields with
    | none => exact .none
    | some types => exact .some (retyped_widenTypes types)
  · intro listed hlisted
    refine ⟨skeletonMembers listed, ?_, ?_⟩
    · rw [get?_properties_node, hlisted]
      rfl
    · rw [skeletonMembers_eq_map, Fields.names, List.map_map]
      rfl
  · intro key v hv hkey hlisted
    simp only [List.mem_cons, List.not_mem_nil, or_false, not_or] at hkey
    obtain ⟨hnullable, hformat, htype, hitems, hadditional⟩ := hkey
    rw [get?_node htype, if_neg (not_or.2 ⟨hnullable, hformat⟩), hv, Option.map_some]
    by_cases hproperties : key = "properties"
    · subst hproperties
      cases v with
      | obj listed => exact absurd rfl (hlisted rfl listed)
      | _ => rfl
    · rw [skeletonUnder, if_neg hproperties, if_neg (not_or.2 ⟨hitems, hadditional⟩)]

end Structure

open Structure in
/-- **A skeleton differs from its schema in types and marks alone.** It is its own skeleton. It has
schemas at the same places as the schema, each the skeleton of the one there. Of these a value that
is no object stays as it is, and an object keeps its keys without `nullable` and `format`, the names
of its properties and everything under keys of no schemas, but for the type, which gets null at the
end where the node is marked. -/
theorem skeleton_changes_types_and_marks {v : Json} (hv : v.Canonical) :
    skeleton (skeleton v) = skeleton v ∧
    ∀ way, (skeleton v).follow? (documentWay way) = (v.follow? (documentWay way)).map skeleton ∧
      ∀ u, v.follow? (documentWay way) = some u →
        ((∀ fields, u ≠ .obj fields) → skeleton u = u) ∧
        ∀ fields, u = .obj fields → ∃ kept, skeleton u = .obj kept ∧ Retains fields kept := by
  refine ⟨skeleton_skeleton v, fun way => ⟨follow?_skeleton way v, fun u hu => ?_⟩⟩
  refine ⟨skeleton_of_ne_obj, ?_⟩
  rintro fields rfl
  have hfields : Fields.Ordered fields := (hv.of_follow? hu).1
  exact ⟨node fields, skeleton_obj fields, retains_node hfields⟩

/-- The entries of a marked node with keywords for names of properties, a list where a schema of
items may stand, and a mark inside of a keyword that holds no parts. -/
def stockEntries : Fields Json :=
  [("allOf", .arr [.obj [("nullable", .bool true)]]), ("format", .str "stock"),
    ("items", .arr [.obj [("format", .str "int32")]]), ("nullable", .bool true),
    ("properties", .obj [("format", .obj [("nullable", .str "true"), ("type", .str "string")]),
      ("nullable", .obj [("nullable", .bool true), ("type", .arr [.str "null", .int 1])]),
      ("type", .bool false)]),
    ("type", .str "object")]

open Structure in
/-- Names of properties are kept, whatever they are, and so is a list in place of a schema. -/
theorem stock_keeps_its_names :
    (Json.obj stockEntries).Canonical ∧
    skeleton (skeleton (.obj stockEntries)) = skeleton (.obj stockEntries) ∧
    (∃ kept, skeleton (.obj stockEntries) = .obj kept ∧ Retains stockEntries kept ∧
      Fields.names kept = ["allOf", "items", "properties", "type"] ∧
      Fields.get? "type" kept = some (.arr [.str "object", .str "null"])) ∧
    (Json.obj stockEntries).follow? (documentWay [.items]) =
      some (.arr [.obj [("format", .str "int32")]]) ∧
    (skeleton (.obj stockEntries)).follow? (documentWay [.items]) =
      some (.arr [.obj [("format", .str "int32")]]) ∧
    (skeleton (.obj stockEntries)).follow? (documentWay [.property "nullable"]) =
      some (.obj [("type", .arr [.str "null", .int 1])]) := by
  have hv : (Json.obj stockEntries).Canonical := by decide +kernel
  obtain ⟨hself, hplaces⟩ := skeleton_changes_types_and_marks hv
  obtain ⟨-, hroot⟩ := hplaces []
  obtain ⟨kept, hkept, hretains⟩ := (hroot _ rfl).2 _ rfl
  obtain ⟨hitems, hlist⟩ := hplaces [.items]
  have hsame := (hlist _ rfl).1 (by simp)
  refine ⟨hv, hself, ⟨kept, hkept, hretains, hretains.names.trans (by decide), ?_⟩, rfl, ?_, ?_⟩
  · obtain rfl : _ = kept := Json.obj.inj hkept
    rfl
  · rw [hitems]
    exact congrArg some hsame
  · rw [(hplaces [.property "nullable"]).1]
    rfl

end SchemaRules
