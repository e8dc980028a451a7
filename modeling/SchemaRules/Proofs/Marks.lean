import SchemaRules.Proofs.Paths
import SchemaRules.Proofs.Validity

/-!
# Marks of null

A node of a schema can be marked as nullable, and its skeleton has a wider type then. A schema is
compared with the same schema without the marks.

* `Structure.unmarked`: **the schema without the marks**.
* `Structure.Under`, `Structure.under_node`: **the two skeletons, keyword by keyword**: types may be
  widened, and parts are skeletons again.
* `Structure.part_induct`: induction on the nodes of a schema.
-/

namespace SchemaRules

namespace Structure

/-! ## Marks -/

mutual
/-- **The schema without `nullable`** at all nodes that a skeleton goes through. -/
def unmarked : Json → Json
  | .obj fields => .obj (unmarkedEntries fields)
  | v => v
/-- The entries of a node without it. -/
def unmarkedEntries : List (String × Json) → List (String × Json)
  | [] => []
  | (key, v) :: rest =>
    if key = "nullable" then unmarkedEntries rest
    else
      let v' :=
        if key = "properties" then unmarkedProperties v
        else if key = "items" ∨ key = "additionalProperties" then unmarked v
        else v
      (key, v') :: unmarkedEntries rest
/-- Properties without it. -/
def unmarkedProperties : Json → Json
  | .obj fields => .obj (unmarkedMembers fields)
  | v => v
/-- Members without it. -/
def unmarkedMembers : List (String × Json) → List (String × Json)
  | [] => []
  | (name, v) :: rest => (name, unmarked v) :: unmarkedMembers rest
end

/-- What is under a keyword, without the marks of the parts in it. -/
def unmarkedUnder (key : String) (v : Json) : Json :=
  if key = "properties" then unmarkedProperties v
  else if key = "items" ∨ key = "additionalProperties" then unmarked v
  else v

theorem get?_unmarkedEntries (key : String) (fields : Fields Json) :
    Fields.get? key (unmarkedEntries fields) =
      if key = "nullable" then none else (Fields.get? key fields).map (unmarkedUnder key) := by
  induction fields with
  | nil => simp [unmarkedEntries]
  | cons e rest ih =>
    obtain ⟨k, v⟩ := e
    rw [unmarkedEntries]
    by_cases hk : k = key
    · subst hk
      by_cases hdrop : k = "nullable"
      · rw [if_pos hdrop, if_pos hdrop, ih, if_pos hdrop]
      · rw [if_neg hdrop, if_neg hdrop, Fields.get?_cons_self, Fields.get?_cons_self]
        rfl
    · rw [Fields.get?_cons_of_ne hk]
      split
      · exact ih
      · rw [Fields.get?_cons_of_ne hk, ih]

theorem unmarkedMembers_eq_map (members : Fields Json) :
    unmarkedMembers members = members.map fun e => (e.1, unmarked e.2) := by
  induction members with
  | nil => rfl
  | cons e rest ih => rw [unmarkedMembers, ih, List.map_cons]

theorem names_unmarkedEntries (fields : Fields Json) :
    (Fields.names (unmarkedEntries fields)).Sublist (Fields.names fields) := by
  induction fields with
  | nil => exact List.Sublist.refl _
  | cons e rest ih =>
    obtain ⟨k, v⟩ := e
    rw [unmarkedEntries]
    split
    · exact ih.cons k
    · exact ih.cons_cons k

/-- The entries of the skeleton of a node without marks. -/
def plainNode (fields : Fields Json) : Fields Json :=
  node (unmarkedEntries fields)

theorem skeleton_unmarked_obj (fields : Fields Json) :
    skeleton (unmarked (.obj fields)) = .obj (plainNode fields) := by
  rw [unmarked, skeleton_obj, plainNode]

theorem ordered_plainNode {fields : Fields Json} (h : Fields.Ordered fields) :
    Fields.Ordered (plainNode fields) := by
  refine ordered_node ?_
  rw [Fields.ordered_iff_names] at h ⊢
  exact h.sublist (names_unmarkedEntries fields)

/-! ## Keywords of two skeletons -/

/-- **What stands under a keyword** of the skeleton without marks, and of the one with them: a type
may be widened, and parts are skeletons again. -/
inductive Under (fields : Fields Json) : String → Json → Json → Prop
  | type (types : Json) : Fields.get? "type" fields = some types →
      Under fields "type" types (if isNullable fields then widenTypes types else types)
  | listed (listed : Fields Json) : Fields.get? "properties" fields = some (.obj listed) →
      Under fields "properties" (.obj (listed.map fun e => (e.1, skeleton (unmarked e.2))))
        (.obj (listed.map fun e => (e.1, skeleton e.2)))
  | items (part : Json) : Fields.get? "items" fields = some part →
      Under fields "items" (skeleton (unmarked part)) (skeleton part)
  | additional (part : Json) : Fields.get? "additionalProperties" fields = some part →
      Under fields "additionalProperties" (skeleton (unmarked part)) (skeleton part)
  | same {key : String} (v : Json) : key ≠ "type" → key ≠ "items" →
      key ≠ "additionalProperties" → (key = "properties" → ∀ listed, v ≠ .obj listed) →
      Under fields key v v

/-- What becomes of a keyword other than the type. -/
theorem under_of_get? {fields : Fields Json} {key : String} (htype : key ≠ "type") {v : Json}
    (hv : Fields.get? key fields = some v) :
    Under fields key (skeletonUnder key (unmarkedUnder key v)) (skeletonUnder key v) := by
  by_cases hproperties : key = "properties"
  · subst hproperties
    cases v with
    | obj listed =>
      have hplain : skeletonMembers (unmarkedMembers listed) =
          listed.map fun e => (e.1, skeleton (unmarked e.2)) := by
        rw [skeletonMembers_eq_map, unmarkedMembers_eq_map, List.map_map]
        rfl
      have hunder := Under.listed listed hv
      rw [← hplain, ← skeletonMembers_eq_map] at hunder
      exact hunder
    | _ => exact .same _ (by decide) (by decide) (by decide) fun _ _ => nofun
  by_cases hitems : key = "items"
  · subst hitems
    exact .items v hv
  by_cases hadditional : key = "additionalProperties"
  · subst hadditional
    exact .additional v hv
  -- no other keyword holds parts
  have hno : ¬ (key = "items" ∨ key = "additionalProperties") :=
    fun h => h.elim hitems hadditional
  have hsame : unmarkedUnder key v = v ∧ skeletonUnder key v = v := by
    simp only [skeletonUnder, unmarkedUnder, if_neg hproperties, if_neg hno, and_self]
  rw [hsame.1, hsame.2]
  exact .same v htype hitems hadditional fun h => absurd h hproperties

/-- **The two skeletons have the same keywords**, and under each what is said. -/
theorem under_node (fields : Fields Json) (key : String) :
    Option.Rel (Under fields key) (Fields.get? key (plainNode fields))
      (Fields.get? key (node fields)) := by
  by_cases htype : key = "type"
  · subst htype
    have hplain : isNullable (unmarkedEntries fields) = false := by
      rw [isNullable, get?_unmarkedEntries, if_pos rfl]
    rw [plainNode, get?_type_node, get?_type_node, get?_unmarkedEntries, if_neg (by decide), hplain]
    cases hv : Fields.get? "type" fields with
    | none => exact .none
    | some types => exact .some (.type types hv)
  · rw [plainNode, get?_node htype, get?_node htype, get?_unmarkedEntries]
    by_cases hdrop : key = "nullable" ∨ key = "format"
    · rw [if_pos hdrop, if_pos hdrop]
      exact .none
    · rw [if_neg hdrop, if_neg hdrop, if_neg fun h => hdrop (.inl h)]
      cases hv : Fields.get? key fields with
      | none => exact .none
      | some v => exact .some (under_of_get? htype hv)

/-- What is in the skeleton with marks is in the other one, too. -/
theorem exists_under {fields : Fields Json} {key : String} {b : Json}
    (h : Fields.get? key (node fields) = some b) :
    ∃ a, Fields.get? key (plainNode fields) = some a ∧ Under fields key a b := by
  have hunder := under_node fields key
  rw [h] at hunder
  generalize Fields.get? key (plainNode fields) = x at hunder
  cases hunder with
  | some hab => exact ⟨_, rfl, hab⟩

/-- What is in the skeleton without marks is in the other one, too. -/
theorem exists_under_of_plain {fields : Fields Json} {key : String} {a : Json}
    (h : Fields.get? key (plainNode fields) = some a) :
    ∃ b, Fields.get? key (node fields) = some b ∧ Under fields key a b := by
  have hunder := under_node fields key
  rw [h] at hunder
  generalize Fields.get? key (node fields) = x at hunder
  cases hunder with
  | some hab => exact ⟨_, rfl, hab⟩

theorem Under.exists_listed {fields : Fields Json} {key : String} {a b : Json}
    (h : Under fields key a b) (hkey : key = "properties") {members : Fields Json}
    (hb : b = .obj members) :
    ∃ listed, Fields.get? "properties" fields = some (.obj listed) ∧
      a = .obj (listed.map fun e => (e.1, skeleton (unmarked e.2))) ∧
      members = listed.map fun e => (e.1, skeleton e.2) := by
  cases h with
  | listed listed hlisted =>
    cases hb
    exact ⟨listed, hlisted, rfl, rfl⟩
  | same _ _ _ _ hno => exact absurd hb (hno hkey members)
  | _ => exact absurd hkey (by decide)

/-! ## Nodes of a schema -/

/-- **What holds of a schema if it holds of the parts of its node** holds of every schema. -/
theorem part_induct {P : Json → Prop}
    (schema : ∀ v, (∀ fields part, v = .obj fields → Part fields part → P part) → P v) (v : Json) :
    P v := by
  -- a listed property is two steps away, so what is a step away is taken along
  suffices h : P v ∧ ∀ step u, v.part? step = some u → P u from h.1
  induction v using Json.induct with
  | data v ih =>
    have hparts : ∀ step u, v.part? step = some u → P u := fun step u hu => (ih step u hu).1
    refine ⟨schema v fun fields part hv hpart => ?_, hparts⟩
    subst hv
    cases hpart with
    | items hget => exact hparts (.key "items") part hget
    | additional hget => exact hparts (.key "additionalProperties") part hget
    | @property key _ hlisted =>
      obtain ⟨listed, hproperties, hget⟩ := listedPart?_eq_some_iff.1 hlisted
      exact (ih (.key "properties") (.obj listed) hproperties).2 (.key key) part hget

end Structure

end SchemaRules
