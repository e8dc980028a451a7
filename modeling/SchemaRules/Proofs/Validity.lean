import SchemaRules.Proofs.Checks
import SchemaRules.Structure.Validator

/-!
# Validators accept what documents say

The check of a schema document is that of its skeleton. It finds no violation in exactly the values
that the document accepts as it stands.

* `keeps_type_iff`, `keeps_required_iff`, `keeps_items_iff`, `keeps_members_iff`: what each keyword
  of a skeleton demands, in the terms of the document.
* `means_skeleton`: **the check of a skeleton means what the document says**, by induction on the
  nodes of the document.
* `validate_eq_nil_iff_accepts`: the same of a validator.
-/

namespace SchemaRules

open Structure

variable {follow : Follow} {fields : Fields Json} {v : Json}

/-! ## Keywords of a skeleton -/

/-- **The type of a skeleton** demands that the type of a value is listed, or the value is null
and the node nullable. -/
theorem keeps_type_iff (hwell : offence? (.obj (node fields)) = none) (hv : v.Canonical)
    (place spot : String) :
    Keeps follow (node fields) "type" place spot v ↔
      ∀ types, Fields.get? "type" fields = some types →
        (∃ name ∈ typeNames types, OfType name v) ∨
          v = .null ∧ Fields.get? "nullable" fields = some (.bool true) := by
  refine keeps_iff (P := fun types v => (∃ name ∈ typeNames types, OfType name v) ∨
    v = .null ∧ Fields.get? "nullable" fields = some (.bool true))
    (get?_type_node fields) (fun types htypes place spot v hv => ?_) hv place spot
  refine (Demand.means_kinds _ _ place spot v hv).trans ?_
  beta_reduce
  rw [any_accepts_kinds_iff, ← isNullable_iff]
  by_cases hnull : isNullable fields = true
  · have hwide : Fields.get? "type" (node fields) = some (widenTypes types) := by
      rw [get?_type_node, htypes, hnull]; rfl
    have hlisted := type_of_widenTypes (type_of_offence? hwell hwide)
    rw [if_pos hnull, exists_ofType_widenTypes hlisted, and_iff_left hnull]
  · rw [if_neg hnull]
    simp [hnull]

theorem keeps_required_iff (hv : v.Canonical) (place spot : String) :
    Keeps follow (node fields) "required" place spot v ↔
      ∀ names, Fields.get? "required" fields = some names → ∀ members, v = .obj members →
        ∀ name ∈ names.textsIn, Fields.has name members = true := by
  have hget : Fields.get? "required" (node fields) = (Fields.get? "required" fields).map id := by
    rw [get?_required_node, Option.map_id_fun, id]
  exact keeps_iff hget (fun names _ => Demand.means_required names.textsIn _) hv place spot

/-- Without schemas for the first items, those of items are for all. -/
theorem length_prefixItems {entries : Fields Json}
    (h : Fields.get? "prefixItems" entries = none) :
    (operandsOf entries).length "prefixItems" = 0 := by
  rw [Operands.length, lookup_operandsOf, h]
  rfl

/-- Without patterns no demand has some. -/
theorem patterns_eq_nil {entries : Fields Json}
    (h : Fields.get? "patternProperties" entries = none) :
    (operandsOf entries).patterns = [] := by
  rw [Operands.patterns, Operands.named?, lookup_operandsOf, h]
  rfl

/-- The check of a listed property is that of the skeleton of its schema. -/
theorem listedCheck?_named?_properties (fields : Fields Json) (key : String) :
    listedCheck? ((operandsOf (node fields)).named? "properties") key =
      (listedPart? fields key).map fun part => Check.ofJson (skeleton part) := by
  rw [Operands.named?, lookup_operandsOf, get?_properties_node, listedPart?]
  cases hlisted : Fields.get? "properties" fields with
  | none => rfl
  | some properties =>
    cases properties with
    | obj listed =>
      have hoperand : operandOf "properties" (skeletonProperties (.obj listed)) =
          .named (namedChecksOf (skeletonMembers listed)) := rfl
      simp only [Option.map_some, hoperand, listedCheck?, Option.bind_some]
      rw [namedChecksOf_eq_map, Fields.get?_map, skeletonMembers_eq_map, Fields.get?_map,
        Option.map_map]
      rfl
    | _ => rfl

/-- **The demand on other members takes in that on listed ones** exactly if additional properties
are not simply allowed. -/
theorem closesMembers_iff (fields : Fields Json) :
    (operandsOf (node fields)).closesMembers = true ↔
      ∃ part, Fields.get? "additionalProperties" fields = some part ∧ part ≠ .bool true := by
  rw [Operands.closesMembers, lookup_operandsOf, get?_additional_node]
  cases Fields.get? "additionalProperties" fields with
  | none => simp
  | some part =>
    have hoperand : ∀ x, operandOf "additionalProperties" x = .check x (Check.ofJson x) :=
      fun _ => rfl
    simp only [Option.map_some, hoperand, Option.some.injEq, ne_eq, exists_eq_left']
    cases part <;> simp [skeleton]

/-- Additional properties demand nothing where they are simply allowed. -/
theorem keeps_additional_of_open (hopen : (operandsOf (node fields)).closesMembers = false)
    (place spot : String) (v : Json) :
    Keeps follow (node fields) "additionalProperties" place spot v := by
  intro part d _ hd
  have hoperand : operandOf "additionalProperties" part = .check part (Check.ofJson part) := rfl
  rw [hoperand, Operands.demand?, Operands.ofCheck?, hopen] at hd
  cases hd

/-- Properties demand nothing where the demand on the others takes them in. -/
theorem keeps_properties_of_closed (hclosed : (operandsOf (node fields)).closesMembers = true)
    (place spot : String) (v : Json) : Keeps follow (node fields) "properties" place spot v := by
  intro part d _ hd
  cases part with
  | obj listed =>
    have hoperand : operandOf "properties" (.obj listed) = .named (namedChecksOf listed) := rfl
    rw [hoperand, Operands.demand?, Operands.ofNamed?, hclosed] at hd
    cases hd
  | _ => cases hd

section Parts

variable (hparts : ∀ part, Part fields part →
  (Check.ofJson (skeleton part)).Means follow (Accepts part))
include hparts

theorem keeps_items_iff (hfirst : Fields.get? "prefixItems" (node fields) = none)
    (hv : v.Canonical) (place spot : String) :
    Keeps follow (node fields) "items" place spot v ↔
      ∀ part, Fields.get? "items" fields = some part → ∀ items item, v = .arr items →
        item ∈ items → Accepts part item := by
  refine keeps_iff (P := fun part v => ∀ items item, v = .arr items → item ∈ items →
    Accepts part item) (get?_items_node fields) (fun part hpart => ?_) hv place spot
  have hdemand : (operandsOf (node fields)).demand? "items" (operandOf "items" (skeleton part)) =
      some (.items 0 (Check.ofJson (skeleton part))) := by
    rw [← length_prefixItems hfirst]; rfl
  rw [Operands.Means, hdemand]
  exact Demand.means_items (hparts part (.items hpart)) _

theorem means_listed {key : String} {c : Check}
    (hc : listedCheck? ((operandsOf (node fields)).named? "properties") key = some c) :
    c.Means follow fun member => ∀ part, listedPart? fields key = some part →
      Accepts part member := by
  rw [listedCheck?_named?_properties, Option.map_eq_some_iff] at hc
  obtain ⟨part, hpart, rfl⟩ := hc
  intro place spot member hm
  rw [hparts part (.property hpart) place spot member hm]
  simp [hpart]

/-- **Listed members** have a demand of their own if that on the others does not take it in. -/
theorem keeps_properties_iff (hopen : (operandsOf (node fields)).closesMembers = false)
    (hordered : ∀ listed, Fields.get? "properties" fields = some (.obj listed) →
      Fields.Ordered listed) (hv : v.Canonical) (place spot : String) :
    Keeps follow (node fields) "properties" place spot v ↔
      ∀ properties, Fields.get? "properties" fields = some properties →
        ∀ key part member, listedPart? fields key = some part → v.get? key = some member →
          Accepts part member := by
  refine keeps_iff (P := fun _ v => ∀ key part member, listedPart? fields key = some part →
    v.get? key = some member → Accepts part member) (get?_properties_node fields)
    (fun properties hproperties => ?_) hv place spot
  cases properties with
  | obj listed =>
    have hnamed : (operandsOf (node fields)).named? "properties" =
        some (namedChecksOf (skeletonMembers listed)) := by
      rw [Operands.named?, lookup_operandsOf, get?_properties_node, hproperties]
      rfl
    have hdemand : (operandsOf (node fields)).demand? "properties"
        (operandOf "properties" (skeletonProperties (.obj listed))) =
          some (.members (namedChecksOf (skeletonMembers listed))) := by
      have hoperand : operandOf "properties" (skeletonProperties (.obj listed)) =
          .named (namedChecksOf (skeletonMembers listed)) := rfl
      rw [hoperand, Operands.demand?, Operands.ofNamed?, hopen]
      rfl
    have hknown : Fields.Ordered (namedChecksOf (skeletonMembers listed)) := by
      rw [namedChecksOf_eq_map, skeletonMembers_eq_map, List.map_map,
        Fields.ordered_iff_names, Fields.names, List.map_map]
      exact Fields.ordered_iff_names.1 (hordered listed hproperties)
    have hhas : ∀ key, Fields.has key (namedChecksOf (skeletonMembers listed)) = true ↔
        ∃ part, listedPart? fields key = some part := by
      intro key
      have hcheck := listedCheck?_named?_properties fields key
      rw [hnamed] at hcheck
      rw [Fields.has, show Fields.get? key _ = _ from hcheck, Option.isSome_map,
        Option.isSome_iff_exists]
    rw [Operands.Means, hdemand]
    intro place spot v hv
    have hmembers := Demand.means_members hknown
      (fun key c hc => means_listed hparts (by rw [hnamed]; exact hc)) "properties" place spot v hv
    refine hmembers.trans ?_
    constructor
    · intro h key part member hpart hm
      exact h key member ((hhas key).2 ⟨part, hpart⟩) hm part hpart
    · intro h key member _ hm part hpart
      exact h key part member hpart hm
  | _ =>
    -- such properties list nothing
    intro v key part member hpart
    obtain ⟨listed, hlisted, -⟩ := listedPart?_eq_some_iff.1 hpart
    cases hproperties.symm.trans hlisted

/-- **Where additional properties are not simply allowed,** one demand is on all members. -/
theorem keeps_additional_iff (hclosed : (operandsOf (node fields)).closesMembers = true)
    (hpatterns : Fields.get? "patternProperties" (node fields) = none) (hv : v.Canonical)
    (place spot : String) :
    Keeps follow (node fields) "additionalProperties" place spot v ↔
      ∀ rest, Fields.get? "additionalProperties" fields = some rest →
        ∀ key member, v.get? key = some member →
          if (listedPart? fields key).isSome then
            ∀ part, listedPart? fields key = some part → Accepts part member
          else Accepts rest member := by
  refine keeps_iff (P := fun rest v => ∀ key member, v.get? key = some member →
      if (listedPart? fields key).isSome then
        ∀ part, listedPart? fields key = some part → Accepts part member
      else Accepts rest member) (get?_additional_node fields)
    (fun rest hrest => ?_) hv place spot
  have hdemand : (operandsOf (node fields)).demand? "additionalProperties"
      (operandOf "additionalProperties" (skeleton rest)) =
        some (.others ((operandsOf (node fields)).named? "properties") []
          (Check.ofJson (skeleton rest))) := by
    have hoperand : operandOf "additionalProperties" (skeleton rest) =
        .check (skeleton rest) (Check.ofJson (skeleton rest)) := rfl
    rw [hoperand, Operands.demand?, Operands.ofCheck?, hclosed, patterns_eq_nil hpatterns]
    rfl
  have hlisted : ∀ key, (listedCheck? ((operandsOf (node fields)).named? "properties") key).isSome =
      (listedPart? fields key).isSome := by
    intro key
    rw [listedCheck?_named?_properties, Option.isSome_map]
  rw [Operands.Means, hdemand]
  intro place spot v hv
  have hothers := Demand.means_others (fun key c hc => means_listed hparts hc)
    (hparts rest (.additional hrest)) "additionalProperties" place spot v hv
  simpa only [hlisted] using hothers

/-- **Listed and other members**, whichever keyword has the demand on the listed ones. -/
theorem keeps_members_iff
    (hordered : ∀ listed, Fields.get? "properties" fields = some (.obj listed) →
      Fields.Ordered listed)
    (hpatterns : Fields.get? "patternProperties" (node fields) = none) (hv : v.Canonical)
    (place spot : String) :
    (Keeps follow (node fields) "properties" place spot v ∧
        Keeps follow (node fields) "additionalProperties" place spot v) ↔
      (∀ key part member, listedPart? fields key = some part → v.get? key = some member →
        Accepts part member) ∧
      ∀ rest key member, Fields.get? "additionalProperties" fields = some rest →
        listedPart? fields key = none → v.get? key = some member → Accepts rest member := by
  -- the listed members are looked at by either keyword, and never by both
  cases hclosed : (operandsOf (node fields)).closesMembers with
  | false =>
    have hall : ∀ rest, Fields.get? "additionalProperties" fields = some rest →
        rest = .bool true := by
      intro rest hrest
      by_contra hne
      rw [(closesMembers_iff fields).2 ⟨rest, hrest, hne⟩] at hclosed
      cases hclosed
    rw [and_iff_left (keeps_additional_of_open hclosed place spot v),
      keeps_properties_iff hparts hclosed hordered hv]
    constructor
    · intro h
      refine ⟨fun key part member hpart hm => ?_, fun rest key member hrest _ _ => ?_⟩
      · obtain ⟨listed, hlisted, -⟩ := listedPart?_eq_some_iff.1 hpart
        exact h _ hlisted key part member hpart hm
      · rw [hall rest hrest]
        exact .all member
    · rintro ⟨h, -⟩ _ _
      exact h
  | true =>
    obtain ⟨rest, hrest, -⟩ := (closesMembers_iff fields).1 hclosed
    rw [and_iff_right (keeps_properties_of_closed hclosed place spot v),
      keeps_additional_iff hparts hclosed hpatterns hv]
    constructor
    · intro h
      refine ⟨fun key part member hpart hm => ?_, fun rest' key member hrest' hnone hm => ?_⟩
      · have hkey := h rest hrest key member hm
        rw [hpart] at hkey
        exact hkey part rfl
      · have hkey := h rest' hrest' key member hm
        rw [hnone] at hkey
        exact hkey
    · rintro ⟨hlisted, hothers⟩ rest' hrest' key member hm
      split
      · exact fun part hpart => hlisted key part member hpart hm
      · next hnone =>
        rw [Bool.not_eq_true, Option.isSome_eq_false_iff, Option.isNone_iff_eq_none] at hnone
        exact hothers rest' key member hrest' hnone hm

end Parts

/-! ## Skeletons -/

/-- **The keywords of the skeleton of a covered node**: five demand something. -/
theorem keeps_node_iff
    (hkeys : ∀ key ∈ Fields.names fields, key ∈ readKeywords ∨ isExtension key = true)
    (place spot : String) (v : Json) :
    (∀ key, Keeps follow (node fields) key place spot v) ↔
      Keeps follow (node fields) "type" place spot v ∧
      Keeps follow (node fields) "required" place spot v ∧
      (Keeps follow (node fields) "properties" place spot v ∧
        Keeps follow (node fields) "additionalProperties" place spot v) ∧
      Keeps follow (node fields) "items" place spot v := by
  constructor
  · intro h
    exact ⟨h _, h _, ⟨h _, h _⟩, h _⟩
  · rintro ⟨htype, hrequired, ⟨hproperties, hadditional⟩, hitems⟩ key
    by_cases hmem : key ∈ Fields.names fields
    · rcases hkeys key hmem with hread | hext
      · simp only [readKeywords, List.mem_cons, List.not_mem_nil, or_false] at hread
        rcases hread with rfl | rfl | rfl | rfl | rfl | rfl | rfl | rfl
        · exact htype
        · have hnull : Fields.get? "nullable" (node fields) = none := get?_node (by decide) fields
          exact keeps_of_get?_eq_none hnull place spot v
        · have hformat : Fields.get? "format" (node fields) = none := get?_node (by decide) fields
          exact keeps_of_get?_eq_none hformat place spot v
        · exact hproperties
        · exact hrequired
        · exact hitems
        · exact hadditional
        · exact keeps_description _ place spot v
      · exact keeps_extension hext _ place spot v
    · have hnone := Fields.get?_eq_none_iff.2 hmem
      by_cases hkey : key = "type"
      · rw [hkey]
        exact htype
      · refine keeps_of_get?_eq_none ?_ place spot v
        rw [get?_node hkey, hnone, Option.map_none, ite_self]

theorem get?_node_eq_none
    (hkeys : ∀ key ∈ Fields.names fields, key ∈ readKeywords ∨ isExtension key = true)
    {key : String} (hread : key ∉ readKeywords) (hext : isExtension key = false) :
    Fields.get? key (node fields) = none := by
  have hmem : key ∉ Fields.names fields := by
    intro hmem
    rcases hkeys key hmem with h | h
    · exact hread h
    · rw [hext] at h
      cases h
  have htype : key ≠ "type" := by
    rintro rfl
    exact hread (by decide)
  rw [get?_node htype, Fields.get?_eq_none_iff.2 hmem, Option.map_none, ite_self]

/-- **The check of the skeleton of a document means what the document says.** -/
theorem means_skeleton {doc : Json} (hcovered : Covered doc) (hdoc : doc.Canonical)
    (hwell : offence? (skeleton doc) = none) :
    (Check.ofJson (skeleton doc)).Means follow (Accepts doc) := by
  induction hcovered with
  | flag b =>
    cases b with
    | false =>
      intro place spot v hv
      refine (Check.means_never place spot v hv).trans (iff_of_false not_false ?_)
      intro h
      cases h
    | true =>
      intro place spot v hv
      exact (Check.means_always place spot v hv).trans (iff_of_true trivial (.all v))
  | @node fields hkeys _ ih =>
    have hparts : ∀ part, Part fields part →
        (Check.ofJson (skeleton part)).Means follow (Accepts part) :=
      fun part hpart => ih part hpart (hpart.canonical hdoc) (offence?_part hwell hpart)
    have hordered : ∀ listed, Fields.get? "properties" fields = some (.obj listed) →
        Fields.Ordered listed :=
      fun listed hlisted => (hdoc.of_get? hlisted).1
    have hpatterns : Fields.get? "patternProperties" (node fields) = none :=
      get?_node_eq_none hkeys (by decide) (by decide)
    have hfirst : Fields.get? "prefixItems" (node fields) = none :=
      get?_node_eq_none hkeys (by decide) (by decide)
    rw [skeleton_obj] at hwell ⊢
    intro place spot v hv
    -- one keyword after the other, the two on members together
    rw [violations_eq_nil_iff_keeps (ordered_node hdoc.1), keeps_node_iff hkeys,
      keeps_type_iff hwell hv, keeps_required_iff hv, keeps_items_iff hparts hfirst hv,
      keeps_members_iff hparts hordered hpatterns hv]
    constructor
    · rintro ⟨htype, hrequired, ⟨hlisted, hothers⟩, hitems⟩
      exact .node htype (fun names members h => hrequired names h members) hlisted hothers
        (fun part items item h => hitems part h items item)
    · intro h
      cases h with
      | node htype hrequired hlisted hothers hitems =>
        exact ⟨htype, fun names h members => hrequired names members h, ⟨hlisted, hothers⟩,
          fun part h items item => hitems part items item h⟩

/-! ## Validators -/

/-- The validator of a well-formed schema holds the check of its skeleton. -/
theorem StructureValidator.build_eq_ok {schema : Json} {validator : StructureValidator}
    (h : StructureValidator.build schema = .ok validator) :
    offence? (skeleton schema) = none ∧
      validator = ⟨skeleton schema, Check.ofJson (skeleton schema)⟩ := by
  unfold StructureValidator.build at h
  dsimp only at h
  split at h
  · cases h
  · next hwell =>
    split at h
    · cases h
    · cases h
      exact ⟨hwell, rfl⟩

/-- **A document has no violation exactly if the schema accepts it**, as the schema stands. -/
theorem validate_eq_nil_iff_accepts {schema : Json} (hschema : schema.Canonical)
    (hcovered : Covered schema) {validator : StructureValidator}
    (hbuild : StructureValidator.build schema = .ok validator) {document : Json}
    (hdocument : document.Canonical) :
    validator.validate document = [] ↔ Accepts schema document := by
  obtain ⟨hwell, rfl⟩ := StructureValidator.build_eq_ok hbuild
  exact means_skeleton hcovered hschema hwell "" "" document hdocument

/-- A nullable object with a property of the name of a keyword, numbers as additional properties,
and an extension that looks like a schema. -/
def volume : Json :=
  .obj [("additionalProperties", .obj [("type", .str "integer")]), ("nullable", .bool true),
    ("properties", .obj [("nullable", .obj [("format", .str "name"), ("type", .str "string")])]),
    ("required", .arr [.str "nullable"]), ("type", .str "object"),
    ("x-note", .obj [("type", .bool false)])]

theorem covered_of_no_parts {fields : Fields Json}
    (hkeys : ∀ key ∈ Fields.names fields, key ∈ readKeywords ∨ isExtension key = true)
    (hno : ∀ key ∈ ["items", "additionalProperties", "properties"], Fields.get? key fields = none) :
    Covered (.obj fields) := by
  refine .node hkeys fun part hpart => ?_
  cases hpart with
  | items h => rw [hno _ (by decide)] at h; cases h
  | additional h => rw [hno _ (by decide)] at h; cases h
  | property h =>
    obtain ⟨listed, hlisted, -⟩ := listedPart?_eq_some_iff.1 h
    rw [hno _ (by decide)] at hlisted
    cases hlisted

theorem covered_volume : Covered volume := by
  refine .node (by decide) fun part hpart => ?_
  cases hpart with
  | items h => cases h
  | additional h =>
    cases h
    exact covered_of_no_parts (by decide) (by simp [Fields.get?])
  | property h =>
    obtain ⟨listed, hlisted, hget⟩ := listedPart?_eq_some_iff.1 h
    cases hlisted
    simp only [Fields.get?, Option.ite_none_right_eq_some, Option.some.injEq] at hget
    rw [← hget.2]
    exact covered_of_no_parts (by decide) (by simp [Fields.get?])

/-- A whole double counts as an integer, and a listed property may not be null. -/
theorem volume_accepts :
    Accepts volume .null ∧
      Accepts volume (.obj [("nullable", .str "no"), ("size", .double 3)]) ∧
      ¬ Accepts volume (.obj [("nullable", .null)]) := by
  have hcanonical : volume.Canonical := by decide
  have hbuild : StructureValidator.build volume =
      .ok ⟨skeleton volume, Check.ofJson (skeleton volume)⟩ := rfl
  have hmeans := @validate_eq_nil_iff_accepts volume hcanonical covered_volume _ hbuild
  have hnull : Json.null.Canonical := trivial
  refine ⟨(hmeans hnull).1 rfl, (hmeans ?_).1 ?_, fun h => ?_⟩
  · decide
  · decide +kernel
  · have hnone := (hmeans ?_).2 h
    · exact absurd hnone (by decide +kernel)
    · decide

end SchemaRules
