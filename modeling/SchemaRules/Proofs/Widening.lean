import SchemaRules.Proofs.Marks
import SchemaRules.Proofs.References

/-!
# Types widened by null

The skeleton of a schema with marks of null is put beside that of the schema without them. It is
well-formed and refers to places that are there if the other one does, but for one kind of node.

* `Structure.NullDoubled`: **null is marked where it is the type already**.
* `Structure.offence?_skeleton`: **a widened type offends only there**, by induction on the nodes.
* `Structure.targets_skeleton`, `Structure.covers_skeleton`: **widened types refer to nothing new**,
  and all places are still there.
* `widening_fails_iff_null_is_doubled`: all of a validator.
-/

namespace SchemaRules

namespace Structure

/-- **Null is marked where it is the type already**, at some node of a schema. -/
inductive NullDoubled : Json → Prop
  | here {fields : Fields Json} : Fields.get? "nullable" fields = some (.bool true) →
      Fields.get? "type" fields = some (.str "null") → NullDoubled (.obj fields)
  | part {fields : Fields Json} {part : Json} : Part fields part → NullDoubled part →
      NullDoubled (.obj fields)

/-! ## Offences -/

/-- What is said of null that is doubled. -/
def doubledOffence : String :=
  noneOffence (.arr [.str "null", .str "null"])

theorem equal_null (v : Json) : v.equal (.str "null") = isNullName v := by
  cases v with
  | str s =>
    rw [Json.equal, isNullName.eq_def]
    by_cases hs : s = "null"
    · subst hs; rfl
    · rw [beq_false_of_ne hs]
      split
      · next h => cases h; exact absurd rfl hs
      · rfl
  | _ => rfl

/-- Names stay distinct with one that is not there. -/
theorem areDistinct_append_null {names : List Json} (h : Json.areDistinct names = true)
    (hnull : names.any isNullName = false) :
    Json.areDistinct (names ++ [.str "null"]) = true := by
  induction names with
  | nil => rfl
  | cons v rest ih =>
    rw [List.any_cons, Bool.or_eq_false_iff] at hnull
    rw [Json.areDistinct, Bool.and_eq_true, Bool.not_eq_true'] at h
    rw [List.cons_append, Json.areDistinct, List.any_append, List.any_cons, List.any_nil,
      equal_null, hnull.1, h.1, ih h.2 hnull.2]
    rfl

/-- Distinct names of types can be listed with null if it is not among them. -/
theorem valueOffence?_append_null {names : List Json} (hnames : names.all isKindName = true)
    (hdistinct : Json.areDistinct names = true) (hnull : names.any isNullName = false) :
    valueOffence? .types (.arr (names ++ [.str "null"])) = none := by
  have hkinds : (names ++ [Json.str "null"]).all isKindName = true := by
    rw [List.all_append, hnames]
    rfl
  have hne : (names ++ [Json.str "null"]).isEmpty = false := by
    cases names <;> rfl
  simp only [valueOffence?, hne, hkinds, areDistinct_append_null hdistinct hnull, Bool.not_false,
    Bool.and_self, if_true]

/-- **A type that is widened offends only if it was null.** -/
theorem types_of_widened_offence {types : Json} (h : valueOffence? .types types = none)
    {message : String} (hwide : valueOffence? .types (widenTypes types) = some message) :
    types = .str "null" ∧ message = doubledOffence := by
  cases types with
  | str name =>
    have hname : isKindName (.str name) = true := by
      by_contra hno
      simp [valueOffence?, hno] at h
    by_cases hnull : isNullName (.str name) = true
    · cases isNullName_iff.1 hnull
      exact ⟨rfl, (Option.some.inj hwide).symm⟩
    · have hnone : valueOffence? .types (.arr ([.str name] ++ [.str "null"])) = none := by
        refine valueOffence?_append_null ?_ rfl ?_
        · rw [List.all_cons, hname]; rfl
        · rw [List.any_cons, Bool.eq_false_iff.2 hnull]; rfl
      cases hnone.symm.trans hwide
  | arr names =>
    rw [widenTypes] at hwide
    split at hwide
    · cases h.symm.trans hwide
    · next hnull =>
      have hlisted : names.all isKindName = true ∧ Json.areDistinct names = true := by
        simp only [valueOffence?] at h
        split at h
        · next hall =>
          rw [Bool.and_eq_true, Bool.and_eq_true] at hall
          exact ⟨hall.1.2, hall.2⟩
        · cases h
      have hnone := valueOffence?_append_null hlisted.1 hlisted.2 (Bool.eq_false_iff.2 hnull)
      cases hnone.symm.trans hwide
  | _ => cases h

theorem exists_of_fieldsOffence? {fields : Fields Json} {message : String}
    (h : fieldsOffence? fields = some message) :
    ∃ e ∈ fields, offence? e.2 = some message := by
  induction fields with
  | nil => cases h
  | cons e rest ih =>
    obtain ⟨key, v⟩ := e
    rw [fieldsOffence?, Option.or_eq_some_iff] at h
    rcases h with h | ⟨-, h⟩
    · exact ⟨(key, v), List.mem_cons_self, h⟩
    · obtain ⟨e, he, ho⟩ := ih h
      exact ⟨e, List.mem_cons_of_mem _ he, ho⟩

/-- The offence of a node is one of its keywords. -/
theorem exists_of_offence? {fields : Fields Json} {message : String}
    (h : offence? (.obj fields) = some message) :
    ∃ key v n form, (key, v) ∈ fields ∧ formOf? key = some (n, form) ∧
      offenceUnder form v = some message := by
  rw [offence?, firstOf?] at h
  obtain ⟨o, ho, rfl⟩ := Option.map_eq_some_iff.1 h
  obtain ⟨n, -, hfind⟩ := List.exists_of_findSome?_eq_some ho
  obtain ⟨key, v, form, hmem, hform, hunder⟩ :=
    mem_offencesIn_iff.1 (List.mem_of_find?_eq_some hfind)
  exact ⟨key, v, o.1, form, hmem, hform, hunder⟩

/-- **A keyword offends only through null that is doubled**, in its type or in a part. -/
theorem nullDoubled_of_under {fields : Fields Json} (hfields : (Json.obj fields).Canonical)
    {key : String} {a b : Json} (hunder : Under fields key a b)
    (hparts : ∀ part, Part fields part → offence? (skeleton (unmarked part)) = none →
      ∀ message, offence? (skeleton part) = some message →
        NullDoubled part ∧ message = doubledOffence)
    {n : Nat} {form : Form} (hform : formOf? key = some (n, form))
    (ha : offenceUnder form a = none) {message : String} (hb : offenceUnder form b = some message) :
    NullDoubled (.obj fields) ∧ message = doubledOffence := by
  have hpart : ∀ {part : Json}, Part fields part → offence? (skeleton (unmarked part)) = none →
      offence? (skeleton part) = some message →
      NullDoubled (.obj fields) ∧ message = doubledOffence := by
    intro part hpart hplain ho
    obtain ⟨hdoubled, hmessage⟩ := hparts part hpart hplain message ho
    exact ⟨.part hpart hdoubled, hmessage⟩
  cases hunder with
  | type types htypes =>
    have hknown : formOf? "type" = some (3, .types) := rfl
    cases hknown.symm.trans hform
    by_cases hmark : isNullable fields = true
    · rw [if_pos hmark] at hb
      obtain ⟨rfl, rfl⟩ := types_of_widened_offence ha hb
      exact ⟨.here (isNullable_iff.1 hmark) htypes, rfl⟩
    · rw [if_neg hmark] at hb
      cases ha.symm.trans hb
  | listed listed hlisted =>
    have hknown : formOf? "properties" = some (1, .schemaMap) := rfl
    cases hknown.symm.trans hform
    obtain ⟨e, he, ho⟩ := exists_of_fieldsOffence? hb
    obtain ⟨⟨name, part⟩, hmem, rfl⟩ := List.mem_map.1 he
    have hget : listedPart? fields name = some part :=
      listedPart?_eq_some_iff.2
        ⟨listed, hlisted, (hfields.of_get? hlisted).1.get?_eq_some_iff.2 hmem⟩
    exact hpart (.property hget) (fieldsOffence?_eq_none ha (List.mem_map_of_mem hmem)) ho
  | items part hget =>
    have hknown : formOf? "items" = some (1, .schema) := rfl
    cases hknown.symm.trans hform
    exact hpart (.items hget) ha hb
  | additional part hget =>
    have hknown : formOf? "additionalProperties" = some (1, .schema) := rfl
    cases hknown.symm.trans hform
    exact hpart (.additional hget) ha hb
  | same v _ _ _ _ => cases ha.symm.trans hb

/-- **A schema offends only through null that is doubled** if it is well-formed without marks. -/
theorem nullDoubled_of_offence? (s : Json) : s.Canonical →
    offence? (skeleton (unmarked s)) = none → ∀ message, offence? (skeleton s) = some message →
      NullDoubled s ∧ message = doubledOffence := by
  induction s using part_induct with
  | schema s ih =>
    intro hs hplain message hmessage
    cases s with
    | obj fields =>
      rw [skeleton_unmarked_obj] at hplain
      rw [skeleton_obj] at hmessage
      obtain ⟨key, b, n, form, hmem, hform, hb⟩ := exists_of_offence? hmessage
      have hget := (ordered_node hs.1).get?_eq_some_iff.2 hmem
      obtain ⟨a, ha, hunder⟩ := exists_under hget
      exact nullDoubled_of_under hs hunder
        (fun part hpart => ih fields part rfl hpart (hpart.canonical hs)) hform
        (offenceUnder_eq_none hplain ha hform) hb
    | _ => cases hplain.symm.trans hmessage

/-- Null that is doubled offends. -/
theorem NullDoubled.offends {s : Json} (h : NullDoubled s) : offence? (skeleton s) ≠ none := by
  induction h with
  | @here fields hmark htype =>
    intro hwell
    rw [skeleton_obj] at hwell
    have hform : formOf? "type" = some (3, .types) := rfl
    have hget : Fields.get? "type" (node fields) = some (.arr [.str "null", .str "null"]) := by
      rw [get?_type_node, htype, isNullable_iff.2 hmark]
      rfl
    cases offenceUnder_eq_none hwell hget hform
  | part hpart _ ih => exact fun hwell => ih (offence?_part hwell hpart)

/-- **A widened type offends only where null is doubled.** -/
theorem offence?_skeleton {s : Json} (hs : s.Canonical)
    (hplain : offence? (skeleton (unmarked s)) = none) :
    (¬ NullDoubled s → offence? (skeleton s) = none) ∧
      (NullDoubled s → offence? (skeleton s) = some doubledOffence) := by
  have hdoubled := nullDoubled_of_offence? s hs hplain
  cases ho : offence? (skeleton s) with
  | none => exact ⟨fun _ => rfl, fun h => absurd ho h.offends⟩
  | some message =>
    obtain ⟨h, rfl⟩ := hdoubled message ho
    exact ⟨fun hno => absurd h hno, fun _ => rfl⟩

/-! ## References -/

/-- The other keywords of the two skeletons are the same. -/
theorem get?_node_eq_plainNode {fields : Fields Json} {key : String}
    (hkey : key ∉ ["type", "properties", "items", "additionalProperties"]) :
    Fields.get? key (node fields) = Fields.get? key (plainNode fields) := by
  have hunder := under_node fields key
  generalize Fields.get? key (plainNode fields) = x at hunder ⊢
  generalize Fields.get? key (node fields) = y at hunder ⊢
  cases hunder with
  | none => rfl
  | some h =>
    cases h with
    | same => rfl
    | _ => exact absurd (by simp) hkey

theorem closesMembers_plainNode (fields : Fields Json) :
    (operandsOf (node fields)).closesMembers = (operandsOf (plainNode fields)).closesMembers := by
  have hflag : ∀ part, unmarked part = .bool true ↔ part = .bool true := by
    intro part
    cases part <;> simp [unmarked]
  rw [Bool.eq_iff_iff, plainNode, closesMembers_iff, closesMembers_iff, get?_unmarkedEntries,
    if_neg (by decide)]
  constructor
  · rintro ⟨part, hpart, hne⟩
    exact ⟨unmarked part, by rw [hpart]; rfl, fun h => hne ((hflag part).1 h)⟩
  · rintro ⟨part', hpart', hne⟩
    obtain ⟨part, hpart, rfl⟩ := Option.map_eq_some_iff.1 hpart'
    exact ⟨part, hpart, fun h => hne ((hflag part).2 h)⟩

/-- The references of listed properties are those without marks, if that is so of each. -/
theorem mem_namedTargets_of_listed {listed : Fields Json} {target : String}
    (h : ∀ e ∈ listed, target ∈ (Check.ofJson (skeleton e.2)).targets →
      target ∈ (Check.ofJson (skeleton (unmarked e.2))).targets)
    (ht : target ∈ namedTargets (namedChecksOf (listed.map fun e => (e.1, skeleton e.2)))) :
    target ∈ namedTargets
      (namedChecksOf (listed.map fun e => (e.1, skeleton (unmarked e.2)))) := by
  rw [namedChecksOf_eq_map, List.map_map, mem_namedTargets_iff] at ht ⊢
  obtain ⟨_, hc, ht⟩ := ht
  obtain ⟨e, he, rfl⟩ := List.mem_map.1 hc
  exact ⟨_, List.mem_map_of_mem he, h e he ht⟩

/-- **A keyword refers to nothing new** if the parts do not. -/
theorem exists_demand_of_under {fields : Fields Json} (hfields : (Json.obj fields).Canonical)
    {target : String}
    (hparts : ∀ part, Part fields part → target ∈ (Check.ofJson (skeleton part)).targets →
      target ∈ (Check.ofJson (skeleton (unmarked part))).targets)
    {key : String} {a b : Json} (hunder : Under fields key a b) {d : Demand}
    (hd : (operandsOf (node fields)).demand? key (operandOf key b) = some d)
    (ht : target ∈ d.targets) :
    ∃ d', (operandsOf (plainNode fields)).demand? key (operandOf key a) = some d' ∧
      target ∈ d'.targets := by
  have hlisted : ∀ {listed : Fields Json},
      Fields.get? "properties" fields = some (.obj listed) → ∀ e ∈ listed,
      target ∈ (Check.ofJson (skeleton e.2)).targets →
      target ∈ (Check.ofJson (skeleton (unmarked e.2))).targets := by
    intro listed hget e he
    have hmember := (hfields.of_get? hget).1.get?_eq_some_iff.2 he
    exact hparts e.2 (.property (listedPart?_eq_some_iff.2 ⟨listed, hget, hmember⟩))
  have hlookup : ∀ key ∈ Operands.consulted,
      (operandsOf (node fields)).lookup key = (operandsOf (plainNode fields)).lookup key := by
    intro key hkey
    rw [lookup_operandsOf, lookup_operandsOf, get?_node_eq_plainNode]
    revert key
    decide
  have hcloses := closesMembers_plainNode fields
  cases hunder with
  | type types htypes =>
    cases hd
    simp [Demand.targets] at ht
  | listed listed hproperties =>
    rw [Operands.demand?_properties, hcloses] at hd
    rw [Operands.demand?_properties]
    split at hd
    · cases hd
    · next hopen =>
      cases hd
      rw [if_neg hopen]
      rw [Demand.targets] at ht
      refine ⟨_, rfl, ?_⟩
      rw [Demand.targets]
      exact mem_namedTargets_of_listed (hlisted hproperties) ht
  | items part hitem =>
    cases hd
    rw [Demand.targets] at ht
    refine ⟨_, Operands.demand?_items _ _, ?_⟩
    rw [Demand.targets]
    exact hparts part (.items hitem) ht
  | additional part hrest =>
    rw [Operands.demand?_additional, hcloses] at hd
    rw [Operands.demand?_additional]
    split at hd
    · next hclosed =>
      cases hd
      rw [if_pos hclosed]
      refine ⟨_, rfl, ?_⟩
      rw [mem_targets_others_iff] at ht ⊢
      rcases ht with ⟨checks, hchecks, ht⟩ | ht | ht
      · -- the listed members are those of the properties, which are compared as such
        obtain ⟨members, hmembers, rfl⟩ := named?_properties_eq_some_iff.1 hchecks
        obtain ⟨a, ha, hunder⟩ := exists_under hmembers
        obtain ⟨listed, hproperties, rfl, rfl⟩ := hunder.exists_listed rfl rfl
        exact .inl ⟨_, named?_properties_eq_some_iff.2 ⟨_, ha, rfl⟩,
          mem_namedTargets_of_listed (hlisted hproperties) ht⟩
      · rw [Operands.patterns_congr hlookup] at ht
        exact .inr (.inl ht)
      · exact .inr (.inr (hparts part (.additional hrest) ht))
    · cases hd
  | same v _ _ hkey _ =>
    rw [Operands.demand?_congr hlookup hcloses hkey] at hd
    exact ⟨d, hd, ht⟩

/-- **Widened types refer to nothing new.** -/
theorem targets_skeleton (s : Json) : s.Canonical →
    ∀ target ∈ (Check.ofJson (skeleton s)).targets,
      target ∈ (Check.ofJson (skeleton (unmarked s))).targets := by
  induction s using part_induct with
  | schema s ih =>
    intro hs target ht
    cases s with
    | obj fields =>
      rw [skeleton_obj, mem_targets_iff (ordered_node hs.1)] at ht
      rw [skeleton_unmarked_obj, mem_targets_iff (ordered_plainNode hs.1)]
      obtain ⟨key, b, d, hget, hd, ht⟩ := ht
      obtain ⟨a, ha, hunder⟩ := exists_under hget
      have hparts : ∀ part, Part fields part → target ∈ (Check.ofJson (skeleton part)).targets →
          target ∈ (Check.ofJson (skeleton (unmarked part))).targets :=
        fun part hpart => ih fields part rfl hpart (hpart.canonical hs) target
      obtain ⟨d', hd', ht'⟩ := exists_demand_of_under hs hparts hunder hd ht
      exact ⟨key, a, d', ha, hd', ht'⟩
    | _ => exact ht

/-- A list of types has its places when null is appended. -/
theorem covers_widenTypes (types : Json) : types.Covers (widenTypes types) := by
  refine Json.covers_of_step fun name u hu => ⟨u, ?_, .refl u⟩
  cases types with
  | str _ => cases hu
  | arr names =>
    rw [widenTypes]
    split
    · exact hu
    · obtain ⟨i, hi, hget⟩ := Option.bind_eq_some_iff.1 hu
      refine Option.bind_eq_some_iff.2 ⟨i, hi, ?_⟩
      rw [List.getElem?_append_left (List.getElem?_eq_some_iff.1 hget).1]
      exact hget
  | _ => exact hu

/-- **All places of the skeleton without marks** are in the one with them. -/
theorem covers_skeleton (s : Json) : (skeleton (unmarked s)).Covers (skeleton s) := by
  induction s using part_induct with
  | schema s ih =>
    cases s with
    | obj fields =>
      rw [skeleton_unmarked_obj, skeleton_obj]
      refine Json.covers_of_step fun key a ha => ?_
      obtain ⟨b, hb, hunder⟩ := exists_under_of_plain ha
      refine ⟨b, hb, ?_⟩
      cases hunder with
      | type _ _ =>
        split
        · exact covers_widenTypes a
        · exact .refl a
      | listed listed hlisted =>
        refine Json.covers_of_step fun name u hu => ?_
        rw [Json.step?, Fields.get?_map (fun v => skeleton (unmarked v)),
          Option.map_eq_some_iff] at hu
        obtain ⟨part, hpart, rfl⟩ := hu
        refine ⟨skeleton part, ?_, ih fields part rfl
          (.property (listedPart?_eq_some_iff.2 ⟨listed, hlisted, hpart⟩))⟩
        rw [Json.step?, Fields.get?_map, hpart]
        rfl
      | items part hitem => exact ih fields part rfl (.items hitem)
      | additional part hrest => exact ih fields part rfl (.additional hrest)
      | same _ => exact .refl a
    | _ => exact .refl _

end Structure

open Structure

namespace StructureValidator

/-- **A schema has a validator** if its skeleton is well-formed and has all places that it refers
to. -/
theorem exists_build {schema : Json} (hwell : offence? (skeleton schema) = none)
    (htargets : ∀ target ∈ (Check.ofJson (skeleton schema)).targets,
      ((skeleton schema).at? target).isSome = true) :
    ∃ validator, build schema = .ok validator := by
  have hfind : (Check.targets (Check.ofJson (skeleton schema))).find?
      (fun target => ((skeleton schema).at? target).isNone) = none := by
    rw [List.find?_eq_none]
    intro target ht hnone
    have hsome := htargets target ht
    rw [Option.isNone_iff_eq_none.1 hnone] at hsome
    cases hsome
  simp only [build, hwell, hfind]
  exact ⟨_, rfl⟩

theorem build_of_offence? {schema : Json} {message : String}
    (h : offence? (skeleton schema) = some message) : build schema = .error message := by
  simp only [build, h]

/-- What a validated schema refers to is there. -/
theorem isSome_at?_of_build {schema : Json} {validator : StructureValidator}
    (h : build schema = .ok validator) {target : String}
    (ht : target ∈ (Check.ofJson (skeleton schema)).targets) :
    ((skeleton schema).at? target).isSome = true := by
  obtain ⟨hwell, -⟩ := build_eq_ok h
  simp only [build, hwell] at h
  split at h
  · cases h
  · next hfind =>
    have hnone := List.find?_eq_none.1 hfind target ht
    rwa [Option.isNone_iff_eq_none, ← ne_eq, ← Option.isSome_iff_ne_none] at hnone

end StructureValidator

/-- **Marking nodes as nullable spoils a schema exactly where null is the type already.** If a
schema is accepted without the marks, it is accepted with them unless a node of the type null is
marked; and if one is, what is told is the list of two nulls that its type is widened to. -/
theorem widening_fails_iff_null_is_doubled {s : Json} (hs : s.Canonical)
    {plain : StructureValidator} (hplain : StructureValidator.build (unmarked s) = .ok plain) :
    ((∃ validator, StructureValidator.build s = .ok validator) ↔ ¬ NullDoubled s) ∧
      (NullDoubled s → StructureValidator.build s = .error doubledOffence) := by
  obtain ⟨hwell, -⟩ := StructureValidator.build_eq_ok hplain
  obtain ⟨hsound, hdoubled⟩ := offence?_skeleton hs hwell
  have hrefused : NullDoubled s → StructureValidator.build s = .error doubledOffence :=
    fun h => StructureValidator.build_of_offence? (hdoubled h)
  refine ⟨⟨?_, fun h => StructureValidator.exists_build (hsound h) fun target ht => ?_⟩, hrefused⟩
  · rintro ⟨validator, hbuild⟩ h
    cases hbuild.symm.trans (hrefused h)
  · have hthere := StructureValidator.isSome_at?_of_build hplain (targets_skeleton s hs target ht)
    exact (covers_skeleton s).isSome_at? hthere

/-- A nullable list of nullable texts, which refers to its own items. -/
def aliases : Json :=
  .obj [("items", .obj [("nullable", .bool true), ("type", .str "string")]),
    ("not", .obj [("$ref", .str "#/items")]), ("nullable", .bool true),
    ("type", .arr [.str "array"])]

/-- It is accepted with the marks as without them. -/
theorem aliases_are_accepted :
    aliases.Canonical ∧ (∃ plain, StructureValidator.build (unmarked aliases) = .ok plain) ∧
      ∃ validator, StructureValidator.build aliases = .ok validator := by
  have hcanonical : aliases.Canonical := by decide +kernel
  have hplain : StructureValidator.build (unmarked aliases) =
      .ok ⟨skeleton (unmarked aliases), Check.ofJson (skeleton (unmarked aliases))⟩ := rfl
  have hdoubled : ¬ NullDoubled aliases := by
    intro h
    cases h with
    | here _ htype => cases htype
    | part hpart h =>
      cases hpart with
      | items hget =>
        cases hget
        cases h with
        | here _ htype => simp [Fields.get?] at htype
        | part hpart _ => rcases hpart with hget | hget | hget <;> cases hget
      | additional hget => cases hget
      | property hget => cases hget
  exact ⟨hcanonical, ⟨_, hplain⟩,
    (widening_fails_iff_null_is_doubled hcanonical hplain).1.2 hdoubled⟩

/-- **Null that is marked as nullable is refused**, though the schema without the mark is not. -/
theorem nullable_null_is_refused :
    (∃ plain, StructureValidator.build
      (unmarked (.obj [("nullable", .bool true), ("type", .str "null")])) = .ok plain) ∧
    StructureValidator.build (.obj [("nullable", .bool true), ("type", .str "null")]) =
      .error ("[\"null\",\"null\"] is not valid under any of the schemas listed in the " ++
        "'anyOf' keyword") :=
  ⟨⟨_, rfl⟩, rfl⟩

end SchemaRules
