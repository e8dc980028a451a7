import SchemaRules.Proofs.Acceptance
import SchemaRules.Structure.Skeleton
import SchemaRules.Structure.WellFormed

/-!
# The skeleton of a node

* `Structure.get?_node`: what stands under a keyword in the skeleton of a node: nothing under
  `nullable` and `format`, the skeletons of parts under the keywords of parts, and everything else
  as it was. `get?_type_node` says what becomes of the types.
* `Structure.exists_ofType_widenTypes`: **a widened type lists null and what it listed before.**
* `Structure.offence?_part`: **a well-formed skeleton is one of well-formed skeletons**, and its
  type is a name or a list (`type_of_offence?`).
-/

namespace SchemaRules.Structure

/-! ## The entries of a skeleton -/

/-- The entries of the skeleton of a node. -/
def node (fields : Fields Json) : Fields Json :=
  if isNullable fields then widen (skeletonEntries fields) else skeletonEntries fields

theorem skeleton_obj (fields : Fields Json) : skeleton (.obj fields) = .obj (node fields) := by
  rw [skeleton, node]

/-- What is under a keyword, with the skeletons of the parts in it. -/
def skeletonUnder (key : String) (v : Json) : Json :=
  if key = "properties" then skeletonProperties v
  else if key = "items" ∨ key = "additionalProperties" then skeleton v
  else v

theorem get?_skeletonEntries (key : String) (fields : Fields Json) :
    Fields.get? key (skeletonEntries fields) =
      if key = "nullable" ∨ key = "format" then none
      else (Fields.get? key fields).map (skeletonUnder key) := by
  induction fields with
  | nil => simp [skeletonEntries]
  | cons e rest ih =>
    obtain ⟨k, v⟩ := e
    rw [skeletonEntries]
    by_cases hk : k = key
    · subst hk
      by_cases hdrop : k = "nullable" ∨ k = "format"
      · rw [if_pos hdrop, if_pos hdrop, ih, if_pos hdrop]
      · rw [if_neg hdrop, if_neg hdrop, Fields.get?_cons_self, Fields.get?_cons_self]
        rfl
    · rw [Fields.get?_cons_of_ne hk]
      split
      · exact ih
      · rw [Fields.get?_cons_of_ne hk, ih]

theorem names_skeletonEntries (fields : Fields Json) :
    (Fields.names (skeletonEntries fields)).Sublist (Fields.names fields) := by
  induction fields with
  | nil => exact List.Sublist.refl _
  | cons e rest ih =>
    obtain ⟨k, v⟩ := e
    rw [skeletonEntries]
    split
    · exact ih.cons k
    · exact ih.cons_cons k

theorem get?_widen (key : String) (fields : Fields Json) :
    Fields.get? key (widen fields) =
      if key = "type" then (Fields.get? key fields).map widenTypes
      else Fields.get? key fields := by
  unfold widen
  cases htype : Fields.get? "type" fields with
  | none =>
    by_cases hk : key = "type"
    · subst hk; simp [htype]
    · simp [hk]
  | some types =>
    simp only [Fields.get?_insert]
    by_cases hk : key = "type"
    · subst hk; simp [htype]
    · simp [hk, Ne.symm hk]

/-- **What stands under a keyword** of a skeleton, the type apart. -/
theorem get?_node {key : String} (hkey : key ≠ "type") (fields : Fields Json) :
    Fields.get? key (node fields) =
      if key = "nullable" ∨ key = "format" then none
      else (Fields.get? key fields).map (skeletonUnder key) := by
  rw [← get?_skeletonEntries, node]
  split
  · rw [get?_widen, if_neg hkey]
  · rfl

/-- **The type of a skeleton** is widened where the node is nullable. -/
theorem get?_type_node (fields : Fields Json) :
    Fields.get? "type" (node fields) =
      (Fields.get? "type" fields).map fun types =>
        if isNullable fields then widenTypes types else types := by
  have hentries : Fields.get? "type" (skeletonEntries fields) = Fields.get? "type" fields := by
    rw [get?_skeletonEntries, if_neg (by decide)]
    have hsame : skeletonUnder "type" = id := by
      funext v; simp [skeletonUnder]
    rw [hsame, Option.map_id_fun, id]
  rw [node]
  split
  · rw [get?_widen, if_pos rfl, hentries]
  · rw [hentries]; simp

theorem get?_items_node (fields : Fields Json) :
    Fields.get? "items" (node fields) = (Fields.get? "items" fields).map skeleton := by
  rw [get?_node (by decide), if_neg (by decide)]
  rfl

theorem get?_additional_node (fields : Fields Json) :
    Fields.get? "additionalProperties" (node fields) =
      (Fields.get? "additionalProperties" fields).map skeleton := by
  rw [get?_node (by decide), if_neg (by decide)]
  rfl

theorem get?_required_node (fields : Fields Json) :
    Fields.get? "required" (node fields) = Fields.get? "required" fields := by
  rw [get?_node (by decide), if_neg (by decide)]
  exact Option.map_id'

theorem get?_properties_node (fields : Fields Json) :
    Fields.get? "properties" (node fields) =
      (Fields.get? "properties" fields).map skeletonProperties := by
  rw [get?_node (by decide), if_neg (by decide)]
  rfl

theorem listedPart?_eq_some_iff {fields : Fields Json} {key : String} {part : Json} :
    listedPart? fields key = some part ↔
      ∃ listed, Fields.get? "properties" fields = some (.obj listed) ∧
        Fields.get? key listed = some part := by
  unfold listedPart?
  split
  · next listed hlisted => simp [hlisted]
  · next hno =>
    simp only [reduceCtorEq, false_iff, not_exists, not_and]
    exact fun listed hlisted => absurd hlisted (hno listed)

theorem skeletonMembers_eq_map (members : Fields Json) :
    skeletonMembers members = members.map fun e => (e.1, skeleton e.2) := by
  induction members with
  | nil => rfl
  | cons e rest ih => rw [skeletonMembers, ih, List.map_cons]

theorem ordered_node {fields : Fields Json} (h : Fields.Ordered fields) :
    Fields.Ordered (node fields) := by
  have hentries : Fields.Ordered (skeletonEntries fields) := by
    rw [Fields.ordered_iff_names] at h ⊢
    exact h.sublist (names_skeletonEntries fields)
  rw [node]
  split
  · unfold widen
    split
    · exact hentries.insert _ _
    · exact hentries
  · exact hentries

/-! ## Null among the types -/

theorem isNullName_iff {v : Json} : isNullName v = true ↔ v = .str "null" := by
  unfold isNullName
  split
  · simp
  · next h => simpa using h

/-- **A node is nullable** exactly if it says so. -/
theorem isNullable_iff {fields : Fields Json} :
    isNullable fields = true ↔ Fields.get? "nullable" fields = some (.bool true) := by
  unfold isNullable
  split
  · next b hb => simp [hb]
  · next h =>
    simp only [Bool.false_eq_true, false_iff]
    exact fun htrue => h true htrue

theorem mem_textsIn_iff {names : List Json} {name : String} :
    name ∈ (Json.arr names).textsIn ↔ .str name ∈ names := by
  simp only [Json.textsIn, List.mem_filterMap]
  constructor
  · rintro ⟨v, hv, hname⟩
    cases v <;> simp_all
  · intro h
    exact ⟨_, h, rfl⟩

/-- **A widened type lists null and what it listed before.** -/
theorem exists_ofType_widenTypes {types : Json}
    (htypes : (∃ name, types = .str name) ∨ ∃ names, types = .arr names) (v : Json) :
    (∃ name ∈ typeNames (widenTypes types), OfType name v) ↔
      (∃ name ∈ typeNames types, OfType name v) ∨ v = .null := by
  -- both forms of a type list null after the widening, one of them only if it was not there
  have hnames : ∀ name, name ∈ typeNames (widenTypes types) ↔
      name ∈ typeNames types ∨ name = "null" := by
    intro name
    rcases htypes with ⟨only, rfl⟩ | ⟨names, rfl⟩
    · simp [widenTypes, typeNames, mem_textsIn_iff]
    · simp only [widenTypes, typeNames, mem_textsIn_iff]
      by_cases hnull : names.any isNullName = true
      · rw [if_pos hnull]
        simp only [List.any_eq_true, isNullName_iff, exists_eq_right] at hnull
        refine ⟨Or.inl, fun h => ?_⟩
        rcases h with h | rfl
        · exact h
        · exact hnull
      · rw [if_neg hnull]
        simp
  rw [← ofType_null_iff]
  constructor
  · rintro ⟨name, hname, hv⟩
    rcases (hnames name).1 hname with h | rfl
    · exact .inl ⟨name, h, hv⟩
    · exact .inr hv
  · rintro (⟨name, hname, hv⟩ | hv)
    · exact ⟨name, (hnames name).2 (.inl hname), hv⟩
    · exact ⟨"null", (hnames "null").2 (.inr rfl), hv⟩

/-- Only a name or a list is widened to one. -/
theorem type_of_widenTypes {types : Json}
    (h : (∃ name, widenTypes types = .str name) ∨ ∃ names, widenTypes types = .arr names) :
    (∃ name, types = .str name) ∨ ∃ names, types = .arr names := by
  cases types with
  | str name => exact .inl ⟨name, rfl⟩
  | arr names => exact .inr ⟨names, rfl⟩
  | _ => exact h

/-! ## Well-formed skeletons -/

theorem formOf?_lt {key : String} {n : Nat} {form : Form} (h : formOf? key = some (n, form)) :
    n < vocabularies.length := by
  unfold formOf? at h
  obtain ⟨v, hv, hform⟩ := List.exists_of_findSome?_eq_some h
  obtain ⟨w, -, hw⟩ := Option.map_eq_some_iff.1 hform
  have hlt := List.snd_lt_of_mem_zipIdx hv
  cases hw
  omega

/-- The first offence of a keyword. -/
def offenceUnder (form : Form) (v : Json) : Option String :=
  match form, v with
  | .schema, v => offence? v
  | .schemas, .arr items =>
    (itemsOffence? items).or ((Demand.limit ⟨.items, true, 1⟩).breach? (.arr items))
  | .schemaMap, .obj fields => fieldsOffence? fields
  | .patternMap, .obj fields =>
    (fieldsOffence? fields).or
      ((Fields.names fields).findSome? fun name => patternOffence? (.str name))
  | .dependencies, .obj fields => dependenciesOffence? fields
  | form, v => valueOffence? form v

theorem offencesIn_cons (keyword : String) (v : Json) (rest : List (String × Json)) :
    offencesIn ((keyword, v) :: rest) =
      ((formOf? keyword).bind fun f =>
        (offenceUnder f.2 v).map fun message => (f.1, message)).toList ++ offencesIn rest := by
  rw [offencesIn]
  cases formOf? keyword <;> rfl

theorem mem_offencesIn_iff {o : Nat × String} {fields : Fields Json} :
    o ∈ offencesIn fields ↔ ∃ key v form, (key, v) ∈ fields ∧
      formOf? key = some (o.1, form) ∧ offenceUnder form v = some o.2 := by
  induction fields with
  | nil => simp [offencesIn]
  | cons e rest ih =>
    obtain ⟨key, v⟩ := e
    rw [offencesIn_cons, List.mem_append, ih, Option.mem_toList,
      Option.bind_eq_some_iff]
    constructor
    · rintro (⟨⟨n, form⟩, hform, ho⟩ | ⟨key, v, form, hmem, ho⟩)
      · obtain ⟨message, hmessage, rfl⟩ := Option.map_eq_some_iff.1 ho
        exact ⟨key, v, form, List.mem_cons_self, hform, hmessage⟩
      · exact ⟨key, v, form, List.mem_cons_of_mem _ hmem, ho⟩
    · rintro ⟨key', v', form, hmem, hform, ho⟩
      rcases List.mem_cons.1 hmem with heq | hmem
      · cases heq
        exact .inl ⟨(o.1, form), hform, by rw [ho]; rfl⟩
      · exact .inr ⟨key', v', form, hmem, hform, ho⟩

theorem firstOf?_eq_none {offences : List (Nat × String)} (h : firstOf? offences = none)
    {o : Nat × String} (ho : o ∈ offences) : vocabularies.length ≤ o.1 := by
  unfold firstOf? at h
  rw [Option.map_eq_none_iff, List.findSome?_eq_none_iff] at h
  by_contra hlt
  have hfind := h o.1 (List.mem_range.2 (by omega))
  rw [List.find?_eq_none] at hfind
  exact hfind o ho (by simp)

/-- **No keyword of a well-formed node offends.** -/
theorem offenceUnder_eq_none {fields : Fields Json} (h : offence? (.obj fields) = none)
    {key : String} {v : Json} (hv : Fields.get? key fields = some v) {n : Nat} {form : Form}
    (hform : formOf? key = some (n, form)) : offenceUnder form v = none := by
  rw [offence?] at h
  cases ho : offenceUnder form v with
  | none => rfl
  | some message =>
    -- an offence of a vocabulary that is searched would be found
    have hmem : (n, message) ∈ offencesIn fields :=
      mem_offencesIn_iff.2 ⟨key, v, form, Fields.mem_of_get? hv, hform, ho⟩
    have hle := firstOf?_eq_none h hmem
    have hlt := formOf?_lt hform
    omega

theorem fieldsOffence?_eq_none {fields : Fields Json} (h : fieldsOffence? fields = none)
    {key : String} {v : Json} (hv : (key, v) ∈ fields) : offence? v = none := by
  induction fields with
  | nil => cases hv
  | cons e rest ih =>
    obtain ⟨k, w⟩ := e
    rw [fieldsOffence?, Option.or_eq_none_iff] at h
    rcases List.mem_cons.1 hv with he | hv
    · cases he; exact h.1
    · exact ih h.2 hv

/-- **A well-formed skeleton is one of well-formed skeletons.** -/
theorem offence?_part {fields : Fields Json} (h : offence? (skeleton (.obj fields)) = none)
    {part : Json} (hpart : Part fields part) : offence? (skeleton part) = none := by
  rw [skeleton_obj] at h
  cases hpart with
  | items hget =>
    have hform : formOf? "items" = some (1, .schema) := rfl
    refine offenceUnder_eq_none h ?_ hform
    rw [get?_items_node, hget]; rfl
  | additional hget =>
    have hform : formOf? "additionalProperties" = some (1, .schema) := rfl
    refine offenceUnder_eq_none h ?_ hform
    rw [get?_additional_node, hget]; rfl
  | @property key _ hlisted =>
    obtain ⟨listed, hlisted, hget⟩ := listedPart?_eq_some_iff.1 hlisted
    have hform : formOf? "properties" = some (1, .schemaMap) := rfl
    have hnode : Fields.get? "properties" (node fields) =
        some (.obj (skeletonMembers listed)) := by
      rw [get?_properties_node, hlisted]; rfl
    have hmembers : fieldsOffence? (skeletonMembers listed) = none :=
      offenceUnder_eq_none h hnode hform
    have hmember : Fields.get? key (skeletonMembers listed) = some (skeleton part) := by
      rw [skeletonMembers_eq_map, Fields.get?_map, hget]; rfl
    exact fieldsOffence?_eq_none hmembers (Fields.mem_of_get? hmember)

/-- **The type of a well-formed node** is a name or a list. -/
theorem type_of_offence? {fields : Fields Json} (h : offence? (.obj fields) = none)
    {types : Json} (htypes : Fields.get? "type" fields = some types) :
    (∃ name, types = .str name) ∨ ∃ names, types = .arr names := by
  have hform : formOf? "type" = some (3, .types) := rfl
  have hnone := offenceUnder_eq_none h htypes hform
  cases types with
  | str name => exact .inl ⟨name, rfl⟩
  | arr names => exact .inr ⟨names, rfl⟩
  | _ => cases hnone

end SchemaRules.Structure
