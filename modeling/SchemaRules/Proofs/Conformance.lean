import SchemaRules.Declaration.Convert
import SchemaRules.Proofs.Readings
import SchemaRules.Proofs.Samples
import SchemaRules.Proofs.Selection
import SchemaRules.Proofs.Validity

/-!
# Valid data conforms to the declaration

A schema document is read twice: as it stands, to tell which data it accepts, and as a schema,
which is declared. In typed documents the two readings agree.

* `Structure.Typed`: documents with exactly one type at every node, none of them nullable.
* `Declaration.Holds`: **data and its value at a declaration**, part by part. What may stand for an
  integer is left open.
* `everywhere_conforms`: **data that a typed document accepts is of the declared kind** at every
  position that the declaration reaches.
* `holds_convert`: data of the declared kind becomes a value at the declaration.
* `IsWhole`: what stands for an integer. It is the signed number that the data has there; a larger
  number, or one that is written as a double, stays what it is.
* `valid_data_holds`: **data without a violation becomes a value at the declaration.**
-/

namespace SchemaRules

open Structure

/-! ## Typed documents -/

/-- The types that can be declared. -/
def declarableTypes : List String :=
  ["object", "array", "string", "integer", "number", "boolean"]

/-- **A document of typed nodes.** Every node is an object with one type, which can be declared, and
not nullable. It lists properties or describes additional ones, not both. -/
inductive Structure.Typed : Json → Prop
  | node {fields : Fields Json} {name : String} :
      (∀ key ∈ Fields.names fields, key ∈ readKeywords ∨ isExtension key = true) →
      name ∈ declarableTypes →
      (Fields.get? "type" fields = some (.str name) ∨
        Fields.get? "type" fields = some (.arr [.str name])) →
      Fields.get? "nullable" fields ≠ some (.bool true) →
      (∀ part, Fields.get? "items" fields = some part → Typed part) →
      (∀ key part, listedPart? fields key = some part → Typed part) →
      (∀ part, Fields.get? "additionalProperties" fields = some part →
        (∃ b, part = .bool b) ∨ (∃ members, part = .obj members) ∧
          ∀ key, listedPart? fields key = none) →
      (∀ members, Fields.get? "additionalProperties" fields = some (.obj members) →
        Typed (.obj members)) →
      Typed (.obj fields)

theorem Structure.Typed.covered {doc : Json} (h : Typed doc) : Covered doc := by
  induction h with
  | node hkeys _ _ _ _ _ hadditional _ hitems hlisted hrest =>
    refine .node hkeys fun part hpart => ?_
    cases hpart with
    | items hget => exact hitems part hget
    | property hget => exact hlisted _ part hget
    | additional hget =>
      rcases hadditional part hget with ⟨b, rfl⟩ | ⟨⟨members, rfl⟩, -⟩
      · exact .flag b
      · exact hrest members hget

/-! ## Data and values at a declaration -/

namespace Declaration

/-- **Data and its value at a declaration.** What stands for an integer is `whole`. There are as
many items as the data has, or the same keys, and the value of each part is at the declaration of
the part; fields of an object may be missing, and others may be there too. -/
inductive Holds (whole : Json → Value → Prop) : Declaration → Json → Value → Prop
  | bool (b : Bool) : Holds whole .bool (.bool b) (.bool b)
  | int {v : Json} {w : Value} : whole v w → Holds whole .int v w
  | wholeDouble (n : ℤ) : Holds whole .double (.int n) (.double (Value.toDouble n))
  | double (x : Float) : Holds whole .double (.double x) (.double x)
  | string (s : String) : Holds whole .string (.str s) (.str s)
  | list {d : Declaration} {items : List Json} {values : List Value} :
      values.length = items.length →
      (∀ (i : ℕ) v w, items[i]? = some v → values[i]? = some w → Holds whole d v w) →
      Holds whole (.list d) (.arr items) (.list values)
  | map {d : Declaration} {fields : Fields Json} {entries : List (Key × Value)} :
      (entries.map Prod.fst).Perm ((Fields.names fields).map .str) →
      (∀ key v w, Fields.get? key fields = some v → Value.lookup? (.str key) entries = some w →
        Holds whole d v w) →
      Holds whole (.map d) (.obj fields) (.map entries)
  | object {name : String} {ds : List (String × Declaration)} {fields : Fields Json}
      {entries : List (Key × Value)} :
      (entries.map Prod.fst).Perm ((Fields.names fields).map .str) →
      (∀ key d v w, Fields.get? key ds = some d → Fields.get? key fields = some v →
        Value.lookup? (.str key) entries = some w → Holds whole d v w) →
      Holds whole (.object name ds) (.obj fields) (.map entries)

/-- Data of the kind that a declaration names; an integer is any number without a fraction. -/
def Conforms : Declaration → Json → Prop
  | bool, v => OfType "boolean" v
  | int, v => OfType "integer" v
  | double, v => OfType "number" v
  | string, v => OfType "string" v
  | list _, v => OfType "array" v
  | map _, v => OfType "object" v
  | object _ _, v => OfType "object" v

/-- **Data of the declared kind becomes a value at the declaration**, if what stands for an integer
does. -/
theorem holds_convert {whole : Json → Value → Prop} {d : Declaration} {v : Json}
    (hv : d.Everywhere Conforms v) (hcanonical : v.Canonical)
    (hwhole : ∀ n t, d.Reaches v .int n → OfType "integer" n → whole n (int.convert n t))
    (s : Seed) : d.Holds whole v (d.convert v s) := by
  -- over the positions of the data; the condition on integers is handed down to what is reached
  induction hv generalizing s with
  | @scalar d v hscalar hconforms =>
    cases d with
    | int => exact .int (hwhole v s (.here _ v) hconforms)
    | double =>
      cases v with
      | int n => exact .wholeDouble n
      | double x => exact .double x
      | _ => simp [Conforms, OfType] at hconforms
    | bool =>
      cases v with
      | bool b => exact .bool b
      | _ => simp [Conforms, OfType] at hconforms
    | string =>
      cases v with
      | str s => exact .string s
      | _ => simp [Conforms, OfType] at hconforms
    | _ => cases hscalar
  | @list d items _ _ ih =>
    rw [convert, convertItems_eq_map]
    refine .list ?_ fun i v w hv hw => ?_
    · rw [List.length_map, Seed.length_spread]
    · rw [List.getElem?_map, Seed.getElem?_spread, hv] at hw
      cases hw
      have hmem := List.mem_of_getElem? hv
      exact ih v hmem (hcanonical.of_mem_itemsOf hmem) (fun n t hn => hwhole n t (.item hmem hn)) _
  | @map d fields _ _ ih =>
    rw [convert]
    refine .map ((s.perm_keys_arrange _).trans (.of_eq ?_)) fun key v w hget hw => ?_
    · rw [convertValues_eq_map, Fields.names, List.map_map, List.map_map]
      rfl
    · rw [Seed.lookup?_arrange, lookup?_convertValues, hget] at hw
      cases hw
      exact ih key v hget (hcanonical.of_get? hget) (fun n t hn => hwhole n t (.value hget hn)) _
  | @object name ds fields _ _ ih =>
    rw [convert]
    refine .object ((s.perm_keys_arrange _).trans (.of_eq ?_)) fun key d v w hd hget hw => ?_
    · rw [convertFields_eq_map, Fields.names, List.map_map, List.map_map]
      rfl
    · rw [Seed.lookup?_arrange, lookup?_convertFields hd, hget] at hw
      cases hw
      exact ih key d v hd hget (hcanonical.of_get? hget)
        (fun n t hn => hwhole n t (.field hd hget hn)) _

end Declaration

/-! ## Typed documents and their schemas -/

theorem ofType_object_iff {v : Json} : OfType "object" v ↔ ∃ members, v = .obj members := by
  cases v <;> simp [OfType]

theorem ofType_array_iff {v : Json} : OfType "array" v ↔ ∃ items, v = .arr items := by
  cases v <;> simp [OfType]

/-- The schema of a typed node has its type alone. -/
theorem typeName?_of_readFrom {fields : Fields Json} {s : Schema} (h : Schema.ReadFrom fields s)
    {name : String} (htype : Fields.get? "type" fields = some (.str name) ∨
      Fields.get? "type" fields = some (.arr [.str name])) : s.typeName? = some name := by
  have hnames : s.types = [name] := by
    rcases htype with htype | htype
    · exact (Except.ok.inj (h.types.of_some htype)).symm
    · exact (Except.ok.inj (h.types.of_some htype)).symm
  rw [Schema.typeName?, hnames]

/-- A value that a typed node accepts is of its type. -/
theorem ofType_of_accepts {fields : Fields Json} {name : String}
    (htype : Fields.get? "type" fields = some (.str name) ∨
      Fields.get? "type" fields = some (.arr [.str name]))
    (hnullable : Fields.get? "nullable" fields ≠ some (.bool true)) {v : Json}
    (h : Accepts (.obj fields) v) : OfType name v := by
  cases h with
  | node htypes _ _ _ _ =>
    rcases htype with htype | htype
    · rcases htypes _ htype with ⟨name', hname, hv⟩ | ⟨-, htrue⟩
      · rw [typeNames, List.mem_singleton] at hname
        exact hname ▸ hv
      · exact absurd htrue hnullable
    · rcases htypes _ htype with ⟨name', hname, hv⟩ | ⟨-, htrue⟩
      · have heq : name' = name := by
          simpa [typeNames, mem_textsIn_iff] using hname
        exact heq ▸ hv
      · exact absurd htrue hnullable

/-- The schema of additional properties is read from their document. -/
theorem ofJson_of_additional {fields : Fields Json} {s values : Schema}
    (h : Schema.ReadFrom fields s) (hvalues : s.additional = some (.inr values)) :
    ∃ part, Fields.get? "additionalProperties" fields = some part ∧
      (∀ b, part ≠ .bool b) ∧ Schema.ofJson part = .ok values := by
  have hadditional := h.additional
  unfold Schema.FieldOf at hadditional
  split at hadditional
  · next part hget =>
    rw [hvalues] at hadditional
    beta_reduce at hadditional
    unfold Schema.additionalOf at hadditional
    split at hadditional
    · cases hadditional
    · cases hadditional
    · next hno =>
      obtain ⟨s', hs', he⟩ := map_eq_ok (Schema.alternative_eq_ok hadditional)
      cases he
      exact ⟨part, hget, hno, hs'⟩
  · rw [hadditional] at hvalues
    cases hvalues

/-- The schema of items is read from their document. -/
theorem ofJson_of_items {fields : Fields Json} {s items : Schema}
    (h : Schema.ReadFrom fields s) (hitems : s.items = some items) :
    ∃ part, Fields.get? "items" fields = some part ∧ Schema.ofJson part = .ok items := by
  have hread := h.items
  unfold Schema.FieldOf at hread
  split at hread
  · next part hget =>
    rw [hitems] at hread
    beta_reduce at hread
    unfold Schema.unlessNull at hread
    split at hread
    · cases hread
    · obtain ⟨s', hs', he⟩ := map_eq_ok hread
      cases he
      exact ⟨part, hget, hs'⟩
  · rw [hread] at hitems
    cases hitems

/-- **Data that a typed document accepts is of the declared kind** wherever the declaration of its
schema reaches. -/
theorem everywhere_conforms {doc : Json} (htyped : Typed doc) :
    ∀ {s : Schema} {place : String} {d : Declaration} {v : Json}, doc.Canonical →
      Schema.ofJson doc = .ok s → s.declare place = .ok d → Accepts doc v →
      d.Everywhere Declaration.Conforms v := by
  -- over the document; what the node declares is settled by its type, which the data has
  induction htyped with
  | @node fields name _ _ htype hnullable _ _ hadditional _ ihitems ihlisted ihrest =>
    intro s place d v hdoc hread hdeclare haccepts
    have hfrom := Schema.readFrom_of_ofJson hdoc.1 hread
    have hname := typeName?_of_readFrom hfrom htype
    have hkind := ofType_of_accepts htype hnullable haccepts
    have hdeclared := Schema.declaredAs_of_declare hdeclare
    rcases haccepts with _ | ⟨-, -, hlistedParts, hotherParts, hitemParts⟩
    cases hdeclared with
    | @map values place d hobject hvalues hd =>
      obtain rfl : name = "object" := Option.some.inj (hname.symm.trans hobject)
      obtain ⟨members, rfl⟩ := ofType_object_iff.1 hkind
      obtain ⟨part, hpart, hflag, hreadPart⟩ := ofJson_of_additional hfrom hvalues
      rcases hadditional part hpart with ⟨b, rfl⟩ | ⟨⟨_, rfl⟩, hnone⟩
      · exact absurd rfl (hflag b)
      · refine .map hkind fun key member hm => ?_
        exact ihrest _ hpart (hdoc.of_get? hpart) hreadPart hd
          (hotherParts _ key member hpart (hnone key) hm)
    | @object place ds hobject _ hds =>
      obtain rfl : name = "object" := Option.some.inj (hname.symm.trans hobject)
      obtain ⟨members, rfl⟩ := ofType_object_iff.1 hkind
      refine .object hkind fun key d member hd hm => ?_
      obtain ⟨listed, part, child, childPlace, hproperties, hpart, hreadPart, hdeclarePart⟩ :=
        hfrom.field hds hd
      have hlisted : listedPart? fields key = some part :=
        listedPart?_eq_some_iff.2 ⟨listed, hproperties, hpart⟩
      have hcanonical : part.Canonical := Part.canonical (.property hlisted) hdoc
      exact ihlisted key part hlisted hcanonical hreadPart hdeclarePart
        (hlistedParts key part member hlisted hm)
    | @list itemSchema place d harray hitems hd =>
      obtain rfl : name = "array" := Option.some.inj (hname.symm.trans harray)
      obtain ⟨items, rfl⟩ := ofType_array_iff.1 hkind
      obtain ⟨part, hpart, hreadPart⟩ := ofJson_of_items hfrom hitems
      refine .list hkind fun item hitem => ?_
      exact ihitems part hpart (hdoc.of_get? hpart) hreadPart hd
        (hitemParts part items item hpart rfl hitem)
    | string h =>
      obtain rfl : name = "string" := Option.some.inj (hname.symm.trans h)
      exact .scalar rfl hkind
    | int h =>
      obtain rfl : name = "integer" := Option.some.inj (hname.symm.trans h)
      exact .scalar rfl hkind
    | double h =>
      obtain rfl : name = "number" := Option.some.inj (hname.symm.trans h)
      exact .scalar rfl hkind
    | bool h =>
      obtain rfl : name = "boolean" := Option.some.inj (hname.symm.trans h)
      exact .scalar rfl hkind

/-! ## Validated data -/

/-- A signed number. -/
def IsSigned (w : Value) : Prop :=
  ∃ n, w = .int n ∧ Value.isInt n = true

/-- **What stands for an integer**: the number that the data has. It is signed where it fits, else
unsigned, or a double if the data has one without a fraction. -/
inductive IsWhole : Json → Value → Prop
  | signed {n : ℤ} : Value.isInt n = true → IsWhole (.int n) (.int n)
  | unsigned {n : ℕ} : Value.intMax < n → n ≤ Value.uintMax → IsWhole (.int n) (.uint n)
  | double {x : Float} {n : ℤ} :
      (Decimal.Exact.ofFloat x).value = n → IsWhole (.double x) (.double x)

theorem convert_int (n : ℤ) (s : Seed) :
    Declaration.int.convert (.int n) s = if Value.isInt n then .int n else .uint n.toNat :=
  rfl

/-- An integer is a signed number where it fits one, and stays what it is otherwise. -/
theorem isWhole_convert {v : Json} (hv : OfType "integer" v)
    (hbound : ∀ n, v = .int n → Value.intMin ≤ n ∧ n ≤ Value.uintMax) (s : Seed) :
    IsWhole v (Declaration.int.convert v s) := by
  cases v with
  | int n =>
    by_cases hn : Value.isInt n = true
    · rw [convert_int, if_pos hn]
      exact .signed hn
    · obtain ⟨hmin, hmax⟩ := hbound n rfl
      have hlarge : Value.intMax < n := by
        simp only [Value.isInt, Bool.and_eq_true, decide_eq_true_eq, not_and, not_le] at hn
        exact hn hmin
      have hnat : (n.toNat : ℤ) = n := by
        have hpos : (0 : ℤ) ≤ Value.intMax := by decide
        omega
      have hunsigned : IsWhole (.int n.toNat) (.uint n.toNat) :=
        .unsigned (by omega) (by omega)
      rw [convert_int, if_neg hn]
      rwa [hnat] at hunsigned
  | double x =>
    obtain ⟨n, hn⟩ : ∃ n : ℤ, (Decimal.Exact.ofFloat x).value = n := by
      simpa [OfType] using hv
    exact .double hn
  | _ => simp [OfType] at hv

/-- **Data without a violation becomes a value at the declaration** of a typed document. For an
integer stands the number that the data has there, which is a signed one if it fits. Where the data
has signed numbers for all integers, it becomes a value with signed numbers for all of them. -/
theorem valid_data_holds {doc : Json} (htyped : Typed doc) (hdoc : doc.Canonical)
    {schema : Schema} (hread : Schema.ofJson doc = .ok schema) {name : String} {d : Declaration}
    (hdeclare : schema.declare name = .ok d) {validator : StructureValidator}
    (hbuild : StructureValidator.build doc = .ok validator) {v : Json} (hv : v.Canonical)
    (hbound : ∀ n, d.Reaches v .int (.int n) → Value.intMin ≤ n ∧ n ≤ Value.uintMax)
    (hvalid : validator.validate v = []) (s : Seed) :
    d.Holds IsWhole v (d.convert v s) ∧
      ((∀ w, d.Reaches v .int w → ∃ n, w = .int n ∧ Value.isInt n = true) →
        d.Holds (fun _ => IsSigned) v (d.convert v s)) := by
  obtain ⟨hwell, rfl⟩ := StructureValidator.build_eq_ok hbuild
  have haccepts : Accepts doc v := (means_skeleton htyped.covered hdoc hwell "" "" v hv).1 hvalid
  have hconforms := everywhere_conforms htyped hdoc hread hdeclare haccepts
  constructor
  · refine Declaration.holds_convert hconforms hv (fun w t hw hinteger => ?_) s
    exact isWhole_convert hinteger (fun n hn => hbound n (hn ▸ hw)) t
  · intro hsigned
    refine Declaration.holds_convert hconforms hv (fun w t hw _ => ?_) s
    obtain ⟨n, rfl, hn⟩ := hsigned w hw
    refine ⟨n, ?_, hn⟩
    rw [convert_int, if_pos hn]

/-- A typed node without parts. -/
theorem typed_of_no_parts {fields : Fields Json} {name : String}
    (hkeys : ∀ key ∈ Fields.names fields, key ∈ readKeywords ∨ isExtension key = true)
    (hname : name ∈ declarableTypes) (htype : Fields.get? "type" fields = some (.str name))
    (hno : ∀ key ∈ ["nullable", "items", "additionalProperties", "properties"],
      Fields.get? key fields = none) : Typed (.obj fields) := by
  have hlisted : ∀ key, listedPart? fields key = none := by
    intro key
    rw [listedPart?, hno _ (by decide)]
  have hgone : ∀ key ∈ ["nullable", "items", "additionalProperties", "properties"], ∀ part,
      Fields.get? key fields ≠ some part := by
    intro key hkey part h
    cases (hno key hkey).symm.trans h
  refine .node hkeys hname (.inl htype) (hgone _ (by decide) _) ?_ ?_ ?_ ?_
  · exact fun part h => absurd h (hgone _ (by decide) part)
  · intro key part h
    cases (hlisted key).symm.trans h
  · exact fun part h => absurd h (hgone _ (by decide) part)
  · exact fun members h => absurd h (hgone _ (by decide) _)

/-- A whole number. -/
def wholeDoc : Json :=
  .obj [("type", .str "integer")]

theorem typed_wholeDoc : Typed wholeDoc :=
  typed_of_no_parts (by decide) (by decide) rfl (by decide)

/-- An object with a list of whole numbers. -/
def sizesDoc : Json :=
  .obj [("properties", .obj [("sizes", .obj [("items", wholeDoc), ("type", .str "array")])]),
    ("type", .str "object")]

theorem typed_sizesDoc : Typed sizesDoc := by
  have hlist : Typed (.obj [("items", wholeDoc), ("type", .str "array")]) := by
    refine .node (by decide) (by decide : "array" ∈ declarableTypes) (.inl rfl)
      (by simp [Fields.get?]) ?_ ?_ ?_ ?_
    · intro part h
      cases h
      exact typed_wholeDoc
    all_goals intros; contradiction
  refine .node (by decide) (by decide : "object" ∈ declarableTypes) (.inl rfl)
    (by simp [Fields.get?]) ?_ ?_ ?_ ?_
  case refine_2 =>
    intro key part h
    obtain ⟨listed, hlisted, hpart⟩ := listedPart?_eq_some_iff.1 h
    cases hlisted
    simp only [Fields.get?, Option.ite_none_right_eq_some, Option.some.injEq] at hpart
    rw [← hpart.2]
    exact hlist
  all_goals intros; contradiction

/-- Signed numbers in a list of an object. -/
theorem sizes_hold :
    Declaration.Holds (fun _ => IsSigned) (.object "self" [("sizes", .list .int)])
      (.obj [("note", .null), ("sizes", .arr [.int 3])])
      (Declaration.convert (.object "self" [("sizes", .list .int)])
        (.obj [("note", .null), ("sizes", .arr [.int 3])]) .standard) := by
  have hdoc : sizesDoc.Canonical := by decide
  have hv : (Json.obj [("note", .null), ("sizes", .arr [.int 3])]).Canonical := by decide
  have hbuild : StructureValidator.build sizesDoc =
      .ok ⟨skeleton sizesDoc, Check.ofJson (skeleton sizesDoc)⟩ := rfl
  have hread : Schema.ofJson sizesDoc = .ok { Schema.empty with
      types := ["object"]
      properties := [("sizes", { Schema.empty with
        types := ["array"]
        items := some { Schema.empty with types := ["integer"] } })] } := rfl
  have hreaches : ∀ w, Declaration.Reaches (.object "self" [("sizes", .list .int)])
      (.obj [("note", .null), ("sizes", .arr [.int 3])]) .int w → w = .int 3 := by
    intro w hw
    cases hw with
    | field hd hget hw =>
      simp only [Fields.get?, Option.ite_none_right_eq_some, Option.some.injEq] at hd
      obtain ⟨rfl, rfl⟩ := hd
      cases hget
      cases hw with
      | item hmem hw =>
        cases List.mem_singleton.1 hmem
        cases hw
        rfl
  refine (valid_data_holds typed_sizesDoc hdoc hread (by rfl) hbuild hv ?_ (by decide +kernel)
    .standard).2 ?_
  · intro n hn
    cases hreaches _ hn
    decide
  · intro w hw
    exact ⟨3, hreaches w hw, by decide⟩

/-- **An integer need not become a signed number**: a double without a fraction and a number above
the signed ones have no violation. -/
theorem integer_is_not_always_signed :
    Typed wholeDoc ∧ Schema.ofJson wholeDoc = .ok { Schema.empty with types := ["integer"] } ∧
      Schema.declare "self" { Schema.empty with types := ["integer"] } = .ok .int ∧
      StructureValidator.build wholeDoc =
        .ok ⟨skeleton wholeDoc, Check.ofJson (skeleton wholeDoc)⟩ ∧
      ∀ v ∈ [Json.double 1, Json.int 0x8000_0000_0000_0000],
        StructureValidator.validate ⟨skeleton wholeDoc, Check.ofJson (skeleton wholeDoc)⟩ v = [] ∧
          ∀ s, ¬ Declaration.int.Holds (fun _ => IsSigned) v (Declaration.int.convert v s) := by
  refine ⟨typed_wholeDoc, rfl, rfl, rfl, fun v hv => ?_⟩
  simp only [List.mem_cons, List.not_mem_nil, or_false] at hv
  rcases hv with rfl | rfl
  · refine ⟨by decide +kernel, fun s h => ?_⟩
    cases h with
    | int h =>
      obtain ⟨n, hn, -⟩ := h
      cases hn
  · refine ⟨by decide +kernel, fun s h => ?_⟩
    rw [convert_int, if_neg (by decide)] at h
    cases h with
    | int h =>
      obtain ⟨n, hn, -⟩ := h
      cases hn

end SchemaRules
