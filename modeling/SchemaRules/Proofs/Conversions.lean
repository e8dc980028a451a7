import SchemaRules.Proofs.RoundTrip
import SchemaRules.Proofs.Selection

/-!
# What becomes of data

Data is converted at a declaration, and what stands at a place of the data at the declaration that
is reached there. Where there is none, the data decides alone. The maps come to stand in any order.

* `Declaration.along?`, `Seed.along`: **the declaration and the orders that are reached over a way**
  into the data.
* `Declaration.convertAt`: the value of data where something may be declared.
* `Value.follow?_convertAt`: **what stands at the end of a way is converted where it stands**, by
  induction on the way; `Value.part?_convertAt` is the step.
* `Json.MayBecome`: **what data may become**: a number may become a double, and nothing else
  changes.
* `Value.Alike`: **values that differ in the order of entries alone**, as those do that data becomes
  at two times (`Declaration.alike_convertAt`).
* `Json.hasOneOrder`, `Declaration.convertAt_of_hasOneOrder`: data that becomes one value whenever
  it is built.
* `Declaration.convertAt_eq_ofJson_iff`: a declaration makes a difference only to whole numbers that
  stand where doubles are declared.
* `conversion_commutes_with_lookup`: all of a conversion.
-/

namespace SchemaRules

namespace Json

/-- Whether data has no parts. -/
def isScalar : Json → Bool
  | arr _ | obj _ => false
  | _ => true

end Json

/-! ## Values at places -/

namespace Value

/-- The part of a value that a step leads to. -/
def part? : Value → Json.Step → Option Value
  | map entries, .key k => lookup? (.str k) entries
  | list items, .item i => items[i]?
  | _, _ => none

/-- **The value at the end of a way.** -/
def follow? (v : Value) : List Json.Step → Option Value
  | [] => some v
  | step :: rest => (v.part? step).bind fun u => u.follow? rest

end Value

namespace Declaration

/-- **What is declared of a part** of data, if something is declared of the data and it is of that
kind. -/
def step? : Option Declaration → Json.Step → Option Declaration
  | some (list d), .item _ => some d
  | some (map d), .key _ => some d
  | some (object _ fields), .key k => Fields.get? k fields
  | _, _ => none

/-- **The declaration that is reached over a way.** -/
def along? (d : Option Declaration) (way : List Json.Step) : Option Declaration :=
  way.foldl step? d

/-- **The value of data** of which something may be declared. -/
def convertAt : Option Declaration → Json → Seed → Value
  | some d, v, s => d.convert v s
  | none, v, s => Value.ofJson v s

end Declaration

namespace Seed

/-- The seed of a part of data. -/
def step (s : Seed) : Json.Step → Seed
  | .key k => s.under k
  | .item i => s.item i

/-- **The seed that is reached over a way.** -/
def along (s : Seed) (way : List Json.Step) : Seed :=
  way.foldl step s

end Seed

namespace Declaration

/-- Of all items of a list the same is declared. -/
theorem step?_item (d : Option Declaration) (i j : Nat) :
    step? d (.item i) = step? d (.item j) := by
  rcases d with _ | d
  · rfl
  · cases d <;> rfl

/-! ## Kinds of data -/

/-- **The items of a list** become values where they stand. -/
theorem convertAt_arr (d : Option Declaration) (items : List Json) (s : Seed) (i : Nat) :
    convertAt d (.arr items) s =
      .list ((s.spread items).map fun e => convertAt (step? d (.item i)) e.2 e.1) := by
  have huntyped : Value.ofJson (.arr items) s =
      .list ((s.spread items).map fun e => Value.ofJson e.2 e.1) := by
    rw [Value.ofJson, Value.ofJsonItems_eq_map]
  cases d with
  | none => exact huntyped
  | some d =>
    cases d with
    | list d =>
      rw [convertAt, convert, convertItems_eq_map]
      rfl
    | _ =>
      rw [convertAt, convert]
      · exact huntyped
      all_goals (intros; contradiction)

/-- **The members of an object** become values where they stand. -/
theorem convertAt_obj (d : Option Declaration) (fields : Fields Json) (s : Seed) :
    convertAt d (.obj fields) s = .map (s.arrange
      (fields.map fun e => (.str e.1, convertAt (step? d (.key e.1)) e.2 (s.under e.1)))) := by
  have huntyped : Value.ofJson (.obj fields) s =
      .map (s.arrange (fields.map fun e => (.str e.1, Value.ofJson e.2 (s.under e.1)))) := by
    rw [Value.ofJson, Value.ofJsonFields_eq_map]
  cases d with
  | none => exact huntyped
  | some d =>
    cases d with
    | map d =>
      rw [convertAt, convert, convertValues_eq_map]
      rfl
    | object name ds =>
      have hfield : convertField ds = fun key => convertAt (Fields.get? key ds) := by
        funext key v t
        rw [convertField]
        cases Fields.get? key ds <;> rfl
      rw [convertAt, convert, convertFields_eq_map, hfield]
      rfl
    | _ =>
      rw [convertAt, convert]
      · exact huntyped
      all_goals (intros; contradiction)

theorem convertAt_double (n : Int) (s : Seed) :
    convertAt (some double) (.int n) s = .double (Value.toDouble n) := by
  rw [convertAt, convert]

/-- **Other scalars** become what they are without a declaration. -/
theorem convertAt_of_isScalar {d : Option Declaration} {v : Json} (hv : v.isScalar = true)
    (hd : d = some double → ∀ n, v ≠ .int n) (s : Seed) : convertAt d v s = Value.ofJson v s := by
  cases d with
  | none => rfl
  | some d =>
    rw [convertAt, convert.eq_def]
    split
    · exact absurd rfl (hd rfl _)
    · cases hv
    · cases hv
    · cases hv
    · rfl

end Declaration

namespace Json

/-- **What data may become**: a whole number is signed, unsigned or a double, and all else is of the
kind that it was, with as many items or with the same keys. -/
inductive MayBecome : Json → Value → Prop
  | null : MayBecome .null .null
  | bool (b : Bool) : MayBecome (.bool b) (.bool b)
  | int {n : Int} : Value.isInt n = true → MayBecome (.int n) (.int n)
  | uint {n : Int} : Value.isInt n = false → MayBecome (.int n) (.uint n.toNat)
  | whole (n : Int) : MayBecome (.int n) (.double (Value.toDouble n))
  | double (x : Float) : MayBecome (.double x) (.double x)
  | str (s : String) : MayBecome (.str s) (.str s)
  | arr {items : List Json} {values : List Value} : values.length = items.length →
      MayBecome (.arr items) (.list values)
  | obj {fields : Fields Json} {entries : List (Key × Value)} :
      (entries.map Prod.fst).Perm ((Fields.names fields).map .str) →
      MayBecome (.obj fields) (.map entries)

end Json

namespace Declaration

theorem mayBecome_convertAt (d : Option Declaration) (v : Json) (s : Seed) :
    v.MayBecome (convertAt d v s) := by
  have hscalar : v.isScalar = true → (d = some double → ∀ n, v ≠ .int n) →
      v.MayBecome (convertAt d v s) := by
    intro hv hd
    rw [convertAt_of_isScalar hv hd]
    cases v with
    | null => exact .null
    | bool b => exact .bool b
    | int n =>
      rw [Value.ofJson]
      split
      · next h => exact .int h
      · next h => exact .uint (Bool.eq_false_iff.2 h)
    | double x => exact .double x
    | str s => exact .str s
    | arr _ => cases hv
    | obj _ => cases hv
  cases v with
  | arr items =>
    rw [convertAt_arr d items s 0]
    refine .arr ?_
    rw [List.length_map, Seed.length_spread]
  | obj fields =>
    rw [convertAt_obj]
    refine .obj ((s.perm_keys_arrange _).trans (.of_eq ?_))
    rw [List.map_map, Fields.names, List.map_map]
    rfl
  | int n =>
    by_cases hd : d = some double
    · subst hd
      rw [convertAt_double]
      exact .whole n
    · exact hscalar rfl fun h => absurd h hd
  | _ => exact hscalar rfl fun _ m hm => by cases hm

end Declaration

namespace Value

/-! ## Ways -/

/-- What a scalar becomes has no parts. -/
theorem part?_of_mayBecome {v : Json} {w : Value} (h : v.MayBecome w) (hv : v.isScalar = true)
    (step : Json.Step) : w.part? step = none := by
  cases h with
  | arr _ => cases hv
  | obj _ => cases hv
  | _ => rfl

/-- **A part is converted where it stands.** -/
theorem part?_convertAt (d : Option Declaration) (v : Json) (s : Seed) (step : Json.Step) :
    (Declaration.convertAt d v s).part? step =
      (v.part? step).map fun u =>
        Declaration.convertAt (Declaration.step? d step) u (s.step step) := by
  cases v with
  | arr items =>
    cases step with
    | item i =>
      rw [Declaration.convertAt_arr d items s i, part?, List.getElem?_map, Seed.getElem?_spread,
        Option.map_map]
      rfl
    | key k =>
      rw [Declaration.convertAt_arr d items s 0]
      rfl
  | obj fields =>
    rw [Declaration.convertAt_obj]
    cases step with
    | item i => rfl
    | key k =>
      rw [part?, Seed.lookup?_arrange]
      exact lookup?_map
        (fun key u => Declaration.convertAt (Declaration.step? d (.key key)) u (s.under key)) k
        fields
  | _ => exact part?_of_mayBecome (Declaration.mayBecome_convertAt d _ s) rfl step

/-- **What stands at the end of a way is converted where it stands.** -/
theorem follow?_convertAt (way : List Json.Step) :
    ∀ (d : Option Declaration) (v : Json) (s : Seed),
      (Declaration.convertAt d v s).follow? way =
        (v.follow? way).map fun u =>
          Declaration.convertAt (Declaration.along? d way) u (s.along way) := by
  induction way with
  | nil => intro d v s; rfl
  | cons step rest ih =>
    intro d v s
    rw [follow?, part?_convertAt, Json.follow?]
    cases v.part? step with
    | none => rfl
    | some u => exact ih _ u _

/-! ## Orders -/

/-- **Values that differ in the order of entries alone**: lists item by item, maps have the same
keys and hold such values under each of them. -/
inductive Alike : Value → Value → Prop
  | same (v : Value) : Alike v v
  | list {as bs : List Value} : as.length = bs.length →
      (∀ (i : Nat) v w, as[i]? = some v → bs[i]? = some w → Alike v w) → Alike (.list as) (.list bs)
  | map {as bs : List (Key × Value)} : (as.map Prod.fst).Perm (bs.map Prod.fst) →
      (∀ key v w, lookup? key as = some v → lookup? key bs = some w → Alike v w) →
      Alike (.map as) (.map bs)

end Value

namespace Json

mutual
/-- **Whether the maps of data have one order**: no object in it has two members. -/
def hasOneOrder : Json → Bool
  | arr items => hasOneOrderItems items
  | obj fields => fields.length ≤ 1 && hasOneOrderFields fields
  | _ => true
/-- Whether the maps of items have one order. -/
def hasOneOrderItems : List Json → Bool
  | [] => true
  | v :: rest => v.hasOneOrder && hasOneOrderItems rest
/-- Whether the maps of members have one order. -/
def hasOneOrderFields : List (String × Json) → Bool
  | [] => true
  | (_, v) :: rest => v.hasOneOrder && hasOneOrderFields rest
end

theorem hasOneOrderItems_iff {items : List Json} :
    hasOneOrderItems items = true ↔ ∀ v ∈ items, v.hasOneOrder = true := by
  induction items with
  | nil => simp [hasOneOrderItems]
  | cons v rest ih => rw [hasOneOrderItems, Bool.and_eq_true, ih, List.forall_mem_cons]

theorem hasOneOrderFields_iff {fields : Fields Json} :
    hasOneOrderFields fields = true ↔ ∀ e ∈ fields, e.2.hasOneOrder = true := by
  induction fields with
  | nil => simp [hasOneOrderFields]
  | cons e rest ih => rw [hasOneOrderFields, Bool.and_eq_true, ih, List.forall_mem_cons]

/-- The parts of such data are like it. -/
theorem hasOneOrder_of_part? {v u : Json} {step : Step} (h : v.hasOneOrder = true)
    (hu : v.part? step = some u) : u.hasOneOrder = true := by
  cases v with
  | arr items =>
    cases step with
    | item i => exact hasOneOrderItems_iff.1 h u (List.mem_of_getElem? hu)
    | key k => cases hu
  | obj fields =>
    rw [hasOneOrder, Bool.and_eq_true] at h
    cases step with
    | item i => cases hu
    | key k => exact hasOneOrderFields_iff.1 h.2 (k, u) (Fields.mem_of_get? hu)
  | _ => cases hu

end Json

namespace Declaration

/-- **A scalar becomes one value.** -/
theorem convertAt_scalar {v : Json} (hv : v.isScalar = true) (d : Option Declaration)
    (s t : Seed) : convertAt d v s = convertAt d v t := by
  by_cases hd : d = some double ∧ ∃ n, v = .int n
  · obtain ⟨rfl, n, rfl⟩ := hd
    rw [convertAt_double, convertAt_double]
  · have hother : d = some double → ∀ n, v ≠ .int n := fun h n hn => hd ⟨h, n, hn⟩
    rw [convertAt_of_isScalar hv hother, convertAt_of_isScalar hv hother]
    cases v with
    | arr _ => cases hv
    | obj _ => cases hv
    | _ => rfl

/-- **What data becomes at two times differs in the order of entries alone**, by induction on the
data. -/
theorem alike_convertAt (v : Json) :
    ∀ (d : Option Declaration) (s t : Seed), (convertAt d v s).Alike (convertAt d v t) := by
  induction v using Json.induct with
  | data v ih =>
    intro d s t
    -- the parts are alike, and so is all that consists of them
    have hpart : ∀ step a b, (convertAt d v s).part? step = some a →
        (convertAt d v t).part? step = some b → a.Alike b := by
      intro step a b ha hb
      rw [Value.part?_convertAt] at ha hb
      obtain ⟨u, hu, rfl⟩ := Option.map_eq_some_iff.1 ha
      rw [hu, Option.map_some, Option.some.injEq] at hb
      rw [← hb]
      exact ih step u hu _ _ _
    have hscalar : v.isScalar = true → (convertAt d v s).Alike (convertAt d v t) := by
      intro hv
      rw [convertAt_scalar hv d s t]
      exact .same _
    cases v with
    | arr items =>
      rw [convertAt_arr d items s 0, convertAt_arr d items t 0] at hpart ⊢
      refine .list ?_ fun i => hpart (.item i)
      rw [List.length_map, List.length_map, Seed.length_spread, Seed.length_spread]
    | obj fields =>
      rw [convertAt_obj, convertAt_obj] at hpart ⊢
      have hkeys : ∀ u : Seed, ((u.arrange (fields.map fun e =>
          (Key.str e.1, convertAt (step? d (.key e.1)) e.2 (u.under e.1)))).map Prod.fst).Perm
            ((Fields.names fields).map Key.str) := by
        intro u
        refine (u.perm_keys_arrange _).trans (.of_eq ?_)
        rw [List.map_map, Fields.names, List.map_map]
        rfl
      refine .map ((hkeys s).trans (hkeys t).symm) fun key a b ha hb => ?_
      have hkey : key ∈ (Fields.names fields).map Key.str :=
        (hkeys s).mem_iff.1 (List.mem_map_of_mem (Value.mem_of_lookup? ha))
      obtain ⟨k, -, rfl⟩ := List.mem_map.1 hkey
      exact hpart (.key k) a b ha hb
    | _ => exact hscalar rfl

/-- **Data with one order becomes one value**, by induction on the data. -/
theorem convertAt_of_hasOneOrder {v : Json} (hv : v.hasOneOrder = true)
    (d : Option Declaration) (s t : Seed) : convertAt d v s = convertAt d v t := by
  induction v using Json.induct generalizing d s t with
  | data v ih =>
    cases v with
    | arr items =>
      rw [convertAt_arr d items s 0, convertAt_arr d items t 0]
      refine congrArg Value.list (List.ext_getElem? fun i => ?_)
      rw [List.getElem?_map, List.getElem?_map, Seed.getElem?_spread, Seed.getElem?_spread]
      cases hi : items[i]? with
      | none => rfl
      | some u =>
        have hu : (Json.arr items).part? (.item i) = some u := hi
        exact congrArg some (ih _ u hu (Json.hasOneOrder_of_part? hv hu) _ _ _)
    | obj fields =>
      have hpart : ∀ {step u}, (Json.obj fields).part? step = some u → u.hasOneOrder = true :=
        Json.hasOneOrder_of_part? hv
      rw [Json.hasOneOrder, Bool.and_eq_true, decide_eq_true_eq] at hv
      rw [convertAt_obj, convertAt_obj]
      match fields with
      | [] => rfl
      | [e] =>
        have hu : (Json.obj [e]).part? (.key e.1) = some e.2 := Fields.get?_cons_self ..
        rw [List.map_singleton, List.map_singleton, ih _ e.2 hu (hpart hu) _ _ (t.under e.1)]
        rfl
      | _ :: _ :: _ => simp at hv
    | _ => exact convertAt_scalar rfl d s t

/-! ## Data and declarations -/

theorem along?_none (way : List Json.Step) : along? none way = none := by
  induction way with
  | nil => rfl
  | cons step rest ih => exact ih

/-- **A declaration makes a difference only to whole numbers** that stand where doubles are
declared. -/
theorem convertAt_eq_ofJson_iff {v : Json} (hv : v.Canonical) (d : Option Declaration) (s : Seed) :
    convertAt d v s = Value.ofJson v s ↔
      ∀ way n, along? d way = some double → v.follow? way ≠ some (.int n) := by
  constructor
  · intro heq way n hd hn
    have hway := congrArg (fun w : Value => w.follow? way) heq
    have huntyped : (Value.ofJson v s).follow? way =
        (v.follow? way).map fun u => convertAt none u (s.along way) := by
      rw [← along?_none way]
      exact Value.follow?_convertAt way none v s
    rw [Value.follow?_convertAt, huntyped, hd, hn, Option.map_some, Option.map_some,
      convertAt_double] at hway
    -- without a declaration no whole number becomes a double
    have hint : Value.double (Value.toDouble n) = Value.ofJson (.int n) (s.along way) :=
      Option.some.inj hway
    rw [Value.ofJson] at hint
    split at hint <;> cases hint
  · induction v using Json.induct generalizing d s with
    | data v ih =>
      intro hnone
      have hpart : ∀ {step : Json.Step} {u : Json}, v.part? step = some u →
          ∀ t, convertAt (step? d step) u t = Value.ofJson u t := by
        intro step u hu t
        have hfollow : ∀ way, v.follow? (step :: way) = u.follow? way := by
          intro way
          rw [Json.follow?, hu]
          rfl
        refine ih step u hu (hv.of_follow? (hfollow [])) _ _ fun way n hd => ?_
        rw [← hfollow]
        exact hnone (step :: way) n hd
      cases v with
      | arr items =>
        rw [convertAt_arr d items s 0, Value.ofJson, Value.ofJsonItems_eq_map]
        refine congrArg Value.list (List.map_congr_left fun e he => ?_)
        obtain ⟨i, hi⟩ := List.getElem?_of_mem (Seed.mem_of_mem_spread he)
        have hpart' : (Json.arr items).part? (.item i) = some e.2 := hi
        rw [step?_item d 0 i, hpart hpart']
      | obj fields =>
        rw [convertAt_obj, Value.ofJson, Value.ofJsonFields_eq_map]
        refine congrArg (fun entries => Value.map (s.arrange entries))
          (List.map_congr_left fun e he => ?_)
        have hpart' : (Json.obj fields).part? (.key e.1) = some e.2 := hv.1.get?_eq_some_iff.2 he
        rw [hpart hpart']
      | int n =>
        refine convertAt_of_isScalar rfl (fun hd m hm => ?_) s
        exact hnone [] m hd (congrArg some hm)
      | _ => exact convertAt_of_isScalar rfl (fun _ m hm => by cases hm) s

end Declaration

/-- **A conversion commutes with lookup.** What stands at the end of a way into the data is
converted at the declaration that is reached over the way, and by its kind alone if there is none.
So every part of the data becomes one of its kind, with as many items or with the same keys, and
null stays null; scalars become what they are without a declaration, but for whole numbers that
stand where doubles are declared, and without such numbers the declaration makes no difference at
all. The orders of the maps are the only thing in which two conversions of the data differ. -/
theorem conversion_commutes_with_lookup (d : Declaration) (v : Json) (s : Seed) :
    (∀ way, (d.convert v s).follow? way = (v.follow? way).map fun u =>
      Declaration.convertAt (Declaration.along? (some d) way) u (s.along way)) ∧
    (∀ way u, v.follow? way = some u →
      ∃ w, (d.convert v s).follow? way = some w ∧ u.MayBecome w) ∧
    (∀ way u, v.follow? way = some u → u.isScalar = true → (d.convert v s).follow? way =
      match Declaration.along? (some d) way, u with
      | some .double, .int n => some (.double (Value.toDouble n))
      | _, _ => (Value.ofJson v s).follow? way) ∧
    (v.Canonical → (d.convert v s = Value.ofJson v s ↔ ∀ way n,
      Declaration.along? (some d) way = some .double → v.follow? way ≠ some (.int n))) ∧
    (∀ t, (d.convert v s).Alike (d.convert v t)) := by
  have hfollow : ∀ way, (d.convert v s).follow? way = (v.follow? way).map fun u =>
      Declaration.convertAt (Declaration.along? (some d) way) u (s.along way) :=
    fun way => Value.follow?_convertAt way (some d) v s
  refine ⟨hfollow, fun way u hu => ?_, fun way u hu hscalar => ?_,
    fun hv => Declaration.convertAt_eq_ofJson_iff hv (some d) s,
    Declaration.alike_convertAt v (some d) s⟩
  · rw [hfollow, hu]
    exact ⟨_, rfl, Declaration.mayBecome_convertAt _ u _⟩
  · have huntyped := Value.follow?_convertAt way none v s
    rw [Declaration.along?_none, hu] at huntyped
    rw [hfollow, hu]
    split
    · next hd => rw [hd, Option.map_some, Declaration.convertAt_double]
    · next hother =>
      refine Eq.trans (congrArg some ?_) huntyped.symm
      exact Declaration.convertAt_of_isScalar hscalar (fun hd n hn => hother n hd hn) _

/-- A ratio and a map of sizes. -/
def measured : Declaration :=
  .object "self" [("ratio", .double), ("sizes", .map .double)]

/-- Data with a list of sizes and with a note of which nothing is declared. -/
def measures : Json :=
  .obj [("note", .int 0xffff_ffff_ffff_ffff), ("ratio", .int 1), ("sizes", .arr [.int 2])]

/-- Only the ratio becomes a double. -/
theorem measures_become_one_double :
    measures.Canonical ∧
    (measured.convert measures .standard).follow? [.key "ratio"] =
      some (.double (Value.toDouble 1)) ∧
    (measured.convert measures .standard).follow? [.key "sizes", .item 0] = some (.int 2) ∧
    (measured.convert measures .standard).follow? [.key "note"] =
      some (.uint 0xffff_ffff_ffff_ffff) ∧
    measured.convert measures .standard ≠ Value.ofJson measures .standard := by
  have hcanonical : measures.Canonical := by decide +kernel
  obtain ⟨hfollow, -, -, hsame, -⟩ := conversion_commutes_with_lookup measured measures .standard
  refine ⟨hcanonical, ?_, ?_, ?_, fun heq => ?_⟩
  · rw [hfollow]; rfl
  · rw [hfollow]; rfl
  · rw [hfollow]; rfl
  · exact (hsame hcanonical).1 heq [.key "ratio"] 1 rfl rfl

end SchemaRules
