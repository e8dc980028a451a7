import SchemaRules.Proofs.Checks
import SchemaRules.Structure.References

/-!
# References and the places they name

A reference names a place of the document, and the document may be another one as long as the place
is there.

* `mem_targets_iff`: **the references of a node** are those of the demands of its keywords.
* `demand?_congr`: what a keyword demands depends on a few others.
* `Json.Covers`: **a document has all places of another one**; `covers_of_step` goes one step, and
  `Covers.isSome_at?` says so of references.
-/

namespace SchemaRules

/-! ## References of a node -/

theorem mem_demandsTargets_iff {target : String} {demands : List (String × Demand)} :
    target ∈ demandsTargets demands ↔ ∃ e ∈ demands, target ∈ e.2.targets := by
  induction demands with
  | nil => simp [demandsTargets]
  | cons e rest ih =>
    rw [demandsTargets, List.mem_append, ih, List.exists_mem_cons_iff]

theorem mem_namedTargets_iff {target : String} {checks : List (String × Check)} :
    target ∈ namedTargets checks ↔ ∃ e ∈ checks, target ∈ e.2.targets := by
  induction checks with
  | nil => simp [namedTargets]
  | cons e rest ih =>
    rw [namedTargets, List.mem_append, ih, List.exists_mem_cons_iff]

/-- **The references of a node** are those of the demands of its keywords. -/
theorem mem_targets_iff {fields : Fields Json} (h : Fields.Ordered fields) {target : String} :
    target ∈ (Check.ofJson (.obj fields)).targets ↔
      ∃ key part d, Fields.get? key fields = some part ∧
        (operandsOf fields).demand? key (operandOf key part) = some d ∧ target ∈ d.targets := by
  rw [Check.ofJson, Check.targets, mem_demandsTargets_iff]
  constructor
  · rintro ⟨⟨key, d⟩, he, ht⟩
    obtain ⟨part, hpart, hd⟩ := (mem_demands_iff h).1 he
    exact ⟨key, part, d, hpart, hd, ht⟩
  · rintro ⟨key, part, d, hpart, hd, ht⟩
    exact ⟨(key, d), (mem_demands_iff h).2 ⟨part, hpart, hd⟩, ht⟩

/-- The keywords that the demands of others look at. -/
def Operands.consulted : List String :=
  ["prefixItems", "minContains", "maxContains", "then", "else", "patternProperties"]

theorem Operands.patterns_congr {ops ops' : Operands}
    (hlookup : ∀ key ∈ consulted, ops.lookup key = ops'.lookup key) :
    ops.patterns = ops'.patterns := by
  rw [patterns, patterns, named?, named?, hlookup _ (by decide)]

/-- **What a keyword demands depends on a few others**: on those that are looked at, and on whether
additional properties close the members, which need their own properties, too. -/
theorem Operands.demand?_congr {ops ops' : Operands}
    (hlookup : ∀ key ∈ consulted, ops.lookup key = ops'.lookup key)
    (hcloses : ops.closesMembers = ops'.closesMembers) {key : String}
    (hkey : key ≠ "additionalProperties") (o : Operand) :
    ops.demand? key o = ops'.demand? key o := by
  cases o with
  | value v => rfl
  | checks cs => rfl
  | check v c =>
    rw [demand?, demand?]
    unfold ofCheck?
    split
    · exact absurd rfl hkey
    · rfl
    · rw [length, length, hlookup _ (by decide)]
    · rw [count?, count?, count?, count?, hlookup _ (by decide), hlookup "maxContains" (by decide)]
    · rfl
    · rw [check?, check?, check?, check?, hlookup _ (by decide), hlookup "else" (by decide)]
    · rfl
  | named fields =>
    rw [demand?, demand?]
    unfold ofNamed?
    rw [hcloses, patterns_congr hlookup]

namespace Operands

variable (ops : Operands)

theorem demand?_properties (members : Fields Json) :
    ops.demand? "properties" (operandOf "properties" (.obj members)) =
      if ops.closesMembers then none else some (.members (namedChecksOf members)) := rfl

theorem demand?_items (v : Json) : ops.demand? "items" (operandOf "items" v) =
    some (.items (ops.length "prefixItems") (Check.ofJson v)) := rfl

theorem demand?_additional (v : Json) :
    ops.demand? "additionalProperties" (operandOf "additionalProperties" v) =
      if ops.closesMembers then
        some (.others (ops.named? "properties") ops.patterns (Check.ofJson v))
      else none := rfl

end Operands

theorem named?_properties_eq_some_iff {entries : Fields Json} {checks : List (String × Check)} :
    (operandsOf entries).named? "properties" = some checks ↔
      ∃ members, Fields.get? "properties" entries = some (.obj members) ∧
        checks = namedChecksOf members := by
  rw [Operands.named?, lookup_operandsOf]
  cases Fields.get? "properties" entries with
  | none => simp
  | some v =>
    cases v with
    | obj members =>
      have hoperand : operandOf "properties" (.obj members) = .named (namedChecksOf members) := rfl
      simp [hoperand, eq_comm]
    | _ =>
      refine iff_of_false (fun h => ?_) ?_
      · cases h
      · rintro ⟨members, h, -⟩
        cases h

/-- The demand on the other members refers to what the listed ones do, too. -/
theorem mem_targets_others_iff {target : String} {known : Option (List (String × Check))}
    {patterns : List (String × Pattern × Check)} {rest : Check} :
    target ∈ (Demand.others known patterns rest).targets ↔
      (∃ checks, known = some checks ∧ target ∈ namedTargets checks) ∨
        target ∈ patternTargets patterns ∨ target ∈ rest.targets := by
  rw [Demand.targets.eq_def]
  cases known <;> simp

/-! ## Places of a document -/

namespace Json

/-- **A document has all places of another one.** -/
def Covers (a b : Json) : Prop :=
  ∀ names : List String, (names.foldlM step? a).isSome = true →
    (names.foldlM step? b).isSome = true

theorem Covers.refl (v : Json) : v.Covers v :=
  fun _ h => h

/-- One step leads to a place that has all places of another one. -/
theorem covers_of_step {a b : Json}
    (h : ∀ name u, a.step? name = some u → ∃ w, b.step? name = some w ∧ u.Covers w) :
    a.Covers b := by
  intro names
  cases names with
  | nil => exact fun _ => rfl
  | cons name rest =>
    intro ha
    rw [List.foldlM_cons] at ha ⊢
    cases hu : a.step? name with
    | none => rw [hu] at ha; cases ha
    | some u =>
      obtain ⟨w, hw, hcovers⟩ := h name u hu
      rw [hu] at ha
      rw [hw]
      exact hcovers rest ha

/-- A reference is followed step by step, or names nothing in any document. -/
theorem exists_at?_eq (target : String) : ∃ names? : Option (List String), ∀ root : Json,
    root.at? target = names?.bind fun names => names.foldlM step? root := by
  unfold at?
  split
  · exact ⟨some [], fun _ => rfl⟩
  · next pointer _ =>
    exact ⟨some ((Text.cut ['/'] pointer).map fun step => String.ofList (pointerName step)),
      fun _ => List.foldlM_map.symm⟩
  · exact ⟨none, fun _ => rfl⟩

/-- **What a reference names** in a document is also there in one that has all its places. -/
theorem Covers.isSome_at? {a b : Json} (h : a.Covers b) {target : String}
    (ha : (a.at? target).isSome = true) : (b.at? target).isSome = true := by
  obtain ⟨names?, hnames⟩ := exists_at?_eq target
  rw [hnames] at ha ⊢
  cases names? with
  | none => cases ha
  | some names => exact h names ha

end Json

end SchemaRules
