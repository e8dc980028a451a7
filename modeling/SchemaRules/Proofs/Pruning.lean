import SchemaRules.RuleTree

/-!
# Pruning changes no report

A tree of rules leaves out the nodes below which no rule is compiled. `Schema.report` walks
an instance along the schema itself, with nothing left out: at every node it evaluates what
the compilation of that node gives, and it goes on in every member and item.

* `walk_of_isInert`: a tree without compiled rules has nothing to say about any instance.
* `member?_ofSchema`: the tree goes on in a member where the schema does, unless that part
  is without compiled rules.
* `validate_eq_report`: **the validator reports what the walk along the schema reports**,
  fault for fault and in the same order.
-/

namespace SchemaRules

namespace Schema

/-- The schema of a member: that of the property of its name, or else that of additional ones. With
it comes the part of a seed by which it is compiled. -/
def member? (s : Schema) (key : String) (c : Seed) : Option (Seed × Schema) :=
  match s.property? key with
  | some child => some ((c.item 1).under key, child)
  | none => s.mapValues?.map fun child => (c.item 3, child)

mutual
/-- **What the rules of a schema have to say about an instance**, every node being visited. The
nodes are compiled by the parts of `c`. -/
def report (config : Config) (s : Schema) (c : Seed) (path : String) :
    Json → Seed → List ValidationError
  | .null, _ => []
  | .arr items, t =>
    evaluateAll (Compilation.ofSchema s config (c.item 0)).slots path (.arr items) t.here ++
      match s.items with
      | some child => reportItems config child (c.item 2) path 0 items t.next
      | none => []
  | .obj fields, t =>
    evaluateAll (Compilation.ofSchema s config (c.item 0)).slots path (.obj fields) t.here ++
      reportFields config s c path fields t.next
  | v, t => evaluateAll (Compilation.ofSchema s config (c.item 0)).slots path v t.here
/-- What the rules of items have to say, from the item with a number on. -/
def reportItems (config : Config) (s : Schema) (c : Seed) (path : String) :
    Nat → List Json → Seed → List ValidationError
  | _, [], _ => []
  | i, v :: rest, t =>
    report config s c (itemPath path i) v t.here ++
      reportItems config s c path (i + 1) rest t.next
/-- What the rules of members have to say, in the order of the keys. -/
def reportFields (config : Config) (s : Schema) (c : Seed) (path : String) :
    List (String × Json) → Seed → List ValidationError
  | [], _ => []
  | (key, v) :: rest, t =>
    (match s.member? key c with
      | some child => report config child.2 child.1 (joinPath path key) v (t.under key)
      | none => []) ++ reportFields config s c path rest t
end

/-- Without a configured key there are no rules to read. -/
theorem rules_of_not_hasRules {s : Schema} {keys : List String} (h : s.hasRules keys = false) :
    s.rules keys = .ok [] := by
  induction keys with
  | nil => rfl
  | cons key keys ih =>
    simp only [hasRules, List.any_cons, Bool.or_eq_false_iff] at h
    have hkey : s.rulesUnder key = .ok [] := by
      have hnone : Fields.get? key s.extensions = none := by
        simpa [Fields.has] using h.1
      simp only [rulesUnder, hnone]
    simp only [rules, hkey, ih h.2]
    rfl

end Schema

namespace RuleTree

variable {config : Config}

/-! ## Trees without compiled rules -/

theorem evaluateAll_of_all_none {slots : List (Option CompiledRule)}
    (h : slots.all Option.isNone = true) (path : String) (v : Json) (t : Seed) :
    evaluateAll slots path v t = [] := by
  refine List.filterMap_eq_nil_iff.2 fun slot hslot => ?_
  have := List.all_eq_true.1 h slot.2 (Seed.mem_of_mem_spread hslot)
  rw [Option.isNone_iff_eq_none.1 this]; rfl

theorem isInert_iff (t : RuleTree) : t.isInert = true ↔
    t.slots.all Option.isNone = true ∧ isInertFields t.properties = true ∧
      isInertOption t.items = true ∧ isInertOption t.values = true := by
  cases t
  simp only [isInert, Bool.and_eq_true, and_assoc]

theorem isInertFields_iff {ts : List (String × RuleTree)} :
    isInertFields ts = true ↔ ∀ e ∈ ts, e.2.isInert = true := by
  induction ts with
  | nil => simp [isInertFields]
  | cons e rest ih => simp only [isInertFields, Bool.and_eq_true, ih, List.forall_mem_cons]

/-- The parts of a tree without compiled rules are without them too. -/
theorem isInert_of_member? {t child : RuleTree} {key : String} (h : t.isInert = true)
    (hc : t.member? key = some child) : child.isInert = true := by
  obtain ⟨-, hp, -, hv⟩ := (isInert_iff t).1 h
  simp only [member?] at hc
  split at hc
  · exact isInertFields_iff.1 hp _ (Fields.mem_of_get? hc)
  · rw [hc] at hv; exact hv

mutual
/-- **A tree without compiled rules has nothing to say.** -/
theorem walk_of_isInert {t : RuleTree} (h : t.isInert = true) (path : String) :
    ∀ v s, t.walk path v s = []
  | .null, _ => rfl
  | .bool _, _ | .int _, _ | .double _, _ | .str _, _ =>
    evaluateAll_of_all_none ((isInert_iff t).1 h).1 path _ _
  | .arr items, s => by
    obtain ⟨hs, -, hi, -⟩ := (isInert_iff t).1 h
    rw [walk, evaluateAll_of_all_none hs, List.nil_append]
    cases hti : t.items with
    | none => rfl
    | some child =>
      rw [hti] at hi
      exact walkItems_of_isInert hi path 0 items s.next
  | .obj fields, s => by
    rw [walk, evaluateAll_of_all_none ((isInert_iff t).1 h).1, List.nil_append]
    exact walkFields_of_isInert h path fields s.next
theorem walkItems_of_isInert {t : RuleTree} (h : t.isInert = true) (path : String) :
    ∀ i items s, t.walkItems path i items s = []
  | _, [], _ => rfl
  | i, v :: rest, s => by
    rw [walkItems, walk_of_isInert h (itemPath path i) v s.here,
      walkItems_of_isInert h path (i + 1) rest s.next]
    rfl
theorem walkFields_of_isInert {t : RuleTree} (h : t.isInert = true) (path : String) :
    ∀ fields s, t.walkFields path fields s = []
  | [], _ => rfl
  | (key, v) :: rest, s => by
    rw [walkFields, walkFields_of_isInert h path rest s, List.append_nil]
    cases hm : t.member? key with
    | none => rfl
    | some child =>
      exact walk_of_isInert (isInert_of_member? h hm) (joinPath path key) v (s.under key)
end

/-- **Leaving a part out changes nothing.** -/
theorem walk_keep (t : RuleTree) (path : String) (v : Json) (s : Seed) :
    (match t.keep with
      | some child => child.walk path v s
      | none => []) = t.walk path v s := by
  unfold keep
  cases h : t.isInert with
  | true => exact (walk_of_isInert h path v s).symm
  | false => rfl

theorem walkItems_keep (t : RuleTree) (path : String) (i : Nat) (items : List Json) (s : Seed) :
    (match t.keep with
      | some child => child.walkItems path i items s
      | none => []) = t.walkItems path i items s := by
  unfold keep
  cases h : t.isInert with
  | true => exact (walkItems_of_isInert h path i items s).symm
  | false => rfl

/-! ## The tree of a schema -/

/-- **A node without a configured key** has no slots, whether it is compiled or not. -/
theorem slots_nodeRules (config : Config) (s : Schema) (c : Seed) :
    (nodeRules config s c).slots = (Compilation.ofSchema s config c).slots := by
  unfold nodeRules
  cases h : s.hasRules config.ruleExtensions with
  | true => rfl
  | false =>
    -- the list of no rules is compiled to no slots, whether or not there is a declaration
    simp only [Compilation.ofSchema, Schema.rules_of_not_hasRules h]
    cases s.declare config.scopeVariable with
    | error e => rfl
    | ok d =>
      simp only [Compilation.ofRules]
      cases Environment.build d config.scopeVariable <;> rfl

theorem slots_ofSchema (config : Config) (place : String) (s : Schema) (c : Seed) :
    (ofSchema config place s c).1.slots = (nodeRules config s (c.item 0)).slots := by
  cases s; rfl

/-- Of the properties, those without compiled rules are left out. -/
theorem get?_ofProperties (config : Config) {properties : List (String × Schema)}
    (h : Fields.Ordered properties) (place key : String) (c : Seed) :
    Fields.get? key (ofProperties config place properties c).1 =
      (Fields.get? key properties).bind fun s =>
        (ofSchema config (joinPath place key) s (c.under key)).1.keep := by
  induction properties with
  | nil => rfl
  | cons e rest ih =>
    obtain ⟨name, s⟩ := e
    have ih := ih h.tail
    simp only [ofProperties, keepField]
    by_cases hn : name = key
    · -- left out, a property uncovers no other one: its name does not come again
      subst hn
      rw [Fields.get?_cons_self, Option.bind_some]
      rw [h.get?_tail, Option.bind_none] at ih
      cases hi : (ofSchema config (joinPath place name) s (c.under name)).1.isInert with
      | true => simpa [keep, hi] using ih
      | false => simp [keep, hi]
    · rw [Fields.get?_cons_of_ne hn, ← ih]
      split
      · rfl
      · exact Fields.get?_cons_of_ne hn _ _

/-- **The tree goes on where the schema does**, except into parts without compiled rules. -/
theorem member?_ofSchema (config : Config) {s : Schema} (hs : s.Canonical) (place key : String)
    (c : Seed) : ∃ place', (ofSchema config place s c).1.member? key =
      (s.member? key c).bind fun child => (ofSchema config place' child.2 child.1).1.keep := by
  obtain ⟨_, _, _, properties, items, additional, _, _, _⟩ := s
  have hget := get?_ofProperties config hs.1 place key (c.item 1)
  simp only [member?, Schema.member?, Schema.property?, ofSchema, List.contains_iff_mem]
  cases hp : Fields.get? key properties with
  | some child =>
    refine ⟨joinPath place key, ?_⟩
    rw [if_pos (Fields.mem_names_of_get? hp), hget, hp]
    rfl
  | none =>
    -- only a name that is no property goes on with the additional ones
    refine ⟨joinPath place "*", ?_⟩
    rw [if_neg (Fields.get?_eq_none_iff.1 hp)]
    match additional with
    | none | some (.inl _) | some (.inr _) => rfl

theorem items_ofSchema (config : Config) (place : String) (s : Schema) (c : Seed) :
    (ofSchema config place s c).1.items =
      s.items.bind fun child => (ofSchema config s!"{place}[*]" child (c.item 2)).1.keep := by
  obtain ⟨_, _, _, _, items, _, _, _, _⟩ := s
  cases items <;> rfl

theorem canonical_items {s child : Schema} (hs : s.Canonical) (h : s.items = some child) :
    child.Canonical := by
  obtain ⟨_, _, _, _, items, _, _, _, _⟩ := s
  obtain ⟨-, -, -, hi, -⟩ := hs
  simp only at h
  rw [h] at hi; exact hi

theorem canonicalProperties_iff {properties : List (String × Schema)} :
    Schema.CanonicalProperties properties ↔ ∀ e ∈ properties, e.2.Canonical := by
  induction properties with
  | nil => simp [Schema.CanonicalProperties]
  | cons e rest ih => simp only [Schema.CanonicalProperties, ih, List.forall_mem_cons]

theorem canonical_member? {s : Schema} {child : Seed × Schema} {key : String} {c : Seed}
    (hs : s.Canonical) (h : s.member? key c = some child) : child.2.Canonical := by
  obtain ⟨_, _, _, properties, _, additional, _, _, _⟩ := s
  obtain ⟨-, -, hp, -, ha⟩ := hs
  simp only [Schema.member?, Schema.property?] at h
  split at h
  · next hg =>
    cases h
    exact canonicalProperties_iff.1 hp _ (Fields.mem_of_get? hg)
  · match additional, ha, h with
    | some (.inr values), ha, h => cases h; exact ha

/-! ## The two walks -/

mutual
/-- **Both walks say the same** at every node, whatever place the node is compiled for. -/
theorem walk_ofSchema {s : Schema} (hs : s.Canonical) (c : Seed) (place path : String) :
    ∀ v t, (ofSchema config place s c).1.walk path v t = s.report config c path v t
  | .null, _ => rfl
  | .bool _, t | .int _, t | .double _, t | .str _, t => by
    simp only [walk, Schema.report]
    rw [slots_ofSchema, slots_nodeRules]
  | .arr items, t => by
    rw [walk, Schema.report, slots_ofSchema, slots_nodeRules, items_ofSchema]
    congr 1
    cases hi : s.items with
    | none => rfl
    | some child =>
      exact (walkItems_keep _ path 0 items t.next).trans
        (walkItems_ofSchema (canonical_items hs hi) (c.item 2) _ path 0 items t.next)
  | .obj fields, t => by
    rw [walk, Schema.report, slots_ofSchema, slots_nodeRules]
    congr 1
    exact walkFields_ofSchema hs c place path fields t.next
theorem walkItems_ofSchema {s : Schema} (hs : s.Canonical) (c : Seed) (place path : String) :
    ∀ i items t, (ofSchema config place s c).1.walkItems path i items t =
      s.reportItems config c path i items t
  | _, [], _ => rfl
  | i, v :: rest, t => by
    rw [walkItems, Schema.reportItems, walk_ofSchema hs c place (itemPath path i) v t.here,
      walkItems_ofSchema hs c place path (i + 1) rest t.next]
theorem walkFields_ofSchema {s : Schema} (hs : s.Canonical) (c : Seed) (place path : String) :
    ∀ fields t, (ofSchema config place s c).1.walkFields path fields t =
      s.reportFields config c path fields t
  | [], _ => rfl
  | (key, v) :: rest, t => by
    rw [walkFields, Schema.reportFields, walkFields_ofSchema hs c place path rest t]
    congr 1
    obtain ⟨place', hm⟩ := member?_ofSchema config hs place key c
    rw [hm]
    cases hc : s.member? key c with
    | none => rfl
    | some child =>
      exact (walk_keep _ (joinPath path key) v (t.under key)).trans
        (walk_ofSchema (canonical_member? hs hc) child.1 place' (joinPath path key) v (t.under key))
end

end RuleTree

/-- **The validator reports what the walk along the whole schema reports**, in the same order,
whatever the orders in which maps stand when the rules are compiled and when they are evaluated. -/
theorem validate_eq_report {s : Schema} (hs : s.Canonical) (config : Config) (v : Json)
    (c t : Seed) : (Validator.ofSchema s config c).validate v t = s.report config c "" v t :=
  RuleTree.walk_ofSchema hs c "" "" v t

/-- A property that is left out of the tree, beside rules for additional properties. -/
theorem validate_eq_report_of_pruned_property :
    ∃ s : Schema, s.Canonical ∧
      s.property? "name" = some { Schema.empty with types := ["string"] } ∧
      (Validator.ofSchema s .standard .standard).validate
          (.obj [("flag", .bool false), ("name", .str "x")]) .standard =
        s.report .standard .standard "" (.obj [("flag", .bool false), ("name", .str "x")])
          .standard := by
  let flags : Schema := { Schema.empty with
    types := ["boolean"]
    extensions := [("x-kubernetes-validations", .arr [.obj [("rule", .str "self == true")]])] }
  let s : Schema := { Schema.empty with
    types := ["object"]
    properties := [("name", { Schema.empty with types := ["string"] })]
    additional := some (.inr flags) }
  have hs : s.Canonical := by
    simp [s, flags, Schema.empty, Schema.Canonical, Schema.CanonicalProperties,
      Schema.CanonicalItems, Schema.CanonicalAdditional, Fields.Ordered]
  exact ⟨s, hs, rfl, validate_eq_report hs .standard _ _ _⟩

end SchemaRules
