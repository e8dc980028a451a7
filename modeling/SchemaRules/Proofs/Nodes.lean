import Mathlib.Algebra.Ring.Nat
import SchemaRules.Proofs.Independence
import SchemaRules.Proofs.Pruning
import SchemaRules.Proofs.Ways

/-!
# The nodes of a schema

The validator of a schema is made of what the compilation of its nodes gives. Parts without
compiled rules are left out of the tree of rules, but nothing that counts is lost with them.

* `Schema.nodes`: **the nodes of a schema** in pre-order, each with the way to it
  (`pairwise_nodes`), which says by what seed it is compiled (`Schema.seedOf`).
* `errors_ofSchema`: the compile errors are those of the nodes, in their order.
* `count_of_isInert`, `count_ofSchema`: a part that is left out has no compiled rule.
* `compiled_add_length_errors`: a rule is compiled or at fault.
* `nothing_is_lost`: what this says of a validator.
-/

namespace SchemaRules

namespace Schema

/-! ## Nodes -/

/-- **A step from a node to one below it.** -/
inductive Step where
  | property (name : String)
  | items
  | values

namespace Step

/-- What a step adds to the path of a node. -/
def piece : Step → Piece
  | property name => .name name
  | items => .index "*"
  | values => .name "*"

/-- The part of a seed by which what a step leads to is compiled. -/
def seed (s : Seed) : Step → Seed
  | property name => (s.item 1).under name
  | items => s.item 2
  | values => s.item 3

/-- Properties come in the order of their names, then the items, then the values of a map. -/
def Before : Step → Step → Prop
  | property a, property b => a < b
  | property _, items | property _, values => True
  | items, values => True
  | _, _ => False

theorem not_before_self (a : Step) : ¬ a.Before a := by
  cases a with
  | property name => exact String.lt_irrefl name
  | items => exact id
  | values => exact id

end Step

mutual
/-- **The nodes of a schema**: the node itself, those of the properties, of the items and of the
values of a map. -/
def nodes (s : Schema) : List (Located Step Schema) :=
  match s with
  | ⟨_, _, _, properties, items, additional, _, _, _⟩ =>
    ⟨[], s⟩ :: (propertyNodes properties ++ itemNodes items ++ valueNodes additional)
/-- The nodes of properties. -/
def propertyNodes : List (String × Schema) → List (Located Step Schema)
  | [] => []
  | (name, s) :: rest => Located.under (.property name) s.nodes ++ propertyNodes rest
/-- The nodes of items. -/
def itemNodes : Option Schema → List (Located Step Schema)
  | none => []
  | some s => Located.under .items s.nodes
/-- The nodes of the values of a map. -/
def valueNodes : Option (Bool ⊕ Schema) → List (Located Step Schema)
  | some (.inr s) => Located.under .values s.nodes
  | _ => []
end

/-- **The path of a node.** -/
def pathOf (way : List Step) : String :=
  pathFrom Step.piece "" way

/-- **The seed by which the rules of a node are compiled**, of that of the schema. -/
def seedOf (s : Seed) (way : List Step) : Seed :=
  (way.foldl Step.seed s).item 0

/-- The rules that are attached to a node; none, if they cannot be read. -/
def attached (s : Schema) (keys : List String) : List Rule :=
  match s.rules keys with
  | .ok rules => rules
  | .error _ => []

/-! ## The order of the nodes -/

open Located

theorem startsIn_propertyNodes (properties : List (String × Schema)) :
    StartsIn (fun a => ∃ name ∈ Fields.names properties, a = .property name)
      (propertyNodes properties) := by
  induction properties with
  | nil => exact startsIn_nil
  | cons e rest ih =>
    obtain ⟨name, s⟩ := e
    refine (startsIn_under ⟨name, List.mem_cons_self, rfl⟩ s.nodes).append (ih.mono ?_)
    rintro a ⟨n, hn, rfl⟩
    exact ⟨n, List.mem_cons_of_mem _ hn, rfl⟩

theorem startsIn_itemNodes (items : Option Schema) : StartsIn (· = .items) (itemNodes items) := by
  cases items with
  | none => exact startsIn_nil
  | some s => exact startsIn_under (P := (· = .items)) rfl s.nodes

theorem startsIn_valueNodes (additional : Option (Bool ⊕ Schema)) :
    StartsIn (· = .values) (valueNodes additional) := by
  match additional with
  | none | some (.inl _) => exact startsIn_nil
  | some (.inr s) => exact startsIn_under (P := (· = .values)) rfl s.nodes

mutual
/-- **The nodes stand in pre-order**, properties in the order of their names. -/
theorem pairwise_nodes : ∀ {s : Schema}, s.Canonical → s.nodes.Pairwise (Before Step.Before)
  | ⟨_, _, _, properties, items, additional, _, _, _⟩, ⟨hordered, _, hp, hi, ha⟩ => by
    have hproperties := startsIn_propertyNodes properties
    have hitems := startsIn_itemNodes items
    have hvalues := startsIn_valueNodes additional
    have hfirst : (propertyNodes properties ++ itemNodes items).Pairwise (Before Step.Before) := by
      refine pairwise_append (pairwise_propertyNodes hordered hp) (pairwise_itemNodes hi)
        hproperties hitems ?_
      rintro a b ⟨name, -, rfl⟩ rfl
      trivial
    have hboth : StartsIn (fun a => a.Before .values)
        (propertyNodes properties ++ itemNodes items) := by
      refine (hproperties.mono ?_).append (hitems.mono ?_)
      · rintro a ⟨name, -, rfl⟩
        trivial
      · rintro a rfl
        trivial
    have hall := pairwise_append hfirst (pairwise_valueNodes ha) hboth hvalues
      fun a b hab hb => hb ▸ hab
    rw [nodes]
    exact pairwise_cons_root hall
      ((hboth.mono fun _ _ => trivial).append (hvalues.mono fun _ _ => trivial))
theorem pairwise_propertyNodes : ∀ {properties : List (String × Schema)},
    Fields.Ordered properties → CanonicalProperties properties →
      (propertyNodes properties).Pairwise (Before Step.Before)
  | [], _, _ => .nil
  | (name, s) :: rest, hordered, ⟨hs, hrest⟩ => by
    refine pairwise_append (pairwise_under (pairwise_nodes hs) (.property name))
      (pairwise_propertyNodes hordered.tail hrest)
      (startsIn_under (P := (· = .property name)) rfl _) (startsIn_propertyNodes rest) ?_
    rintro a b rfl ⟨other, hother, rfl⟩
    obtain ⟨e, he, rfl⟩ := List.mem_map.1 hother
    exact (List.pairwise_cons.1 hordered).1 e he
theorem pairwise_itemNodes : ∀ {items : Option Schema}, CanonicalItems items →
    (itemNodes items).Pairwise (Before Step.Before)
  | none, _ => .nil
  | some _, hs => pairwise_under (pairwise_nodes hs) .items
theorem pairwise_valueNodes : ∀ {additional : Option (Bool ⊕ Schema)},
    CanonicalAdditional additional → (valueNodes additional).Pairwise (Before Step.Before)
  | none, _ => .nil
  | some (.inl _), _ => .nil
  | some (.inr _), hs => pairwise_under (pairwise_nodes hs) .values
end

end Schema

namespace RuleTree

variable {config : Config}

/-! ## Compile errors -/

/-- The errors of a node, with its path below a place. -/
def nodeErrors (config : Config) (place : String) (s : Seed) (n : Located Schema.Step Schema) :
    List NodeError :=
  errorsAt (pathFrom Schema.Step.piece place n.way)
    (nodeRules config n.part (Schema.seedOf s n.way)).errors

theorem onto_items (place : String) : Schema.Step.items.piece.onto place = s!"{place}[*]" := by
  refine String.toList_inj.1 ?_
  simp [Schema.Step.piece, Piece.onto, ToString.toString]

theorem flatMap_nodeErrors_under (place : String) (s : Seed) (step : Schema.Step)
    (nodes : List (Located Schema.Step Schema)) :
    (Located.under step nodes).flatMap (nodeErrors config place s) =
      nodes.flatMap (nodeErrors config (step.piece.onto place) (step.seed s)) := by
  rw [Located.under, List.flatMap_map]
  rfl

mutual
/-- **The compile errors of a tree are those of the nodes**, in their order. -/
theorem errors_ofSchema (place : String) : ∀ (schema : Schema) (s : Seed),
    (ofSchema config place schema s).2 = schema.nodes.flatMap (nodeErrors config place s)
  | ⟨_, _, _, properties, items, additional, _, _, _⟩, s => by
    rw [Schema.nodes, List.flatMap_cons, List.flatMap_append, List.flatMap_append,
      ← errors_ofProperties place properties s, ← errors_ofItems place items s,
      ← errors_ofValues place additional s, ← List.append_assoc, ← List.append_assoc]
    rfl
theorem errors_ofProperties (place : String) :
    ∀ (properties : List (String × Schema)) (s : Seed),
      (ofProperties config place properties (s.item 1)).2 =
        (Schema.propertyNodes properties).flatMap (nodeErrors config place s)
  | [], _ => rfl
  | (name, schema) :: rest, s => by
    rw [Schema.propertyNodes, List.flatMap_append, flatMap_nodeErrors_under,
      ← errors_ofProperties place rest s, ← errors_ofSchema]
    rfl
theorem errors_ofItems (place : String) : ∀ (items : Option Schema) (s : Seed),
    (ofItems config place items (s.item 2)).2 =
      (Schema.itemNodes items).flatMap (nodeErrors config place s)
  | none, _ => rfl
  | some schema, s => by
    rw [Schema.itemNodes, flatMap_nodeErrors_under, ← errors_ofSchema, onto_items]
    rfl
theorem errors_ofValues (place : String) :
    ∀ (additional : Option (Bool ⊕ Schema)) (s : Seed),
      (ofValues config place additional (s.item 3)).2 =
        (Schema.valueNodes additional).flatMap (nodeErrors config place s)
  | none, _ => rfl
  | some (.inl _), _ => rfl
  | some (.inr schema), s => by
    rw [Schema.valueNodes, flatMap_nodeErrors_under, ← errors_ofSchema]
    rfl
end

/-! ## Compiled rules -/

mutual
/-- **A tree without compiled rules counts none.** -/
theorem count_of_isInert : ∀ {t : RuleTree}, t.isInert = true → t.count = 0
  | ⟨slots, _, properties, items, values⟩, h => by
    obtain ⟨hs, hp, hi, hv⟩ := (isInert_iff _).1 h
    have hslots : (slots.filter Option.isSome).length = 0 := by
      refine List.length_eq_zero_iff.2 (List.filter_eq_nil_iff.2 fun slot hslot => ?_)
      have hnone := List.all_eq_true.1 hs slot hslot
      rw [Option.isNone_iff_eq_none.1 hnone]
      exact Bool.false_ne_true
    rw [count, hslots, countFields_of_isInert hp, countOption_of_isInert hi,
      countOption_of_isInert hv]
theorem countFields_of_isInert : ∀ {ts : List (String × RuleTree)}, isInertFields ts = true →
    countFields ts = 0
  | [], _ => rfl
  | (_, t) :: rest, h => by
    simp only [isInertFields, Bool.and_eq_true] at h
    rw [countFields, count_of_isInert h.1, countFields_of_isInert h.2]
theorem countOption_of_isInert : ∀ {t : Option RuleTree}, isInertOption t = true →
    countOption t = 0
  | none, _ => rfl
  | some _, h => count_of_isInert h
end

/-- **No compiled rule is left out.** -/
theorem countOption_keep (t : RuleTree) : countOption t.keep = t.count := by
  unfold keep
  cases h : t.isInert with
  | true => exact (count_of_isInert h).symm
  | false => rfl

theorem countFields_keepField (name : String) (t : RuleTree) (rest : List (String × RuleTree)) :
    countFields (keepField name t rest) = t.count + countFields rest := by
  unfold keepField
  cases h : t.isInert with
  | true => rw [count_of_isInert h, Nat.zero_add]; rfl
  | false => rfl

/-- **The compilation of a node**, by the part of a seed that is for it. -/
def nodeCompilation (config : Config) (s : Seed) (n : Located Schema.Step Schema) : Compilation :=
  Compilation.ofSchema n.part config (Schema.seedOf s n.way)

/-- The number of compiled rules of some nodes. -/
def compiledAt (config : Config) (s : Seed) (nodes : List (Located Schema.Step Schema)) : Nat :=
  (nodes.map fun n => (nodeCompilation config s n).compiled).sum

theorem compiledAt_cons (s : Seed) (n : Located Schema.Step Schema)
    (rest : List (Located Schema.Step Schema)) :
    compiledAt config s (n :: rest) =
      (nodeCompilation config s n).compiled + compiledAt config s rest := by
  rw [compiledAt, List.map_cons, List.sum_cons]
  rfl

theorem compiledAt_append (s : Seed) (p q : List (Located Schema.Step Schema)) :
    compiledAt config s (p ++ q) = compiledAt config s p + compiledAt config s q := by
  rw [compiledAt, List.map_append, List.sum_append]
  rfl

theorem compiledAt_under (s : Seed) (step : Schema.Step)
    (nodes : List (Located Schema.Step Schema)) :
    compiledAt config s (Located.under step nodes) = compiledAt config (step.seed s) nodes := by
  rw [compiledAt, Located.under, List.map_map]
  rfl

mutual
/-- **The compiled rules of a tree are those of all nodes**, of those that are left out as well. -/
theorem count_ofSchema (place : String) : ∀ (schema : Schema) (s : Seed),
    (ofSchema config place schema s).1.count = compiledAt config s schema.nodes
  | ⟨_, _, _, properties, items, additional, _, _, _⟩, s => by
    rw [Schema.nodes, compiledAt_cons, compiledAt_append, compiledAt_append,
      ← count_ofProperties place properties s, ← count_ofItems place items s,
      ← count_ofValues place additional s, Compilation.compiled, nodeCompilation,
      ← slots_nodeRules, ← Nat.add_assoc, ← Nat.add_assoc]
    rfl
theorem count_ofProperties (place : String) :
    ∀ (properties : List (String × Schema)) (s : Seed),
      countFields (ofProperties config place properties (s.item 1)).1 =
        compiledAt config s (Schema.propertyNodes properties)
  | [], _ => rfl
  | (name, schema) :: rest, s => by
    rw [Schema.propertyNodes, compiledAt_append, compiledAt_under,
      ← count_ofProperties place rest s, ← count_ofSchema (joinPath place name) schema,
      ← countFields_keepField name]
    rfl
theorem count_ofItems (place : String) : ∀ (items : Option Schema) (s : Seed),
    countOption (ofItems config place items (s.item 2)).1 =
      compiledAt config s (Schema.itemNodes items)
  | none, _ => rfl
  | some schema, s => by
    rw [Schema.itemNodes, compiledAt_under, ← count_ofSchema, ← countOption_keep]
    rfl
theorem count_ofValues (place : String) : ∀ (additional : Option (Bool ⊕ Schema)) (s : Seed),
    countOption (ofValues config place additional (s.item 3)).1 =
      compiledAt config s (Schema.valueNodes additional)
  | none, _ => rfl
  | some (.inl _), _ => rfl
  | some (.inr schema), s => by
    rw [Schema.valueNodes, compiledAt_under, ← count_ofSchema, ← countOption_keep]
    rfl
end

end RuleTree

/-! ## Every rule counts -/

namespace Compilation

theorem compiled_add (result : Except CompileError CompiledRule) (c : Compilation) :
    (add result c).compiled + (add result c).errors.length =
      c.compiled + c.errors.length + 1 := by
  cases result with
  | ok r => exact Nat.add_right_comm c.compiled 1 c.errors.length
  | error e => exact (Nat.add_assoc c.compiled c.errors.length 1).symm

theorem compiled_compileFrom (env : Environment) (rules : List Rule) : ∀ index s,
    (compileFrom env index rules s).compiled + (compileFrom env index rules s).errors.length =
      rules.length := by
  induction rules with
  | nil => intro index s; rfl
  | cons rule rest ih => intro index s; rw [compileFrom, compiled_add, ih, List.length_cons]

/-- **Every rule of a node is compiled or at fault**, if all errors are those of single rules. -/
theorem compiled_add_length_errors {schema : Schema} {config : Config} {s : Seed}
    (h : ∀ e ∈ (RuleTree.nodeRules config schema s).errors, e.index?.isSome = true) :
    (ofSchema schema config s).compiled + (RuleTree.nodeRules config schema s).errors.length =
      (schema.attached config.ruleExtensions).length := by
  unfold RuleTree.nodeRules at h ⊢
  cases hkey : schema.hasRules config.ruleExtensions with
  | false =>
    -- without a key there are no rules to compile
    have hslots := RuleTree.slots_nodeRules config schema s
    simp only [RuleTree.nodeRules, hkey] at hslots
    rw [compiled, ← hslots, Schema.attached, Schema.rules_of_not_hasRules hkey]
    rfl
  | true =>
    simp only [hkey, if_true] at h ⊢
    unfold ofSchema at h ⊢
    rw [Schema.attached]
    cases hrules : schema.rules config.ruleExtensions with
    | error e =>
      rw [hrules] at h
      exact absurd (h _ List.mem_cons_self) Bool.false_ne_true
    | ok rules =>
      simp only [hrules] at h ⊢
      cases hd : schema.declare config.scopeVariable with
      | error e =>
        rw [hd] at h
        exact absurd (h _ List.mem_cons_self) Bool.false_ne_true
      | ok d =>
        simp only [hd, ofRules] at h ⊢
        cases henv : Environment.build d config.scopeVariable with
        | error e =>
          rw [henv] at h
          exact absurd (h _ List.mem_cons_self) Bool.false_ne_true
        | ok env => exact compiled_compileFrom env rules 0 s

end Compilation

namespace RuleTree

variable {config : Config} {s : Seed}

/-- Nodes without a configured key have no errors. -/
theorem flatMap_nodeErrors (nodes : List (Located Schema.Step Schema)) :
    nodes.flatMap (nodeErrors config "" s) =
      (nodes.filter fun n => n.part.hasRules config.ruleExtensions).flatMap fun n =>
        errorsAt (Schema.pathOf n.way) (nodeCompilation config s n).errors := by
  induction nodes with
  | nil => rfl
  | cons n rest ih =>
    rw [List.flatMap_cons, ih, List.filter_cons, nodeErrors, nodeRules]
    cases n.part.hasRules config.ruleExtensions <;> rfl

/-- Compiled rules and errors of some nodes add up to their rules, if they do at each of them. -/
theorem compiledAt_add_length_errors {nodes : List (Located Schema.Step Schema)}
    (h : ∀ e ∈ nodes.flatMap (nodeErrors config "" s), e.error.index?.isSome = true) :
    compiledAt config s nodes + (nodes.flatMap (nodeErrors config "" s)).length =
      (nodes.map fun n => (n.part.attached config.ruleExtensions).length).sum := by
  induction nodes with
  | nil => rfl
  | cons n rest ih =>
    rw [List.flatMap_cons, List.forall_mem_append] at h
    have hown : ∀ e ∈ (nodeRules config n.part (Schema.seedOf s n.way)).errors,
        e.index?.isSome = true :=
      fun e he => h.1 _ (List.mem_map_of_mem he)
    have hnode := Compilation.compiled_add_length_errors hown
    have hrest := ih h.2
    have hlength : (nodeErrors config "" s n).length =
        (nodeRules config n.part (Schema.seedOf s n.way)).errors.length :=
      List.length_map _
    rw [compiledAt_cons, nodeCompilation, List.flatMap_cons, List.length_append, List.map_cons,
      List.sum_cons, hlength]
    omega

end RuleTree

/-- **Nothing of a tree is lost.** The compile errors are those of the nodes with a configured key,
in pre-order and with the paths of the nodes; the compiled rules are those of all nodes; and where
every error is that of a single rule, compiled rules and errors add up to the rules that are
attached. -/
theorem nothing_is_lost (schema : Schema) (config : Config) (s : Seed) :
    let v := Validator.ofSchema schema config s
    v.errors = (schema.nodes.filter fun n => n.part.hasRules config.ruleExtensions).flatMap
      (fun n => RuleTree.errorsAt (Schema.pathOf n.way)
        (RuleTree.nodeCompilation config s n).errors) ∧
    (schema.Canonical → schema.nodes.Pairwise (Located.Before Schema.Step.Before)) ∧
    v.ruleCount =
      (schema.nodes.map fun n => (RuleTree.nodeCompilation config s n).compiled).sum ∧
    ((∀ e ∈ v.errors, e.error.index?.isSome = true) →
      v.ruleCount + v.errors.length =
        (schema.nodes.map fun n => (n.part.attached config.ruleExtensions).length).sum) := by
  intro v
  have herrors : v.errors = schema.nodes.flatMap (RuleTree.nodeErrors config "" s) :=
    RuleTree.errors_ofSchema "" schema s
  have hcount : v.ruleCount = RuleTree.compiledAt config s schema.nodes :=
    RuleTree.count_ofSchema "" schema s
  refine ⟨herrors.trans (RuleTree.flatMap_nodeErrors schema.nodes), Schema.pairwise_nodes, hcount,
    fun h => ?_⟩
  rw [herrors] at h
  rw [herrors, hcount]
  exact RuleTree.compiledAt_add_length_errors h

/-- A schema of one type with rules. -/
def ruled (type : String) (texts : List String) : Schema :=
  { Schema.empty with
    types := [type]
    extensions :=
      [("x-kubernetes-validations", .arr (texts.map fun text => .obj [("rule", .str text)]))] }

theorem canonical_ruled (type : String) (texts : List String) : (ruled type texts).Canonical :=
  ⟨.nil, List.pairwise_singleton _ _, trivial, trivial, trivial⟩

/-- Rules of two properties, an empty one, which leaves nothing of its property, beside one that is
compiled and one that is rejected. -/
def volumes : Schema :=
  { Schema.empty with
    types := ["object"]
    properties :=
      [("name", ruled "string" [" "]), ("size", ruled "integer" ["self > 0", "self + 1"])] }

/-- The three rules of two properties, of one of which nothing is left. -/
theorem rules_of_volumes_are_not_lost :
    (∀ e ∈ (Validator.ofSchema volumes .standard .standard).errors,
        e.error.index?.isSome = true) ∧
      volumes.Canonical ∧
      (Validator.ofSchema volumes .standard .standard).ruleCount +
        (Validator.ofSchema volumes .standard .standard).errors.length = 3 ∧
      volumes.nodes.Pairwise (Located.Before Schema.Step.Before) := by
  have hrules : ∀ e ∈ (Validator.ofSchema volumes .standard .standard).errors,
      e.error.index?.isSome = true := by
    decide +kernel
  have hordered : Fields.Ordered volumes.properties := by decide +kernel
  have hcanonical : volumes.Canonical :=
    ⟨hordered, .nil, ⟨canonical_ruled _ _, canonical_ruled _ _, trivial⟩, trivial, trivial⟩
  obtain ⟨-, hnodes, -, htotal⟩ := nothing_is_lost volumes .standard .standard
  exact ⟨hrules, hcanonical, (htotal hrules).trans (by decide +kernel), hnodes hcanonical⟩

end SchemaRules
