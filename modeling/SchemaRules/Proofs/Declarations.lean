import SchemaRules.Proofs.RoundTrip

/-!
# What a declaration reaches

A declaration goes from a node on to the parts of its shape, and to nothing else: the properties of
an object, the values of a map, the items of an array.

* `Schema.reach?`: **the node that a declaration reaches** over a way, and `Declaration.reach?` the
  declaration there.
* `Shape.Declared`: **what is declared of a shape**.
* `Schema.declare_step`: **one step of a declaration**: all parts are declared, or the first one
  that is not is told.
* `Schema.told_declare`: the same of all nodes, by induction on the schema.
* `Schema.declare_congr`: nothing but the shapes of the nodes that are reached matters.
* `first_node_without_shape_is_told`: all of a declaration.
-/

namespace SchemaRules

/-! ## Nodes that are reached -/

/-- The part of a shape at a step. -/
def Shape.part? : Shape → Schema.Step → Option Schema
  | object properties, .property name => Fields.get? name properties
  | map values, .values => some values
  | array items, .items => some items
  | _, _ => none

/-- **The shape without its parts**: of an object the names are left. -/
def Shape.kind : Shape → Shape
  | object properties => object (properties.map fun e => (e.1, .empty))
  | map _ => map .empty
  | array _ => array .empty
  | string _ => string false
  | integer => integer
  | number => number
  | boolean => boolean

namespace Schema

/-- What a step adds to the name of a node. -/
def Step.label : Step → String
  | property name => name
  | items => "@items"
  | values => "@value"

theorem Step.Before.asymm {a b : Step} (h : a.Before b) : ¬ b.Before a := by
  cases a <;> cases b <;> simp only [Before, not_false_eq_true] at h ⊢
  exact String.lt_asymm h

theorem Step.before_or (a b : Step) : a.Before b ∨ a = b ∨ b.Before a := by
  cases a with
  | property m =>
    cases b with
    | property n =>
      by_cases hmn : m < n
      · exact .inl hmn
      · by_cases heq : m = n
        · exact .inr (.inl (congrArg property heq))
        · exact .inr (.inr (Fields.lt_of_not_lt_of_ne hmn heq))
    | _ => exact .inl trivial
  | items =>
    cases b with
    | property _ => exact .inr (.inr trivial)
    | items => exact .inr (.inl rfl)
    | values => exact .inl trivial
  | values =>
    cases b with
    | values => exact .inr (.inl rfl)
    | _ => exact .inr (.inr trivial)

/-- **The name at the end of a way** that begins at a name. -/
def nameFrom (name : String) (way : List Step) : String :=
  way.foldl (fun name step => s!"{name}.{step.label}") name

/-- The part that a declaration of a node goes on to, if the node has a shape. -/
def declaredPart? (s : Schema) (step : Step) : Option Schema :=
  match s.shape with
  | .ok shape => shape.part? step
  | .error _ => none

/-- **The node that a declaration reaches** over a way. -/
def reach? (s : Schema) : List Step → Option Schema
  | [] => some s
  | step :: rest => (s.declaredPart? step).bind fun t => t.reach? rest

/-- Whether a node is reached that has no shape. -/
def FailsAt (s : Schema) (way : List Step) : Prop :=
  ∃ t e, s.reach? way = some t ∧ t.shape = .error e

/-- The kind of a node. -/
def kind (s : Schema) : Except ShapeError Shape :=
  s.shape.map Shape.kind

end Schema

namespace Declaration

/-- The part of a declaration at a step. -/
def part? : Declaration → Schema.Step → Option Declaration
  | object _ fields, .property name => Fields.get? name fields
  | map values, .values => some values
  | list items, .items => some items
  | _, _ => none

/-- **The declaration at the end of a way.** -/
def reach? (d : Declaration) : List Schema.Step → Option Declaration
  | [] => some d
  | step :: rest => (d.part? step).bind fun d' => d'.reach? rest

end Declaration

/-- **What is declared of a shape** at a node with a name, whatever is declared of the parts. -/
inductive Shape.Declared (name : String) : Shape → Declaration → Prop
  | object {properties : List (String × Schema)} {fields : List (String × Declaration)} :
      Fields.names fields = Fields.names properties →
      Declared name (.object properties) (.object name fields)
  | map {values : Schema} {d : Declaration} : Declared name (.map values) (.map d)
  | array {items : Schema} {d : Declaration} : Declared name (.array items) (.list d)
  | string {byte : Bool} : Declared name (.string byte) .string
  | integer : Declared name .integer .int
  | number : Declared name .number .double
  | boolean : Declared name .boolean .bool

namespace Schema

/-! ## Parts -/

theorem Canonical.ordered_properties {s : Schema} (h : s.Canonical) :
    Fields.Ordered s.properties := by
  cases s
  exact h.1

/-- The properties of an object are those of its node, in their order. -/
theorem properties_of_shape {s : Schema} {properties : List (String × Schema)}
    (h : s.shape = .ok (.object properties)) : properties = s.properties := by
  unfold shape at h
  split at h
  case h_2 =>
    split at h
    · cases h
    · cases h; rfl
  case h_3 => split at h <;> cases h
  all_goals cases h

/-- A declaration goes on to parts of the node only. -/
theorem part?_of_shape {s t : Schema} {shape : Shape} {step : Step} (h : s.shape = .ok shape)
    (ht : shape.part? step = some t) : s.part? step = some t := by
  unfold Schema.shape at h
  split at h
  case h_2 =>
    split at h
    · next hadditional =>
      cases h
      cases step with
      | values => cases ht; rw [part?, mapValues?, hadditional]
      | _ => cases ht
    · cases h
      cases step with
      | property name => exact ht
      | _ => cases ht
  case h_3 =>
    split at h
    · next hitems =>
      cases h
      cases step with
      | items => cases ht; exact hitems
      | _ => cases ht
    · cases h
  all_goals cases h
  all_goals cases ht

mutual
/-- **What holds of a node if it holds of its parts** holds of every node. -/
@[elab_as_elim]
theorem induct {P : Schema → Prop} (node : ∀ s, (∀ step t, s.part? step = some t → P t) → P s) :
    ∀ s, P s
  | ⟨_, _, _, properties, items, additional, _, _, _⟩ =>
    node _ fun step t ht =>
      match step with
      | .property _ => induct_properties node properties (_, t) (Fields.mem_of_get? ht)
      | .items => induct_items node items t ht
      | .values => induct_additional node additional t (additional_of_mapValues? ht)
theorem induct_properties {P : Schema → Prop}
    (node : ∀ s, (∀ step t, s.part? step = some t → P t) → P s) :
    ∀ properties : List (String × Schema), ∀ e ∈ properties, P e.2
  | [] => List.forall_mem_nil _
  | (_, s) :: rest => List.forall_mem_cons.2 ⟨induct node s, induct_properties node rest⟩
theorem induct_items {P : Schema → Prop}
    (node : ∀ s, (∀ step t, s.part? step = some t → P t) → P s) :
    ∀ (items : Option Schema) (t : Schema), items = some t → P t
  | some s, _, rfl => induct node s
theorem induct_additional {P : Schema → Prop}
    (node : ∀ s, (∀ step t, s.part? step = some t → P t) → P s) :
    ∀ (additional : Option (Bool ⊕ Schema)) (t : Schema), additional = some (.inr t) → P t
  | some (.inr s), _, rfl => induct node s
end

/-! ## Steps of a declaration -/

/-- The declaration of a shape at a node with a name. -/
def declareShape (name : String) : Shape → Except DeclarationError Declaration
  | .object properties => do return .object name (← declareFields name properties)
  | .map values => do return .map (← values.declare s!"{name}.@value")
  | .array items => do return .list (← items.declare s!"{name}.@items")
  | .string _ => .ok .string
  | .integer => .ok .int
  | .number => .ok .double
  | .boolean => .ok .bool

/-- **A node is declared by its shape**, and one without a shape is told at its own name. -/
theorem declare_eq (s : Schema) (name : String) :
    s.declare name = s.shape.mapError (DeclarationError.mk name) >>= declareShape name := by
  obtain ⟨types, format, description, properties, items, additional, required, nullable,
    extensions⟩ := s
  rw [declare.eq_def, shape]
  dsimp only
  generalize typeName? _ = type
  split
  case h_2 => rcases additional with _ | _ | _ <;> rfl
  case h_3 => cases items <;> rfl
  case h_8 => simp [Except.mapError, bind, Except.bind]
  all_goals rfl

/-- All properties are declared, each at its own name. -/
theorem declareFields_eq_ok {name : String} {properties : List (String × Schema)} :
    ∀ {fields : List (String × Declaration)}, declareFields name properties = .ok fields →
      Fields.names fields = Fields.names properties ∧ ∀ (key : String) (t : Schema),
        Fields.get? key properties = some t →
          ∃ d, Fields.get? key fields = some d ∧ t.declare s!"{name}.{key}" = .ok d := by
  induction properties with
  | nil => intro fields h; cases h; exact ⟨rfl, nofun⟩
  | cons e rest ih =>
    obtain ⟨field, s⟩ := e
    intro fields h
    rw [declareFields] at h
    obtain ⟨d, hd, h⟩ := bind_eq_ok h
    obtain ⟨ds, hds, h⟩ := bind_eq_ok h
    cases h
    obtain ⟨hnames, hrest⟩ := ih hds
    refine ⟨congrArg (field :: ·) hnames, fun key t ht => ?_⟩
    by_cases hkey : field = key
    · subst hkey
      rw [Fields.get?_cons_self] at ht ⊢
      cases ht
      exact ⟨d, rfl, hd⟩
    · rw [Fields.get?_cons_of_ne hkey] at ht ⊢
      exact hrest key t ht

/-- **The first property that is not declared** is told, and all with smaller names are declared. -/
theorem declareFields_eq_error {name : String} {properties : List (String × Schema)}
    {e : DeclarationError} (hproperties : Fields.Ordered properties)
    (h : declareFields name properties = .error e) :
    ∃ field t, Fields.get? field properties = some t ∧ t.declare s!"{name}.{field}" = .error e ∧
      ∀ (key : String) (u : Schema), key < field → Fields.get? key properties = some u →
        ∃ d, u.declare s!"{name}.{key}" = .ok d := by
  induction properties with
  | nil => cases h
  | cons p rest ih =>
    obtain ⟨first, s⟩ := p
    have hsmaller := (List.pairwise_cons.1 hproperties).1
    rw [declareFields] at h
    cases hs : s.declare s!"{name}.{first}" with
    | error e' =>
      rw [hs] at h
      cases h
      refine ⟨first, s, Fields.get?_cons_self .., hs, fun key u hlt hu => ?_⟩
      rw [Fields.get?_cons_of_ne (String.ne_of_lt hlt).symm] at hu
      exact absurd (hsmaller _ (Fields.mem_of_get? hu)) (String.lt_asymm hlt)
    | ok d =>
      simp only [hs] at h
      cases hrest : declareFields name rest with
      | ok ds => rw [hrest] at h; cases h
      | error e' =>
        rw [hrest] at h
        cases h
        obtain ⟨field, t, ht, herror, hbefore⟩ := ih hproperties.tail hrest
        have hfield := hsmaller _ (Fields.mem_of_get? ht)
        refine ⟨field, t, ?_, herror, fun key u hlt hu => ?_⟩
        · rw [Fields.get?_cons_of_ne (String.ne_of_lt hfield)]
          exact ht
        · by_cases hkey : first = key
          · subst hkey
            rw [Fields.get?_cons_self] at hu
            cases hu
            exact ⟨d, hs⟩
          · rw [Fields.get?_cons_of_ne hkey] at hu
            exact hbefore key u hlt hu

/-- All parts of a shape are declared, and the declaration has no others. -/
def PartsDeclared (name : String) (shape : Shape) (d : Declaration) : Prop :=
  ∀ step, match shape.part? step with
    | some t => ∃ d', d.part? step = some d' ∧ t.declare s!"{name}.{step.label}" = .ok d'
    | none => d.part? step = none

/-- A part of a shape is not declared, and all parts before it are. -/
def FirstPartFails (name : String) (shape : Shape) (e : DeclarationError) : Prop :=
  ∃ step t, shape.part? step = some t ∧ t.declare s!"{name}.{step.label}" = .error e ∧
    ∀ (other : Step) (u : Schema), other.Before step → shape.part? other = some u →
      ∃ d, u.declare s!"{name}.{other.label}" = .ok d

/-- **One step of a declaration**: all parts are declared, or the first one that is not is told. -/
theorem declare_step {s : Schema} (hs : s.Canonical) {shape : Shape} (hshape : s.shape = .ok shape)
    (name : String) :
    (∃ d, s.declare name = .ok d ∧ shape.Declared name d ∧ PartsDeclared name shape d) ∨
      ∃ e, s.declare name = .error e ∧ FirstPartFails name shape e := by
  have heq : s.declare name = declareShape name shape := by rw [declare_eq, hshape]; rfl
  have hvalue : s!"{name}.@value" = s!"{name}.{Step.values.label}" := by
    simp only [Step.label, ToString.toString, String.append_assoc]; rfl
  have hitems : s!"{name}.@items" = s!"{name}.{Step.items.label}" := by
    simp only [Step.label, ToString.toString, String.append_assoc]; rfl
  rw [heq]
  cases shape with
  | object properties =>
    obtain rfl := properties_of_shape hshape
    rw [declareShape]
    cases hfields : declareFields name s.properties with
    | ok fields =>
      obtain ⟨hnames, hparts⟩ := declareFields_eq_ok hfields
      refine .inl ⟨_, rfl, .object hnames, fun step => ?_⟩
      cases step with
      | property key =>
        show match Fields.get? key s.properties with | some _ => _ | none => _
        cases ht : Fields.get? key s.properties with
        | some t => exact hparts key t ht
        | none =>
          rw [Fields.get?_eq_none_iff, ← hnames, ← Fields.get?_eq_none_iff] at ht
          exact ht
      | _ => exact rfl
    | error e =>
      obtain ⟨field, t, ht, herror, hbefore⟩ := declareFields_eq_error hs.ordered_properties hfields
      refine .inr ⟨_, rfl, .property field, t, ht, herror, fun other u hother hu => ?_⟩
      cases other with
      | property key => exact hbefore key u hother hu
      | _ => cases hu
  | map values =>
    rw [declareShape, hvalue]
    cases hd : values.declare s!"{name}.{Step.values.label}" with
    | ok d =>
      refine .inl ⟨_, rfl, .map, fun step => ?_⟩
      cases step with
      | values => exact ⟨d, rfl, hd⟩
      | _ => exact rfl
    | error e =>
      refine .inr ⟨_, rfl, .values, values, rfl, hd, fun other u hbefore hu => ?_⟩
      cases other with
      | values => exact hbefore.elim
      | _ => cases hu
  | array items =>
    rw [declareShape, hitems]
    cases hd : items.declare s!"{name}.{Step.items.label}" with
    | ok d =>
      refine .inl ⟨_, rfl, .array, fun step => ?_⟩
      cases step with
      | items => exact ⟨d, rfl, hd⟩
      | _ => exact rfl
    | error e =>
      refine .inr ⟨_, rfl, .items, items, rfl, hd, fun other u hbefore hu => ?_⟩
      cases other with
      | items => exact hbefore.elim
      | _ => cases hu
  | string byte => exact .inl ⟨_, rfl, .string, fun _ => rfl⟩
  | integer => exact .inl ⟨_, rfl, .integer, fun _ => rfl⟩
  | number => exact .inl ⟨_, rfl, .number, fun _ => rfl⟩
  | boolean => exact .inl ⟨_, rfl, .boolean, fun _ => rfl⟩

/-! ## Declarations -/

/-- **What a declaration says about the nodes that are reached**: it has one for each, as the shape
there asks, and otherwise the first node without a shape is told. -/
def Told (s : Schema) (name : String) : Except DeclarationError Declaration → Prop
  | .ok d => ∀ way, match s.reach? way with
    | some t => ∃ shape d', t.shape = .ok shape ∧ d.reach? way = some d' ∧
        shape.Declared (nameFrom name way) d'
    | none => d.reach? way = none
  | .error e => ∃ way t, IsFirst Step.Before s.FailsAt way ∧ s.reach? way = some t ∧
      t.shape = .error e.reason ∧ e.path = nameFrom name way

theorem reach?_cons {s : Schema} {shape : Shape} (hshape : s.shape = .ok shape) (step : Step)
    (rest : List Step) :
    s.reach? (step :: rest) = (shape.part? step).bind fun t => t.reach? rest := by
  rw [reach?, declaredPart?, hshape]

/-- Nothing fails below a node that is declared. -/
theorem not_failsAt_of_told {s : Schema} {name : String} {d : Declaration}
    (h : s.Told name (.ok d)) (way : List Step) : ¬ s.FailsAt way := by
  rintro ⟨t, e, ht, he⟩
  have htold := h way
  rw [ht] at htold
  obtain ⟨shape, -, hshape, -⟩ := htold
  rw [he] at hshape
  cases hshape

theorem told_declare (s : Schema) : s.Canonical → ∀ name, s.Told name (s.declare name) := by
  induction s using induct with
  | node s ih =>
    intro hs name
    cases hshape : s.shape with
    | error e =>
      rw [declare_eq, hshape]
      exact ⟨[], s, isFirst_nil ⟨s, e, rfl, hshape⟩, rfl, hshape, rfl⟩
    | ok shape =>
      have hpart : ∀ {step : Step} {t : Schema}, shape.part? step = some t →
          ∀ name, t.Told name (t.declare name) := fun {step t} ht =>
        ih step t (part?_of_shape hshape ht) (hs.part (part?_of_shape hshape ht))
      rcases declare_step hs hshape name with
        ⟨d, hd, hdeclared, hparts⟩ | ⟨e, he, step, t, ht, hfails, hbefore⟩
      · rw [hd]
        intro way
        cases way with
        | nil => exact ⟨shape, d, hshape, rfl, hdeclared⟩
        | cons step rest =>
          have hstep := hparts step
          rw [reach?_cons hshape, Declaration.reach?]
          cases ht : shape.part? step with
          | none =>
            rw [ht] at hstep
            simp only [hstep, Option.bind_none]
          | some t =>
            rw [ht] at hstep
            obtain ⟨d', hd', htd⟩ := hstep
            have htold := hpart ht s!"{name}.{step.label}"
            rw [htd] at htold
            rw [hd']
            exact htold rest
      · rw [he]
        have htold := hpart ht s!"{name}.{step.label}"
        rw [hfails] at htold
        obtain ⟨way, u, hfirst, hu, hreason, hpath⟩ := htold
        have hreach : s.reach? (step :: way) = some u := by rw [reach?_cons hshape, ht]; exact hu
        refine ⟨step :: way, u, hfirst.cons ⟨u, _, hreach, hreason⟩ ?_, hreach, hreason, hpath⟩
        -- what fails below another part is below a later one, since those before are declared
        rintro other ⟨v, e', hv, he'⟩
        cases other with
        | nil =>
          cases hv
          rw [hshape] at he'
          cases he'
        | cons a rest =>
          rw [reach?_cons hshape] at hv
          obtain ⟨w, hw, hv⟩ := Option.bind_eq_some_iff.1 hv
          refine ⟨a, rest, rfl, ?_⟩
          rcases a.before_or step with hearlier | rfl | hlater
          · obtain ⟨d', hd'⟩ := hbefore a w hearlier hw
            have htold := hpart hw s!"{name}.{a.label}"
            rw [hd'] at htold
            exact absurd ⟨v, e', hv, he'⟩ (not_failsAt_of_told htold rest)
          · cases ht.symm.trans hw
            exact .inl ⟨rfl, v, e', hv, he'⟩
          · exact .inr hlater

/-! ## What is not reached -/

/-- Properties with the same names that are declared alike. -/
theorem declareFields_congr {name : String} {ps : List (String × Schema)} :
    ∀ {qs : List (String × Schema)}, Fields.names ps = Fields.names qs →
      (∀ e ∈ ps, ∀ f ∈ qs, e.1 = f.1 → ∀ name, e.2.declare name = f.2.declare name) →
      declareFields name ps = declareFields name qs := by
  induction ps with
  | nil =>
    intro qs hnames _
    cases qs with
    | nil => rfl
    | cons f rest => cases hnames
  | cons e ps ih =>
    obtain ⟨field, s⟩ := e
    intro qs hnames h
    cases qs with
    | nil => cases hnames
    | cons f qs =>
      obtain ⟨field', t⟩ := f
      obtain ⟨rfl, hrest⟩ := List.cons.inj hnames
      rw [declareFields, declareFields, ih hrest fun e he f hf =>
          h e (List.mem_cons_of_mem _ he) f (List.mem_cons_of_mem _ hf),
        h _ List.mem_cons_self _ List.mem_cons_self rfl]

/-- Shapes of one kind are declared alike if their parts are. -/
theorem declareShape_congr {name : String} {a b : Shape} (hkind : a.kind = b.kind)
    (ha : ∀ properties, a = .object properties → Fields.Ordered properties)
    (hb : ∀ properties, b = .object properties → Fields.Ordered properties)
    (hparts : ∀ (step : Step) (u v : Schema), a.part? step = some u → b.part? step = some v →
      ∀ name, u.declare name = v.declare name) :
    declareShape name a = declareShape name b := by
  cases a with
  | object ps =>
    cases b with
    | object qs =>
      have hnames : Fields.names ps = Fields.names qs := by
        have h := congrArg Fields.names (Shape.object.inj hkind)
        rw [Fields.names, Fields.names, List.map_map, List.map_map] at h
        exact h
      have hfields : declareFields name ps = declareFields name qs := by
        refine declareFields_congr hnames fun e he f hf hef => ?_
        refine hparts (.property e.1) e.2 f.2 ((ha ps rfl).get?_eq_some_iff.2 he) ?_
        exact (hb qs rfl).get?_eq_some_iff.2 (hef ▸ hf)
      rw [declareShape, declareShape, hfields]
    | _ => cases hkind
  | map u =>
    cases b with
    | map v => rw [declareShape, declareShape, hparts .values u v rfl rfl]
    | _ => cases hkind
  | array u =>
    cases b with
    | array v => rw [declareShape, declareShape, hparts .items u v rfl rfl]
    | _ => cases hkind
  | string byte =>
    cases b with
    | string byte' => rfl
    | _ => cases hkind
  | _ =>
    cases b with
    | object _ | map _ | array _ | string _ => cases hkind
    | _ => first | rfl | cases hkind

theorem shapes_of_kind_eq {s t : Schema} (h : s.kind = t.kind) :
    (∃ e, s.shape = .error e ∧ t.shape = .error e) ∨
      ∃ a b, s.shape = .ok a ∧ t.shape = .ok b ∧ a.kind = b.kind := by
  rw [kind, kind] at h
  cases hs : s.shape with
  | error e =>
    rw [hs] at h
    cases ht : t.shape with
    | error e' => rw [ht] at h; cases h; exact .inl ⟨e, rfl, rfl⟩
    | ok b => rw [ht] at h; cases h
  | ok a =>
    rw [hs] at h
    cases ht : t.shape with
    | error e' => rw [ht] at h; cases h
    | ok b => rw [ht] at h; exact .inr ⟨a, b, rfl, rfl, Except.ok.inj h⟩

/-- **Nothing but the kinds of the nodes that are reached matters**: not the properties of a map nor
the items of what is no array. -/
theorem declare_congr (s : Schema) : s.Canonical → ∀ t : Schema, t.Canonical →
    (∀ way, (s.reach? way).map kind = (t.reach? way).map kind) →
      ∀ name, s.declare name = t.declare name := by
  induction s using induct with
  | node s ih =>
    intro hs t ht hkinds name
    rw [declare_eq, declare_eq]
    rcases shapes_of_kind_eq (Option.some.inj (hkinds [])) with ⟨e, he, he'⟩ | ⟨a, b, ha, hb, hkind⟩
    · rw [he, he']
    · rw [ha, hb]
      refine declareShape_congr hkind ?_ ?_ fun step u v hu hv => ?_
      · rintro properties rfl
        exact properties_of_shape ha ▸ hs.ordered_properties
      · rintro properties rfl
        exact properties_of_shape hb ▸ ht.ordered_properties
      · have hu' := part?_of_shape ha hu
        have hv' := part?_of_shape hb hv
        refine ih step u hu' (hs.part hu') v (ht.part hv') fun way => ?_
        have hway := hkinds (step :: way)
        rwa [reach?_cons ha, reach?_cons hb, hu, hv] at hway

end Schema

/-- **The first node without a shape is told.** A declaration succeeds exactly if every node that is
reached has a shape, and otherwise tells the first one that has none, with its name and the reason.
What is declared has a declaration for every node that is reached, as its shape asks and objects
with the names of their nodes, and no others. What is not reached, such as the properties of a map
or the items of what is no array, never matters. -/
theorem first_node_without_shape_is_told {s : Schema} (hs : s.Canonical) (name : String) :
    ((∃ d, s.declare name = .ok d) ↔
      ∀ way t, s.reach? way = some t → ∃ shape, t.shape = .ok shape) ∧
    (∀ e, s.declare name = .error e ↔ ∃ way t, IsFirst Schema.Step.Before s.FailsAt way ∧
      s.reach? way = some t ∧ t.shape = .error e.reason ∧ e.path = Schema.nameFrom name way) ∧
    (∀ d, s.declare name = .ok d →
      (∀ way t, s.reach? way = some t → ∃ shape d', t.shape = .ok shape ∧
        d.reach? way = some d' ∧ shape.Declared (Schema.nameFrom name way) d') ∧
      ∀ way, s.reach? way = none → d.reach? way = none) ∧
    ∀ t : Schema, t.Canonical →
      (∀ way, (t.reach? way).map Schema.kind = (s.reach? way).map Schema.kind) →
        t.declare name = s.declare name := by
  have htold := Schema.told_declare s hs name
  refine ⟨⟨?_, fun h => ?_⟩, fun e => ⟨fun h => ?_, ?_⟩, fun d h => ?_,
    fun t ht hkinds => Schema.declare_congr t ht s hs hkinds name⟩
  · rintro ⟨d, h⟩ way t ht
    rw [h] at htold
    have hway := htold way
    rw [ht] at hway
    obtain ⟨shape, -, hshape, -⟩ := hway
    exact ⟨shape, hshape⟩
  · cases hresult : s.declare name with
    | ok d => exact ⟨d, rfl⟩
    | error e =>
      rw [hresult] at htold
      obtain ⟨way, t, -, ht, hreason, -⟩ := htold
      obtain ⟨shape, hshape⟩ := h way t ht
      rw [hreason] at hshape
      cases hshape
  · rw [h] at htold
    exact htold
  · obtain ⟨path, reason⟩ := e
    rintro ⟨way, t, hfirst, ht, hreason, rfl⟩
    cases hresult : s.declare name with
    | ok d =>
      rw [hresult] at htold
      exact absurd hfirst.1 (Schema.not_failsAt_of_told htold way)
    | error e' =>
      rw [hresult] at htold
      obtain ⟨path', reason'⟩ := e'
      obtain ⟨way', t', hfirst', ht', hreason', rfl⟩ := htold
      obtain rfl := hfirst.unique Schema.Step.Before.asymm hfirst'
      cases ht.symm.trans ht'
      cases hreason.symm.trans hreason'
      rfl
  · rw [h] at htold
    refine ⟨fun way t ht => ?_, fun way hway => ?_⟩
    · have hnode := htold way
      rw [ht] at hnode
      exact hnode
    · have hnode := htold way
      rw [hway] at hnode
      exact hnode

/-- An object without a type, with a map of lists; the property of the map has no shape. -/
def basket (items : Option Schema) : Schema :=
  { Schema.empty with
    properties := [("lists", { Schema.empty with
      properties := [("x", .empty)]
      additional :=
        some (.inr { Schema.empty with types := ["array", "null"], items := items }) })] }

theorem canonical_basket {items : Option Schema} (h : Schema.CanonicalItems items) :
    (basket items).Canonical := by
  have hempty : Schema.empty.Canonical := ⟨.nil, .nil, trivial, trivial, trivial⟩
  exact ⟨List.pairwise_singleton _ _, .nil, ⟨⟨List.pairwise_singleton _ _, .nil, ⟨hempty, trivial⟩,
    trivial, .nil, .nil, trivial, h, trivial⟩, trivial⟩, trivial, trivial⟩

/-- Lists without items are told, and with items they are declared; the property never matters. -/
theorem basket_is_declared_with_items :
    (basket none).Canonical ∧
    (∃ way t, IsFirst Schema.Step.Before (basket none).FailsAt way ∧
      (basket none).reach? way = some t ∧ t.shape = .error .missingItems ∧
      "self.lists.@value" = Schema.nameFrom "self" way) ∧
    ∃ d, (basket (some { Schema.empty with types := ["number"] })).declare "self" = .ok d ∧
      d.reach? [.property "lists", .values, .items] = some .double ∧
      d.reach? [.property "lists", .property "x"] = none := by
  have hnone : (basket none).Canonical := canonical_basket trivial
  obtain ⟨-, htold, -⟩ := first_node_without_shape_is_told hnone "self"
  have hnumbers : (basket (some { Schema.empty with types := ["number"] })).Canonical :=
    canonical_basket ⟨.nil, .nil, trivial, trivial, trivial⟩
  obtain ⟨-, -, hreached, -⟩ := first_node_without_shape_is_told hnumbers "self"
  obtain ⟨hnode, hnothing⟩ := hreached _ rfl
  obtain ⟨_, d, hshape, hd, hdeclared⟩ := hnode [.property "lists", .values, .items] _ rfl
  cases hshape
  cases hdeclared
  exact ⟨hnone, (htold ⟨"self.lists.@value", .missingItems⟩).1 rfl, _, rfl, hd, hnothing _ rfl⟩

end SchemaRules
