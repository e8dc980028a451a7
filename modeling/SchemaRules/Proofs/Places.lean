import SchemaRules.Proofs.Canonical
import SchemaRules.Proofs.Comparison
import SchemaRules.Proofs.Contexts

/-!
# Expressions that read declared places

An instance is read from its variables through fields, entries of maps and items of lists, and so
are the items that a macro goes through. What is read so is a place that the declaration reaches.

* `Declaration.At`: **a value is that of a place** with a declaration.
* `Expr.ReadsAt`: **an expression reads a place** with a declaration, and its value is that of one
  (`at_of_eval`).
* `Expr.Context.Types`: what is declared of the variables in the hole of a context.
* `Environment.ReadsMap`: **an expression reads a map** in the hole of a context, on all data.
* `readsMap_of_readsAt`: so it does if it reads a place that is declared as a map.
-/

namespace SchemaRules

namespace Declaration

/-! ## Values of places -/

/-- **A value of a place** with the declaration `d` that `root` reaches in data. -/
def At (root : Declaration) (v : Json) (d : Declaration) (w : Value) : Prop :=
  ∃ u s, root.Reaches v d u ∧ w = d.convert u s

variable {root d : Declaration} {v : Json} {w x : Value}

/-- The field of an object is a place. -/
theorem At.field {name : String} {ds : List (String × Declaration)} {key : String}
    (h : root.At v (.object name ds) w) (hv : root.Admits v) (hd : Fields.get? key ds = some d)
    (hx : w.member key = .ok x) : root.At v d x := by
  obtain ⟨u, s, hreach, rfl⟩ := h
  have hfits := (hv.of_reaches hreach).here
  cases u with
  | obj fields =>
    cases hu : Fields.get? key fields with
    | none =>
      rw [member_object_eq_error hu] at hx
      cases hx
    | some u =>
      rw [member_object hd hu] at hx
      cases hx
      exact ⟨u, _, hreach.trans (.field hd hu (.here d u)), rfl⟩
  | _ => cases hfits

/-- A value at a map is a map, of the entries of an object. -/
theorem At.isMap (h : root.At v (.map d) w) (hv : root.Admits v) :
    ∃ (fields : Fields Json) (s : Seed), root.Reaches v (.map d) (.obj fields) ∧
      w = .map (s.arrange (convertValues d fields s)) := by
  obtain ⟨u, s, hreach, rfl⟩ := h
  have hfits := (hv.of_reaches hreach).here
  cases u with
  | obj fields => exact ⟨fields, s, hreach, rfl⟩
  | _ => cases hfits

/-- The entry of a map is a place. -/
theorem At.entry {key : String} (h : root.At v (.map d) w) (hv : root.Admits v)
    (hx : w.member key = .ok x) : root.At v d x := by
  obtain ⟨fields, s, hreach, rfl⟩ := h.isMap hv
  have hmember : ((map d).convert (.obj fields) s).member key = .ok x := hx
  cases hu : Fields.get? key fields with
  | none =>
    rw [member_map_eq_error hu] at hmember
    cases hmember
  | some u =>
    rw [member_map hu] at hmember
    cases hmember
    exact ⟨u, _, hreach.trans (.value hu (.here d u)), rfl⟩

/-- The items of a list are places. -/
theorem At.items (h : root.At v (.list d) w) (hv : root.Admits v) :
    ∃ items, w = .list items ∧ ∀ x ∈ items, root.At v d x := by
  obtain ⟨u, s, hreach, rfl⟩ := h
  have hfits := (hv.of_reaches hreach).here
  cases u with
  | arr items =>
    refine ⟨convertItems d items s, rfl, fun x hx => ?_⟩
    rw [convertItems_eq_map] at hx
    obtain ⟨e, he, rfl⟩ := List.mem_map.1 hx
    exact ⟨e.2, e.1, hreach.trans (.item (Seed.mem_of_mem_spread he) (.here d e.2)), rfl⟩
  | _ => cases hfits

end Declaration

/-- What an index finds in a list is an item of it. -/
theorem Value.mem_of_index {items : List Value} {i w : Value} (h : (list items).index i = .ok w) :
    w ∈ items := by
  have hfound : ∃ n : ℤ, (if 0 ≤ n then items[n.toNat]? else none) = some w := by
    cases i with
    | int n =>
      simp only [index] at h
      split at h
      · next u hu => cases h; exact ⟨n, hu⟩
      · cases h
    | uint n =>
      simp only [index] at h
      split at h
      · next u hu => cases h; exact ⟨n, hu⟩
      · cases h
    | _ => cases h
  obtain ⟨n, hn⟩ := hfound
  exact List.mem_of_getElem? (Option.ite_none_right_eq_some.1 hn).2

/-! ## Expressions -/

/-- **What is declared of variables.** -/
abbrev Typing := String → Option Declaration

namespace Typing

/-- The typing with one more variable, of which something may be declared. -/
def bind (types : Typing) (x : String) (d : Option Declaration) : Typing :=
  fun y => if y = x then d else types y

/-- **A scope of a typing**: the variables have values of places with their declarations. -/
def Holds (types : Typing) (root : Declaration) (v : Json) (scope : Scope) : Prop :=
  ∀ x d w, types x = some d → scope.lookup x = some w → root.At v d w

variable {types : Typing} {root : Declaration} {v : Json} {scope : Scope}

theorem Holds.bind (h : types.Holds root v scope) {x : String} {d : Option Declaration} {w : Value}
    (hw : ∀ d', d = some d' → root.At v d' w) :
    (types.bind x d).Holds root v ((x, w) :: scope) := by
  intro y d' u hd hu
  rw [Typing.bind] at hd
  by_cases hy : y = x
  · subst hy
    rw [if_pos rfl] at hd
    rw [List.lookup_cons_self] at hu
    cases hu
    exact hw d' hd
  · rw [if_neg hy] at hd
    rw [Scope.lookup_cons_of_ne hy] at hu
    exact h y d' u hd hu

end Typing

namespace Expr

/-- **An expression that reads a place** with a declaration. -/
inductive ReadsAt (types : Typing) : Expr → Declaration → Prop
  | name {x : String} {d : Declaration} : types x = some d → ReadsAt types (.name x) d
  | field {e : Expr} {name : String} {ds : List (String × Declaration)} {key : String}
      {d : Declaration} : ReadsAt types e (.object name ds) → Fields.get? key ds = some d →
      ReadsAt types (.member e key) d
  | entry {e : Expr} {key : String} {d : Declaration} :
      ReadsAt types e (.map d) → ReadsAt types (.member e key) d
  | item {e i : Expr} {d : Declaration} :
      ReadsAt types e (.list d) → ReadsAt types (.binary .index e i) d

variable {types types' : Typing} {root : Declaration} {v : Json} {scope inner : Scope}

/-- **The value of such an expression is that of a place** with the declaration. -/
theorem at_of_eval (hv : root.Admits v) (hscope : types.Holds root v scope) {e : Expr}
    {d : Declaration} (he : ReadsAt types e d) : ∀ {w : Value} {s : Seed},
      eval scope e s = .ok w → root.At v d w := by
  induction he with
  | @name x d hx =>
    intro w s hw
    rw [eval] at hw
    split at hw
    · next u hu =>
      cases hw
      exact hscope x d w hx hu
    · cases hw
  | field _ hd ih =>
    intro w s hw
    rw [eval] at hw
    obtain ⟨u, hu, hw⟩ := bind_eq_ok hw
    exact (ih hu).field hv hd hw
  | entry _ ih =>
    intro w s hw
    rw [eval] at hw
    obtain ⟨u, hu, hw⟩ := bind_eq_ok hw
    exact (ih hu).entry hv hw
  | item _ ih =>
    intro w s hw
    rw [eval] at hw
    obtain ⟨u, hu, hw⟩ := bind_eq_ok hw
    obtain ⟨i, -, hw⟩ := bind_eq_ok hw
    obtain ⟨items, rfl, hitems⟩ := (ih hu).items hv
    exact hitems w (Value.mem_of_index hw)

/-! ## Contexts -/

/-- **What a macro declares of its variable**: what is declared of the items of its range. -/
inductive BindsTyped (types : Typing) (range : Expr) (x : String) : Typing → Prop
  | item {d : Declaration} :
      ReadsAt types range (.list d) → BindsTyped types range x (types.bind x (some d))
  | other : BindsTyped types range x (types.bind x none)

theorem BindsTyped.holds {range : Expr} {x : String} (h : BindsTyped types range x types')
    (hv : root.Admits v) (hscope : types.Holds root v scope) {s t : Seed}
    (hinner : BindsItem range x scope s inner t) : types'.Holds root v inner := by
  obtain ⟨w, items, u, hw, hitems, hu, rfl⟩ := hinner
  cases h with
  | item hrange =>
    obtain ⟨items', rfl, hplaces⟩ := (at_of_eval hv hscope hrange hw).items hv
    cases hitems
    refine hscope.bind fun d' hd' => ?_
    cases hd'
    exact hplaces u (Seed.mem_of_mem_spread hu)
  | other =>
    refine hscope.bind fun d' hd' => ?_
    cases hd'

namespace Context

/-- **What is declared of the variables in the hole.** -/
def Types : Context → Typing → Typing → Prop
  | hole, types, types' => types' = types
  | member c _, types, types' | has c _, types, types' | unary _ c, types, types'
  | left _ c _, types, types' | right _ _ c, types, types' => c.Types types types'
  | orLeft c _, types, types' | orRight _ c, types, types' | andLeft c _, types, types'
  | andRight _ c, types, types' => c.Types types types'
  | condition c _ _, types, types' | yes _ c _, types, types' | no _ _ c, types, types' =>
    c.Types types types'
  | item _ c _, types, types' | key _ c _ _, types, types' | value _ _ c _, types, types'
  | field _ _ _ c _, types, types' => c.Types types types'
  | range _ c _ _, types, types' | collectRange c _ _ _, types, types' => c.Types types types'
  | quantified _ r x c, types, types' | collectCondition r x c _, types, types'
  | collectItem r x _ c, types, types' =>
    ∃ inside, BindsTyped types r x inside ∧ c.Types inside types'
  | target c _ _, types, types' | argument _ _ _ c _, types, types' => c.Types types types'

/-- **The scopes of the hole have the declared places.** -/
theorem Types.holds {c : Context} (hv : root.Admits v) :
    ∀ {types types' : Typing} {scope inner : Scope} {s t : Seed}, c.Types types types' →
      types.Holds root v scope → c.Opens scope s inner t → types'.Holds root v inner := by
  induction c with
  | hole =>
    intro types types' scope inner s t htypes hscope hopen
    obtain ⟨rfl, -⟩ := hopen
    cases htypes
    exact hscope
  | quantified q r x c ih | collectCondition r x c f ih =>
    intro types types' scope inner s t htypes hscope hopen
    obtain ⟨inside, hbinds, htypes⟩ := htypes
    obtain ⟨mid, u, hmid, hopen⟩ := hopen
    exact ih htypes (hbinds.holds hv hscope hmid) hopen
  | collectItem r x p c ih =>
    intro types types' scope inner s t htypes hscope hopen
    obtain ⟨inside, hbinds, htypes⟩ := htypes
    obtain ⟨mid, u, hmid, -, hopen⟩ := hopen
    exact ih htypes (hbinds.holds hv hscope hmid) hopen
  | orRight e c ih | andRight e c ih | yes e c b ih | no e a c ih =>
    intro types types' scope inner s t htypes hscope hopen
    exact ih htypes hscope hopen.2
  | field type before name c after ih =>
    intro types types' scope inner s t _ _ hopen
    cases hopen
  | _ =>
    rename_i ih
    intro types types' scope inner s t htypes hscope hopen
    exact ih htypes hscope hopen

end Context

end Expr

/-! ## Variables of an environment -/

namespace Environment

variable {env : Environment} {root d : Declaration} {scope x : String}

/-- **The shorthands** are the fields of the declaration that can be variables. -/
theorem get?_shorthands (henv : build root scope = .ok env) (x : String) :
    Fields.get? x env.shorthands =
      if isShorthand scope x then Fields.get? x (root.fields?.getD []) else none := by
  unfold build at henv
  split at henv
  · cases henv
    exact Fields.get?_filter (isShorthand scope) x _
  · cases henv

/-- A variable beside the scope variable is a field of the declaration. -/
theorem field_of_declared? (henv : build root scope = .ok env) (hne : x ≠ env.scopeVariable)
    (hx : env.declared? x = some d) :
    ∃ name ds, root = .object name ds ∧ Fields.get? x ds = some d := by
  rw [declared?, if_neg hne, get?_shorthands henv, Option.ite_none_right_eq_some] at hx
  cases root with
  | object name ds => exact ⟨name, ds, rfl, hx.2⟩
  | _ => cases hx.2

/-- What a field of an object adds to the scope. -/
def binding? (fields : Fields Json) (s : Seed) (field : String × Declaration) :
    Option (String × Value) :=
  (Fields.get? field.1 fields).map fun v => (field.1, field.2.convert v (s.under field.1))

variable {fields : Fields Json} {s : Seed} {shorthands : List (String × Declaration)}

theorem binding?_of_get?_eq_none {name : String} (h : Fields.get? name fields = none)
    (d : Declaration) : binding? fields s (name, d) = none := by
  rw [binding?, h, Option.map_none]

theorem binding?_of_get? {name : String} {v : Json} (h : Fields.get? name fields = some v)
    (d : Declaration) :
    binding? fields s (name, d) = some (name, d.convert v (s.under name)) := by
  rw [binding?, h, Option.map_some]

/-- A field is not found under another name. -/
theorem lookup_filterMap_cons_of_ne {name : String} (hne : name ≠ x) (d : Declaration) :
    (((name, d) :: shorthands).filterMap (binding? fields s)).lookup x =
      (shorthands.filterMap (binding? fields s)).lookup x := by
  cases hv : Fields.get? name fields with
  | none => rw [List.filterMap_cons_none (binding?_of_get?_eq_none hv d)]
  | some v =>
    rw [List.filterMap_cons_some (binding?_of_get? hv d), Scope.lookup_cons_of_ne (Ne.symm hne)]

/-- A field that the object lacks is not in the scope. -/
theorem lookup_filterMap_eq_none (hv : Fields.get? x fields = none) :
    (shorthands.filterMap (binding? fields s)).lookup x = none := by
  induction shorthands with
  | nil => rfl
  | cons e rest ih =>
    obtain ⟨name, d⟩ := e
    by_cases hname : name = x
    · subst hname
      rw [List.filterMap_cons_none (binding?_of_get?_eq_none hv d)]
      exact ih
    · rw [lookup_filterMap_cons_of_ne hname]
      exact ih

/-- **A field that is a variable** has its data. -/
theorem lookup_filterMap (hx : Fields.get? x shorthands = some d) :
    (shorthands.filterMap (binding? fields s)).lookup x =
      (Fields.get? x fields).map fun v => d.convert v (s.under x) := by
  cases hv : Fields.get? x fields with
  | none => exact lookup_filterMap_eq_none hv
  | some v =>
    induction shorthands with
    | nil => cases hx
    | cons e rest ih =>
      obtain ⟨name, d'⟩ := e
      by_cases hname : name = x
      · subst hname
        rw [Fields.get?_cons_self] at hx
        cases hx
        rw [List.filterMap_cons_some (binding?_of_get? hv d), List.lookup_cons_self]
        rfl
      · rw [Fields.get?_cons_of_ne hname] at hx
        rw [lookup_filterMap_cons_of_ne hname]
        exact ih hx

/-- **A variable has the value of its place.** -/
theorem holds_declared? (henv : build root scope = .ok env) (v : Json) (s : Seed) :
    Typing.Holds env.declared? root v (env.bindings v s) := by
  intro x d w hx hw
  obtain ⟨-, -, hroot⟩ := build_eq_ok henv
  rw [bindings] at hw
  by_cases hscope : x = env.scopeVariable
  · rw [hscope, List.lookup_cons_self] at hw
    rw [declared?, if_pos hscope] at hx
    cases hw
    cases hx
    rw [← hroot]
    exact ⟨v, s, .here _ v, rfl⟩
  · rw [Scope.lookup_cons_of_ne hscope] at hw
    obtain ⟨name, ds, rfl, hd⟩ := field_of_declared? henv hscope hx
    rw [declared?, if_neg hscope] at hx
    cases v with
    | obj fields =>
      have hlookup : (env.shorthands.filterMap (binding? fields s.apart)).lookup x = some w := hw
      rw [lookup_filterMap hx] at hlookup
      obtain ⟨u, hu, rfl⟩ := Option.map_eq_some_iff.1 hlookup
      exact ⟨u, _, .field hd hu (.here d u), rfl⟩
    | _ => cases hw

/-- **An expression reads a map** in the hole of a context: on all data of the declaration, a value
that it has there is that of a place which is declared as a map. -/
def ReadsMap (env : Environment) (c : Expr.Context) (m : Expr) : Prop :=
  ∀ v, env.root.Admits v → ∀ (s : Seed) inner t, c.Opens (env.bindings v s.here) s.next inner t →
    ∀ w, m.eval inner t.here = .ok w → ∃ d, env.root.At v (.map d) w

/-- **An expression reads a map** if the place that it reads is declared as one. -/
theorem readsMap_of_readsAt (henv : build root scope = .ok env) {c : Expr.Context} {types : Typing}
    (hc : c.Types env.declared? types) {m : Expr} (hm : Expr.ReadsAt types m (.map d)) :
    env.ReadsMap c m := by
  intro v hv s inner t hopen w hw
  obtain ⟨-, -, hroot⟩ := build_eq_ok henv
  rw [hroot] at hv ⊢
  have hscope := hc.holds hv (holds_declared? henv v s.here) hopen
  exact ⟨d, Expr.at_of_eval hv hscope hm hw⟩

end Environment

end SchemaRules
