import SchemaRules.Proofs.Names
import SchemaRules.Proofs.Shorthands

/-!
# Variables that are written and read

A variable of an environment can be called in a rule by its name alone, and has its data there.
A field that is no variable of its own is reached through the scope variable, under whatever name.

* `Environment.isIdentifier_of_declared?`: every variable is called by an identifier.
* `Environment.execute_name_scope`, `Environment.execute_name_shorthand`: **the values of
  variables** are their converted data, each by its own part of the seed.
* `Environment.execute_indexed_scope`: the value of a field by an index of the scope variable.
* `Environment.mem_names_bindings_iff`: **the variables that an execution binds**.
* `variables_are_written_and_read`: all of it, with the texts of rules.
-/

namespace SchemaRules

namespace Environment

variable {env : Environment} {root d : Declaration} {scope x : String} {fields : Fields Json}

/-- **Every variable is called by an identifier.** -/
theorem isIdentifier_of_declared? (henv : build root scope = .ok env)
    (h : env.declared? x = some d) : isIdentifier x = true := by
  obtain ⟨hidentifier, hscope, -⟩ := build_eq_ok henv
  by_cases hx : x = env.scopeVariable
  · rw [hx, hscope]
    exact hidentifier
  · rw [declared?, if_neg hx, get?_shorthands henv, Option.ite_none_right_eq_some, isShorthand,
      Bool.and_eq_true] at h
    exact h.1.2

/-- **The scope variable has the whole instance.** -/
theorem execute_name_scope (env : Environment) (v : Json) (s : Seed) :
    env.execute (.name env.scopeVariable) v s = .ok (env.root.convert v s.here) := by
  rw [execute, Expr.eval, bindings, List.lookup_cons_self]
  rfl

/-- **A shorthand has the data of its field.** -/
theorem execute_name_shorthand (hx : x ≠ env.scopeVariable) (hd : env.declared? x = some d)
    {w : Json} (hw : Fields.get? x fields = some w) (s : Seed) :
    env.execute (.name x) (.obj fields) s = .ok (d.convert w (s.here.apart.under x)) := by
  rw [declared?, if_neg hx] at hd
  have hlookup : (env.bindings (.obj fields) s.here).lookup x =
      some (d.convert w (s.here.apart.under x)) := by
    rw [bindings, Scope.lookup_cons_of_ne hx]
    exact (lookup_filterMap hd).trans (by rw [hw, Option.map_some])
  rw [execute, Expr.eval, hlookup]
  rfl

/-- **Every field is reached through the scope variable**, be it a variable of its own or not. -/
theorem execute_indexed_scope {name key : String} {ds : List (String × Declaration)}
    (hroot : env.root = .object name ds) (hd : Fields.get? key ds = some d) {w : Json}
    (hw : Fields.get? key fields = some w) (s : Seed) :
    env.execute (.indexed (.name env.scopeVariable) key) (.obj fields) s =
      .ok (d.convert w (s.here.under key)) := by
  have hlookup : Value.lookup? (.str key)
      (s.here.arrange (Declaration.convertFields ds fields s.here)) =
        some (d.convert w (s.here.under key)) := by
    rw [Seed.lookup?_arrange, Declaration.lookup?_convertFields hd, hw, Option.map_some]
  have hvalue : ∀ t, Expr.eval (env.bindings (.obj fields) s.here) (.name env.scopeVariable) t =
      .ok (.map (s.here.arrange (Declaration.convertFields ds fields s.here))) := by
    intro t
    rw [Expr.eval, bindings, List.lookup_cons_self, hroot]
    rfl
  have hindex : Expr.eval (env.bindings (.obj fields) s.here)
      (.indexed (.name env.scopeVariable) key) s.next = .ok (d.convert w (s.here.under key)) := by
    rw [Expr.indexed, Expr.eval, hvalue]
    exact Value.index_of_lookup hlookup
  rw [execute, hindex]
  rfl

/-- The shorthands that an object binds are those of its fields. -/
theorem names_filterMap (shorthands : List (String × Declaration)) (fields : Fields Json)
    (s : Seed) :
    Fields.names (shorthands.filterMap (binding? fields s)) =
      (Fields.names shorthands).filter fun x => Fields.has x fields := by
  induction shorthands with
  | nil => rfl
  | cons e rest ih =>
    obtain ⟨name, d⟩ := e
    have hnames : Fields.names ((name, d) :: rest) = name :: Fields.names rest := rfl
    rw [hnames, List.filter_cons, Fields.has]
    cases hv : Fields.get? name fields with
    | none =>
      rw [List.filterMap_cons_none (binding?_of_get?_eq_none hv d)]
      exact ih
    | some v =>
      rw [List.filterMap_cons_some (binding?_of_get? hv d)]
      exact congrArg (name :: ·) ih

/-- **The variables that an execution binds**: the scope variable and the shorthands of the fields
that are present. -/
theorem mem_names_bindings_iff {v : Json} {s : Seed} :
    x ∈ Fields.names (env.bindings v s) ↔
      x = env.scopeVariable ∨
        ((env.declared? x).isSome = true ∧
          ∃ fields, v = .obj fields ∧ Fields.has x fields = true) := by
  have hcons : x ∈ Fields.names (env.bindings v s) ↔
      x = env.scopeVariable ∨ x ∈ Fields.names (env.fieldsBound v s.apart) := List.mem_cons
  rw [hcons]
  refine or_congr_right' fun hx => ?_
  rw [declared?, if_neg hx]
  cases v with
  | obj fields =>
    have hbound : x ∈ Fields.names (env.fieldsBound (.obj fields) s.apart) ↔
        x ∈ (Fields.names env.shorthands).filter fun x => Fields.has x fields :=
      iff_of_eq (congrArg (x ∈ ·) (names_filterMap env.shorthands fields s.apart))
    rw [hbound, List.mem_filter, ← Fields.has_iff]
    refine and_congr_right fun _ => ⟨fun h => ⟨fields, rfl, h⟩, ?_⟩
    rintro ⟨fields', hv, h⟩
    cases hv
    exact h
  | _ =>
    refine iff_of_false List.not_mem_nil ?_
    rintro ⟨-, fields, hv, -⟩
    cases hv

end Environment

open Environment in
/-- **What an environment declares can be written and read.** The text of a declared name alone is
read as a variable, and has the converted instance or field as its value. Every field of an object
that is declared and present is read under its key by an index of the scope variable, and the key
can be written whatever its characters. No other variables are bound than the scope variable and
the shorthands of fields that are present. -/
theorem variables_are_written_and_read {scope : String} (hscope : isIdentifier scope = true)
    (root : Declaration) :
    ∃ env, build root scope = .ok env ∧ ∀ (v : Json) (s : Seed),
      (∀ x d, env.declared? x = some d →
        Expr.ofText? x = some (.name x) ∧
        (x = scope → env.execute (.name x) v s = .ok (root.convert v s.here)) ∧
        ∀ fields w, x ≠ scope → v = .obj fields → Fields.get? x fields = some w →
          env.execute (.name x) v s = .ok (d.convert w (s.here.apart.under x))) ∧
      (∀ name ds fields key d w, root = .object name ds → v = .obj fields →
        Fields.get? key ds = some d → Fields.get? key fields = some w →
          Expr.ofText? (Expr.indexText scope key) = some (.indexed (.name scope) key) ∧
            env.execute (.indexed (.name scope) key) v s =
              .ok (d.convert w (s.here.under key))) ∧
      ∀ x, x ∈ Fields.names (env.bindings v s.here) ↔
        x = scope ∨ ((env.declared? x).isSome = true ∧
          ∃ fields, v = .obj fields ∧ Fields.has x fields = true) := by
  obtain ⟨env, henv, rfl, rfl⟩ := build_of_isIdentifier hscope root
  refine ⟨env, henv, fun v s =>
    ⟨fun x d hd => ⟨?_, ?_, ?_⟩, ?_, fun x => mem_names_bindings_iff⟩⟩
  · exact Expr.ofText?_name (isIdentifier_of_declared? henv hd)
  · rintro rfl
    exact execute_name_scope env v s
  · rintro fields w hx rfl hw
    exact execute_name_shorthand hx hd hw s
  · rintro name ds fields key d w hroot rfl hd hw
    exact ⟨Expr.ofText?_indexText hscope key, execute_indexed_scope hroot hd hw s⟩

/-- Fields three of which are no variables of their own: a reserved word, the scope variable and no
identifier. -/
def awkward : Declaration :=
  .object "self" [("in", .int), ("ok", .bool), ("self", .int), ("\"\n", .string)]

/-- An instance with all of the fields. -/
def awkwardFields : Fields Json :=
  [("in", .int 1), ("ok", .bool true), ("self", .int 2), ("\"\n", .str "x")]

open Environment in
/-- Fields that are no variables are read by an index. -/
theorem awkward_fields_are_read :
    ∃ env, build awkward "self" = .ok env ∧
      Expr.ofText? (Expr.indexText "self" "\"\n") = some (.indexed (.name "self") "\"\n") ∧
      ∀ s, env.execute (.name "ok") (.obj awkwardFields) s = .ok (.bool true) ∧
        "in" ∉ Fields.names (env.bindings (.obj awkwardFields) s.here) ∧
        env.execute (.indexed (.name "self") "self") (.obj awkwardFields) s = .ok (.int 2) ∧
        env.execute (.indexed (.name "self") "\"\n") (.obj awkwardFields) s =
          .ok (.str "x") := by
  have hidentifier : isIdentifier "self" = true := by decide +kernel
  obtain ⟨env, henv, h⟩ := variables_are_written_and_read hidentifier awkward
  obtain ⟨-, hscope, -⟩ := build_eq_ok henv
  have hok : env.declared? "ok" = some .bool := by
    rw [declared?, hscope, if_neg (by decide), get?_shorthands henv, if_pos (by decide +kernel)]
    rfl
  have hin : env.declared? "in" = none := by
    rw [declared?, hscope, if_neg (by decide), get?_shorthands henv, if_neg (by decide +kernel)]
  have hindexed := fun s => (h (.obj awkwardFields) s).2.1 _ _ _ "\"\n" .string (.str "x")
    rfl rfl rfl rfl
  refine ⟨env, henv, (hindexed .standard).1, fun s => ?_⟩
  obtain ⟨hnames, hfields, hbound⟩ := h (.obj awkwardFields) s
  refine ⟨(hnames "ok" .bool hok).2.2 _ _ (by decide) rfl rfl, ?_,
    (hfields _ _ _ "self" .int (.int 2) rfl rfl rfl rfl).2, (hindexed s).2⟩
  rw [hbound, hin]
  simp

end SchemaRules
