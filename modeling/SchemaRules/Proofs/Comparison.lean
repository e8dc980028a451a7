import SchemaRules.Proofs.Doubles
import SchemaRules.Proofs.Selection

/-!
# Accepted comparisons have a value

A rule that compares literals and member selections is tried on samples only. Whether it goes
through depends on the kinds of its operands and not on their content, so what the last sample
shows holds of all data that inhabits the declaration.

* `Value.Scale`: the kinds of values that have an order among themselves.
* `isSome_compare?`: **two values have an order exactly if they are of one scale.**
* `Comparand.scaleOn`: the scale of an operand by its declaration, which the values on samples
  (`eval_sample_cases`) and on data (`eval_of_scaleOn`) are of.
* `verdict_ofComparands`: a comparison is accepted exactly if its operands go together.
* `comparison_never_faults`: **an accepted comparison holds or fails**, and is never at fault.
-/

namespace SchemaRules

namespace Value

/-- **Values that have an order among themselves.** -/
inductive Scale where
  | number
  | truth
  | text
  | span
  | instant
  | nothing
  deriving DecidableEq

/-- The scale of a value. Bytes, lists and maps have none, and neither has what is not a number. -/
def scale? : Value → Option Scale
  | null => some .nothing
  | bool _ => some .truth
  | int _ => some .number
  | uint _ => some .number
  | double x => if x.isNaN then none else some .number
  | str _ => some .text
  | bytes _ => none
  | list _ => none
  | map _ => none
  | duration _ => some .span
  | timestamp _ => some .instant

/-- Two values of one scale. -/
def Comparable (a b : Value) : Prop :=
  ∃ s, a.scale? = some s ∧ b.scale? = some s

/-- **Having an order is being of one scale.** -/
theorem isSome_compare? (a b : Value) : (a.compare? b).isSome = true ↔ a.Comparable b := by
  cases a <;> cases b <;>
    simp only [compare?, Comparable, scale?, isSome_compareDoubles, isNaN_toDouble,
      Option.isSome_some, Option.isSome_none, Option.some.injEq, reduceCtorEq,
      Option.ite_none_left_eq_some, Bool.not_eq_true, Bool.false_eq_true, exists_eq_left',
      exists_eq_right', exists_eq', and_self, and_true, true_and, false_and, and_false,
      exists_false, ↓existsAndEq]

end Value

/-! ## Comparisons -/

namespace Binary

/-- The comparisons. -/
def comparisons : List Binary :=
  [.equal, .notEqual, .less, .lessEq, .greater, .greaterEq]

/-- Whether an operator asks for an order of its operands. -/
def isOrder : Binary → Bool
  | .less | .lessEq | .greater | .greaterEq => true
  | _ => false

theorem ordered_eq_ok {v w : Value} (accepts : Ordering → Bool) (h : v.Comparable w) :
    ∃ b, Value.ordered accepts v w = .ok (.bool b) := by
  obtain ⟨o, ho⟩ := Option.isSome_iff_exists.1 ((Value.isSome_compare? v w).2 h)
  exact ⟨accepts o, by rw [Value.ordered, ho]⟩

theorem ordered_eq_error {v w : Value} (accepts : Ordering → Bool) (h : ¬ v.Comparable w) :
    Value.ordered accepts v w = .error (.notComparable v w) := by
  rw [← Value.isSome_compare?, Bool.not_eq_true, Option.isSome_eq_false_iff,
    Option.isNone_iff_eq_none] at h
  rw [Value.ordered, h]

/-- **A comparison says yes or no**, if it asks for no order or there is one. -/
theorem onValues_eq_ok {op : Binary} (hop : op ∈ comparisons) {v w : Value}
    (h : op.isOrder = true → v.Comparable w) :
    ∃ b, Expr.Binary.onValues op v w = .ok (.bool b) := by
  cases op with
  | equal | notEqual => exact ⟨_, rfl⟩
  | less | lessEq | greater | greaterEq => exact ordered_eq_ok _ (h rfl)
  | _ => exact absurd hop (by decide)

theorem onValues_eq_error {op : Binary} (hop : op.isOrder = true) {v w : Value}
    (h : ¬ v.Comparable w) : Expr.Binary.onValues op v w = .error (.notComparable v w) := by
  cases op with
  | less | lessEq | greater | greaterEq => exact ordered_eq_error _ h
  | _ => cases hop

end Binary

namespace Declaration

/-! ## Chains on data -/

/-- The scale of the values at a declaration. -/
def scale? : Declaration → Option Value.Scale
  | bool => some .truth
  | int => some .number
  | double => some .number
  | string => some .text
  | list _ => none
  | map _ => none
  | object _ _ => none

/-- Data whose maps hold the keys that a chain selects from them. -/
def Provides : Declaration → Json → List String → Prop
  | _, _, [] => True
  | map d, .obj fields, key :: rest =>
    ∃ v, Fields.get? key fields = some v ∧ d.Provides v rest
  | object _ ds, .obj fields, key :: rest =>
    ∀ d v, Fields.get? key ds = some d → Fields.get? key fields = some v → d.Provides v rest
  | _, _, _ => True

theorem Everywhere.here {P : Declaration → Json → Prop} {d : Declaration} {v : Json}
    (h : d.Everywhere P v) : P d v := by
  cases h <;> assumption

/-- **Data is of the scale of its declaration.** -/
theorem scale?_convert {d : Declaration} {v : Json} (h : d.Fits v) (s : Seed) :
    (d.convert v s).scale? = d.scale? := by
  cases d <;> cases v <;> try cases h
  case int.int n =>
    have hn : int.convert (.int n) s = .int n := if_pos h
    rw [hn]; rfl
  case double.int n => exact if_neg (by rw [Value.isNaN_toDouble]; exact Bool.false_ne_true)
  case double.double x => exact if_neg (ne_true_of_eq_false h)
  all_goals rfl

/-- **A chain with a type has a value** on data that inhabits the declaration and whose maps hold
the keys of the chain, and the value inhabits the type. -/
theorem select_of_resolve {t : Declaration} (path : List String) : ∀ {d : Declaration} {v : Json},
    d.resolve path = .ok t → d.Admits v → d.Provides v path → ∀ s,
      ∃ w u, t.Admits w ∧ (d.convert v s).select path = .ok (t.convert w u) := by
  induction path with
  | nil =>
    intro d v ht hv _ s
    cases ht; exact ⟨v, s, hv, rfl⟩
  | cons key rest ih =>
    intro d v ht hv hp s
    -- where the chain goes on there is a map or an object, and the data agrees
    cases hv with
    | scalar hs _ => cases d <;> first | cases ht | cases hs
    | list _ _ => cases ht
    | map _ hvalues =>
      obtain ⟨v, hget, hp⟩ := hp
      rw [Value.select_cons_of_member (member_map hget s)]
      exact ih ht (hvalues key v hget) hp _
    | @object _ ds fields hfit hfields =>
      rw [resolve] at ht
      cases hd : Fields.get? key ds with
      | none => rw [hd] at ht; cases ht
      | some d =>
        rw [hd] at ht
        obtain ⟨v, hget⟩ :=
          Option.isSome_iff_exists.1 (hfit key (Fields.mem_names_of_get? hd))
        rw [Value.select_cons_of_member (member_object hd hget s)]
        exact ih ht (hfields key d v hd hget) (hp d v hd hget) _

end Declaration

/-! ## Operands -/

/-- **One side of a comparison.** -/
inductive Comparand where
  | literal (v : Value)
  | chain (path : List String)

namespace Comparand

/-- An operand as an expression, with chains from a variable. -/
def expr (scope : String) : Comparand → Expr
  | literal v => .literal v
  | chain path => .chain scope path

/-- The names that an operand selects. -/
def names : Comparand → List String
  | literal _ => []
  | chain path => path

/-- Data whose maps hold the keys that an operand selects from them. -/
def ProvidedBy (d : Declaration) (v : Json) : Comparand → Prop
  | literal _ => True
  | chain path => d.Provides v path

/-- The scale of an operand, if there is one: that of a literal, or that of the type of a chain. -/
def scaleOn (d : Declaration) : Comparand → Except String (Option Value.Scale)
  | literal v => .ok v.scale?
  | chain path => (d.resolve path).map Declaration.scale?

variable {env : Environment}

/-- **An operand on a sample** is of its scale, or it misses a key: the one at which it has no
scale, or one of a map that the sample was not asked to hold. -/
theorem eval_sample_cases (env : Environment) (keys : List String) (o : Comparand) (s t : Seed) :
    (∃ w, o.scaleOn env.root = .ok w.scale? ∧
      (o.expr env.scopeVariable).eval (env.bindings (env.root.sample keys) s) t = .ok w) ∨
    ∃ key ∈ o.names,
      (o.expr env.scopeVariable).eval (env.bindings (env.root.sample keys) s) t =
        .error (.noSuchKey key) ∧
      (o.scaleOn env.root = .error key ∨ env.root.containsMap = true ∧ key ∉ keys) := by
  cases o with
  | literal v => exact .inl ⟨v, rfl, by rw [expr, Expr.eval]⟩
  | chain path =>
    rw [expr, eval_chain]
    rcases Declaration.select_sample_cases keys path env.root s with
      ⟨d, u, hd, hv⟩ | ⟨key, hkey, hv, hfail⟩
    · refine .inl ⟨_, ?_, hv⟩
      rw [scaleOn, hd, Declaration.scale?_convert (Declaration.fits_sample d)]; rfl
    · exact .inr ⟨key, hkey, hv, hfail.imp_left fun h => by rw [scaleOn, h]; rfl⟩

/-- **An operand on data** is of its scale. -/
theorem eval_of_scaleOn {o : Comparand} {scale : Option Value.Scale} {v : Json}
    (hs : o.scaleOn env.root = .ok scale) (hv : env.root.Admits v)
    (hp : o.ProvidedBy env.root v) (s t : Seed) :
    ∃ w, w.scale? = scale ∧ (o.expr env.scopeVariable).eval (env.bindings v s) t = .ok w := by
  cases o with
  | literal w =>
    cases hs
    exact ⟨w, rfl, by rw [expr, Expr.eval]⟩
  | chain path =>
    rw [expr, eval_chain]
    cases ht : env.root.resolve path with
    | error key => rw [scaleOn, ht] at hs; cases hs
    | ok t =>
      rw [scaleOn, ht] at hs
      cases hs
      obtain ⟨w, u, hw, hsel⟩ := Declaration.select_of_resolve path ht hv hp s
      exact ⟨_, Declaration.scale?_convert hw.here u, hsel⟩

end Comparand

/-! ## Comparisons of operands -/

/-- **A comparison whose operands go together**: both have values, and of one scale if they are to
be ordered. -/
def Binary.Typed (op : Binary) (d : Declaration) (a b : Comparand) : Prop :=
  ∃ s t, a.scaleOn d = .ok s ∧ b.scaleOn d = .ok t ∧
    (op.isOrder = true → ∃ scale, s = some scale ∧ t = some scale)

/-- The comparison of two operands. -/
def Binary.ofComparands (op : Binary) (scope : String) (a b : Comparand) : Expr :=
  .binary op (a.expr scope) (b.expr scope)

section
variable {env : Environment} {op : Binary} {a b : Comparand}

theorem execute_ofComparands {v : Json} {s : Seed} {x y : Value}
    (ha : (a.expr env.scopeVariable).eval (env.bindings v s.here) s.next.here = .ok x)
    (hb : (b.expr env.scopeVariable).eval (env.bindings v s.here) s.next.next = .ok y) :
    env.execute (op.ofComparands env.scopeVariable a b) v s =
      Environment.contained (Expr.Binary.onValues op x y) := by
  rw [Environment.execute, Binary.ofComparands, Expr.eval, ha, hb]; rfl

/-- **A comparison on a sample.** If it goes together, it has a truth value or misses the key of a
map that the sample was not asked to hold; if not, its operands have no order or it misses a key. -/
theorem execute_sample_cases (env : Environment) (hop : op ∈ Binary.comparisons) (a b : Comparand)
    (keys : List String) (u : Seed) :
    (op.Typed env.root a b ∧ ∃ holds,
      env.execute (op.ofComparands env.scopeVariable a b) (env.root.sample keys) u =
        .ok (.bool holds)) ∨
    (¬ op.Typed env.root a b ∧ ∃ x y,
      env.execute (op.ofComparands env.scopeVariable a b) (env.root.sample keys) u =
        .error (.notComparable x y)) ∨
    ∃ key ∈ a.names ++ b.names,
      env.execute (op.ofComparands env.scopeVariable a b) (env.root.sample keys) u =
        .error (.noSuchKey key) ∧
      (¬ op.Typed env.root a b ∨ env.root.containsMap = true ∧ key ∉ keys) := by
  rcases a.eval_sample_cases env keys u.here u.next.here with
    ⟨x, hsx, hx⟩ | ⟨key, hkey, hx, hfail⟩
  · rcases b.eval_sample_cases env keys u.here u.next.next with
      ⟨y, hsy, hy⟩ | ⟨key, hkey, hy, hfail⟩
    · -- both have values, so the scales decide
      rw [execute_ofComparands hx hy]
      by_cases hcomp : op.isOrder = true → x.Comparable y
      · obtain ⟨holds, hv⟩ := Binary.onValues_eq_ok hop hcomp
        exact .inl ⟨⟨_, _, hsx, hsy, hcomp⟩, holds, by rw [hv]; rfl⟩
      · obtain ⟨horder, hno⟩ := Classical.not_imp.1 hcomp
        refine .inr (.inl ⟨?_, x, y, by rw [Binary.onValues_eq_error horder hno]; rfl⟩)
        rintro ⟨s, t, hs, ht, hscale⟩
        rw [hsx] at hs
        rw [hsy] at ht
        cases hs; cases ht; exact hcomp hscale
    · refine .inr (.inr ⟨key, List.mem_append_right _ hkey, ?_, hfail.imp_left ?_⟩)
      · rw [Environment.execute, Binary.ofComparands, Expr.eval, hx, hy]; rfl
      · rintro hno ⟨_, t, -, ht, -⟩
        rw [hno] at ht; cases ht
  · refine .inr (.inr ⟨key, List.mem_append_left _ hkey, ?_, hfail.imp_left ?_⟩)
    · rw [Environment.execute, Binary.ofComparands, Expr.eval, hx]; rfl
    · rintro hno ⟨s, _, hs, -⟩
      rw [hno] at hs; cases hs

/-- **A comparison is accepted exactly if it goes together.** -/
theorem verdict_ofComparands (env : Environment) (hop : op ∈ Binary.comparisons)
    (hlen : (a.names ++ b.names).dedup.length ≤ 16) (s : Seed) :
    env.verdict (op.ofComparands env.scopeVariable a b) s = .ok () ↔ op.Typed env.root a b := by
  have hconc : env.missed? (env.lastTrial (op.ofComparands env.scopeVariable a b) s) = none := by
    refine Environment.missed_lastTrial_eq_none (fun keys key u hkey => ?_) hlen s
    rcases execute_sample_cases env hop a b keys u with
      ⟨-, _, hx⟩ | ⟨-, _, _, hx⟩ | ⟨_, hmem, hx, -⟩
    · rw [hx] at hkey; cases hkey
    · rw [hx] at hkey; cases hkey
    · rw [hx] at hkey; cases hkey; exact hmem
  rw [Environment.verdict_of_conclusive hconc]
  rcases execute_sample_cases env hop a b
      (env.lastTrial (op.ofComparands env.scopeVariable a b) s).keys _ with
    ⟨ht, _, hx⟩ | ⟨hno, _, _, hx⟩ | ⟨key, -, hx, hfail⟩
  · rw [hx]
    exact iff_of_true rfl ht
  · rw [hx]
    exact iff_of_false (fun h => by cases h) hno
  · -- the last sample holds the keys it was to hold
    have hno : ¬ op.Typed env.root a b := hfail.resolve_right fun ⟨hm, hn⟩ =>
      hn (Environment.mem_keys_of_conclusive hconc
        ((Environment.answer_lastTrial _ _ _).trans hx) hm)
    rw [hx]
    exact iff_of_false (fun h => by cases h) hno

/-- **A comparison that goes together has a truth value** on all data that inhabits the declaration
and holds the keys. -/
theorem execute_of_typed (hop : op ∈ Binary.comparisons) (h : op.Typed env.root a b) {v : Json}
    (hv : env.root.Admits v) (ha : a.ProvidedBy env.root v) (hb : b.ProvidedBy env.root v)
    (u : Seed) :
    ∃ holds, env.execute (op.ofComparands env.scopeVariable a b) v u = .ok (.bool holds) := by
  obtain ⟨s, t, hs, ht, hscale⟩ := h
  obtain ⟨x, rfl, hx⟩ := Comparand.eval_of_scaleOn hs hv ha u.here u.next.here
  obtain ⟨y, rfl, hy⟩ := Comparand.eval_of_scaleOn ht hv hb u.here u.next.next
  obtain ⟨holds, hvalue⟩ := Binary.onValues_eq_ok (v := x) (w := y) hop hscale
  exact ⟨holds, by rw [execute_ofComparands hx hy, hvalue]; rfl⟩

end

/-- **An accepted comparison holds or fails.** On data that inhabits the declaration and whose maps
hold the keys that the operands select from them, it is never at fault. -/
theorem comparison_never_faults {d : Declaration} {scope : String}
    (hscope : isIdentifier scope = true) {rules : List Rule} {i : Nat} {rule : Rule}
    (hi : rules[i]? = some rule) {op : Binary} (hop : op ∈ Binary.comparisons) {a b : Comparand}
    (he : Expr.ofText? rule.expression = some (op.ofComparands scope a b))
    (hlen : (a.names ++ b.names).dedup.length ≤ 16) {r : CompiledRule} {s : Seed}
    (hr : (Compilation.ofRules d rules scope s).slots[i]? = some (some r)) {v : Json}
    (hv : d.Admits v) (ha : a.ProvidedBy d v) (hb : b.ProvidedBy d v) (path : String)
    (t : Seed) : r.evaluate path v t = none ∨
      r.evaluate path v t = some (.failed path rule.expression rule.failureMessage) := by
  obtain ⟨env, henv, rfl, rfl⟩ := Environment.build_of_isIdentifier hscope d
  obtain ⟨hverdict, rfl⟩ := (Compilation.getElem?_slots_eq_some_iff henv hi he).1 hr
  obtain ⟨holds, hvalue⟩ :=
    execute_of_typed hop ((verdict_ofComparands env hop hlen _).1 hverdict) hv ha hb t
  simp only [CompiledRule.evaluate, hvalue]
  cases holds with
  | true => exact .inl rfl
  | false => exact .inr rfl

/-- A whole number against a double under a key of a map, which the rule may fail. -/
theorem comparison_with_map_never_faults :
    ∃ r, (Compilation.ofRules (.object "self" [("count", .int), ("limits", .map .double)])
        [⟨"self.count <= self.limits.cpu", ""⟩] "self" .standard).slots[0]? = some (some r) ∧
      (r.evaluate "" (.obj [("count", .int 2), ("limits", .obj [("cpu", .int 1)])]) .standard =
          none ∨
        r.evaluate "" (.obj [("count", .int 2), ("limits", .obj [("cpu", .int 1)])]) .standard =
          some (.failed "" "self.count <= self.limits.cpu"
            "failed rule: self.count <= self.limits.cpu")) := by
  have hscope : isIdentifier "self" = true := by decide +kernel
  have he : Expr.ofText? (Rule.mk "self.count <= self.limits.cpu" "").expression =
      some (Binary.lessEq.ofComparands "self" (.chain ["count"]) (.chain ["limits", "cpu"])) :=
    Expr.ofText?_of_scan [.ident "self", .mark ".", .ident "count", .mark "<=", .ident "self",
      .mark ".", .ident "limits", .mark ".", .ident "cpu"] (by decide +kernel) rfl
  have hi : [Rule.mk "self.count <= self.limits.cpu" ""][0]? =
    some (Rule.mk "self.count <= self.limits.cpu" "") := rfl
  have henv : Environment.build (.object "self" [("count", .int), ("limits", .map .double)])
      "self" = .ok _ := if_pos hscope
  have hr := (Compilation.getElem?_slots_eq_some_iff (s := .standard) henv hi he).2 ⟨rfl, rfl⟩
  have hv : Declaration.Admits (.object "self" [("count", .int), ("limits", .map .double)])
      (.obj [("count", .int 2), ("limits", .obj [("cpu", .int 1)])]) := by
    refine .object (by simp [Declaration.Fits, Fields.names, Fields.has, Fields.get?]) ?_
    intro key d v hd hv
    simp only [Fields.get?, ite_eq_iff, Option.some.injEq, reduceCtorEq, and_false, or_false] at hd
    rcases hd with ⟨rfl, rfl⟩ | ⟨-, rfl, rfl⟩
    · cases hv
      exact .scalar rfl (by decide : Value.isInt 2 = true)
    · cases hv
      refine .map trivial fun key v hv => ?_
      simp only [Fields.get?, Option.ite_none_right_eq_some, Option.some.injEq] at hv
      rw [← hv.2]
      exact .scalar rfl trivial
  have hcpu : Declaration.Provides (.object "self" [("count", .int), ("limits", .map .double)])
      (.obj [("count", .int 2), ("limits", .obj [("cpu", .int 1)])]) ["limits", "cpu"] := by
    simp [Declaration.Provides, Fields.get?]
  exact ⟨_, hr, comparison_never_faults hscope hi (by decide) he (by decide) hr hv
    (by simp [Comparand.ProvidedBy, Declaration.Provides]) hcpu "" .standard⟩

end SchemaRules
