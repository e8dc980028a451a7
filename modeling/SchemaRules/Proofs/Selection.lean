import SchemaRules.Proofs.Trials

/-!
# Member selections are typed by their trials

A chain of member selections `s.k1.k2…` from the scope variable can be typed along the
declaration: an object goes on with its field, a map with its values at any key.

* `Declaration.resolve`: the declaration at the end of a chain, or the key at which it fails.
* `select_sample_cases`: on a sample, a chain has the sample of that declaration as its value, or
  it misses the key at which it fails, or a key that the maps do not hold yet.
* `verdict_chain`: **the verdict on a chain is its type**.
* `chain_compiles_iff`: the same of a rule in a list of rules.
-/

namespace SchemaRules

namespace Expr

/-- **Members selected one behind the other** from a variable. -/
def chain (x : String) (path : List String) : Expr :=
  path.foldl member (name x)

end Expr

namespace Value

/-- The member of the member, and so on. -/
def select : Value → List String → Answer
  | v, [] => .ok v
  | v, key :: rest => do (← v.member key).select rest

end Value

namespace Declaration

/-- **The declaration at the end of a chain**, or the key that cannot be selected. -/
def resolve : Declaration → List String → Except String Declaration
  | d, [] => .ok d
  | object _ ds, key :: rest =>
    match Fields.get? key ds with
    | some d => d.resolve rest
    | none => .error key
  | map d, _ :: rest => d.resolve rest
  | _, key :: _ => .error key

/-- The kind of the values at a declaration. -/
def kindName : Declaration → String
  | bool => "bool"
  | int => "int"
  | double => "double"
  | string => "string"
  | list _ => "list"
  | map _ => "map"
  | object _ _ => "map"

end Declaration

/-! ## Selecting from a value -/

namespace Value

theorem select_cons_of_member {v w : Value} {key : String} (h : v.member key = .ok w)
    (rest : List String) : v.select (key :: rest) = w.select rest := by
  rw [select, h]; rfl

theorem select_cons_of_missing {v : Value} {key : String}
    (h : v.member key = .error (.noSuchKey key)) (rest : List String) :
    v.select (key :: rest) = .error (.noSuchKey key) := by
  rw [select, h]; rfl

end Value

/-- The value of a chain behind an expression that builds no maps. -/
theorem eval_foldl_member (scope : Scope) (path : List String) : ∀ {e : Expr} {a : Answer},
    (∀ s, e.eval scope s = a) →
      ∀ s, (path.foldl Expr.member e).eval scope s = a >>= fun v => v.select path := by
  induction path with
  | nil =>
    intro e a he s
    rw [List.foldl_nil, he]
    cases a <;> rfl
  | cons key rest ih =>
    intro e a he s
    have hmember : ∀ t, (e.member key).eval scope t = a >>= fun v => v.member key := by
      intro t
      rw [Expr.eval, he]
    rw [List.foldl_cons, ih hmember]
    cases a <;> rfl

/-- **A chain from the scope variable** selects from the whole value. -/
theorem eval_chain (env : Environment) (path : List String) (v : Json) (s t : Seed) :
    (Expr.chain env.scopeVariable path).eval (env.bindings v s) t =
      (env.root.convert v s).select path := by
  refine eval_foldl_member _ path (a := .ok (env.root.convert v s)) (fun u => ?_) t
  rw [Expr.eval, Environment.bindings, List.lookup_cons_self]

/-! ## Members of converted data -/

/-- What is under a key of a map is made of what is under it in the fields. -/
theorem Value.lookup?_map {α : Type} (f : String → α → Value) (key : String) (fields : Fields α) :
    Value.lookup? (.str key) (fields.map fun e => (.str e.1, f e.1 e.2)) =
      (Fields.get? key fields).map (f key) := by
  induction fields with
  | nil => rfl
  | cons e rest ih =>
    obtain ⟨k, v⟩ := e
    simp only [List.map_cons, Value.lookup?, Fields.get?, Key.str.injEq]
    split
    · next hk => subst hk; rfl
    · exact ih

namespace Declaration

theorem lookup?_convertValues (d : Declaration) (key : String) (fields : List (String × Json))
    (s : Seed) : Value.lookup? (.str key) (convertValues d fields s) =
      (Fields.get? key fields).map fun v => d.convert v (s.under key) := by
  rw [convertValues_eq_map]
  exact Value.lookup?_map (fun k v => d.convert v (s.under k)) key fields

theorem lookup?_convertFields {ds : List (String × Declaration)} {key : String} {d : Declaration}
    (h : Fields.get? key ds = some d) (fields : List (String × Json)) (s : Seed) :
    Value.lookup? (.str key) (convertFields ds fields s) =
      (Fields.get? key fields).map fun v => d.convert v (s.under key) := by
  have hfield : ∀ v t, convertField ds key v t = d.convert v t := by
    intro v t
    rw [convertField, h]
  rw [convertFields_eq_map, Value.lookup?_map fun k v => convertField ds k v (s.under k)]
  simp only [hfield]

theorem lookup?_convertFields_eq_none {ds : List (String × Declaration)} {key : String}
    {fields : List (String × Json)} (h : Fields.get? key fields = none) (s : Seed) :
    Value.lookup? (.str key) (convertFields ds fields s) = none := by
  rw [convertFields_eq_map, Value.lookup?_map fun k v => convertField ds k v (s.under k), h]
  rfl

/-- **A member of a map** is the data under its key, at the declared values. -/
theorem member_map {d : Declaration} {fields : List (String × Json)} {key : String} {v : Json}
    (h : Fields.get? key fields = some v) (s : Seed) :
    ((map d).convert (.obj fields) s).member key = .ok (d.convert v (s.under key)) := by
  simp only [convert, Value.member, Seed.lookup?_arrange, lookup?_convertValues, h,
    Option.map_some]

theorem member_map_eq_error {d : Declaration} {fields : List (String × Json)} {key : String}
    (h : Fields.get? key fields = none) (s : Seed) :
    ((map d).convert (.obj fields) s).member key = .error (.noSuchKey key) := by
  simp only [convert, Value.member, Seed.lookup?_arrange, lookup?_convertValues, h,
    Option.map_none]

/-- **A member of an object** is the data of its field, at the declared one. -/
theorem member_object {name : String} {ds : List (String × Declaration)} {d : Declaration}
    {fields : List (String × Json)} {key : String} {v : Json} (hd : Fields.get? key ds = some d)
    (h : Fields.get? key fields = some v) (s : Seed) :
    ((object name ds).convert (.obj fields) s).member key = .ok (d.convert v (s.under key)) := by
  simp only [convert, Value.member, Seed.lookup?_arrange, lookup?_convertFields hd, h,
    Option.map_some]

theorem member_object_eq_error {name : String} {ds : List (String × Declaration)}
    {fields : List (String × Json)} {key : String} (h : Fields.get? key fields = none)
    (s : Seed) : ((object name ds).convert (.obj fields) s).member key =
      .error (.noSuchKey key) := by
  simp only [convert, Value.member, Seed.lookup?_arrange, lookup?_convertFields_eq_none h]

/-! ## Chains on a sample -/

theorem containsMapFields_iff {ds : List (String × Declaration)} :
    containsMapFields ds = true ↔ ∃ e ∈ ds, e.2.containsMap = true := by
  induction ds with
  | nil => simp [containsMapFields]
  | cons e rest ih => simp only [containsMapFields, Bool.or_eq_true, ih, List.exists_mem_cons_iff]

/-- **A chain on a sample.** Where it has a type, its value is the sample of the type. Where it has
none, the key at fault is missing; and so may be the key of a map that the sample was not asked to
hold. -/
theorem select_sample_cases (keys : List String) (path : List String) :
    ∀ (d : Declaration) (s : Seed),
    (∃ t u, d.resolve path = .ok t ∧
      (d.convert (d.sample keys) s).select path = .ok (t.convert (t.sample keys) u)) ∨
    ∃ key ∈ path, (d.convert (d.sample keys) s).select path = .error (.noSuchKey key) ∧
      (d.resolve path = .error key ∨ d.containsMap = true ∧ key ∉ keys) := by
  induction path with
  | nil => intro d s; exact .inl ⟨d, s, rfl, rfl⟩
  | cons key rest ih =>
    intro d s
    cases d with
    | bool | int | double | string | list d =>
      exact .inr ⟨key, List.mem_cons_self, rfl, .inl rfl⟩
    | map d =>
      -- the map holds the empty key and those it was asked to hold
      obtain ⟨fields, hs, hget⟩ := sample_map keys d
      rw [hs]
      have hkey := hget key
      split at hkey
      · rw [Value.select_cons_of_member (member_map hkey s), resolve]
        rcases ih d (s.under key) with ⟨t, u, ht, hv⟩ | ⟨k, hk, hv, hfail⟩
        · exact .inl ⟨t, u, ht, hv⟩
        · exact .inr ⟨k, List.mem_cons_of_mem _ hk, hv, hfail.imp_right fun h => ⟨rfl, h.2⟩⟩
      · next hmiss =>
        rw [not_or] at hmiss
        exact .inr ⟨key, List.mem_cons_self,
          Value.select_cons_of_missing (member_map_eq_error hkey s) rest, .inr ⟨rfl, hmiss.2⟩⟩
    | object name ds =>
      have hfield := get?_sampleFields keys key ds
      cases hd : Fields.get? key ds with
      | none =>
        rw [hd] at hfield
        exact .inr ⟨key, List.mem_cons_self,
          Value.select_cons_of_missing (member_object_eq_error hfield s) rest,
          .inl (by rw [resolve, hd])⟩
      | some d =>
        rw [hd] at hfield
        have hres : (object name ds).resolve (key :: rest) = d.resolve rest := by
          rw [resolve, hd]
        rw [sample, Value.select_cons_of_member (member_object hd hfield s), hres]
        rcases ih d (s.under key) with ⟨t, u, ht, hv⟩ | ⟨k, hk, hv, hfail⟩
        · exact .inl ⟨t, u, ht, hv⟩
        · exact .inr ⟨k, List.mem_cons_of_mem _ hk, hv,
            hfail.imp_right fun h =>
              ⟨containsMapFields_iff.2 ⟨_, Fields.mem_of_get? hd, h.1⟩, h.2⟩⟩

/-- What an evaluation on a sample says, once it has a value. -/
theorem judge_sample (keys : List String) (t : Declaration) (s : Seed) :
    Environment.judge (.ok (t.convert (t.sample keys) s)) = match t with
    | bool => .ok ()
    | t => .error s!"rule must evaluate to bool, got {t.kindName}" := by
  cases t <;> rfl

end Declaration

/-! ## The verdict -/

open Declaration Environment in
/-- **The verdict on a chain is its type**: a truth value passes, any other type is named, and a
chain without a type misses the key at which it fails. -/
theorem verdict_chain (env : Environment) {path : List String} (hlen : path.dedup.length ≤ 16)
    (s : Seed) : env.verdict (.chain env.scopeVariable path) s =
      match env.root.resolve path with
      | .ok .bool => .ok ()
      | .ok t => .error s!"rule must evaluate to bool, got {t.kindName}"
      | .error key => .error s!"No such key: {key}" := by
  have hexec : ∀ v t, env.execute (.chain env.scopeVariable path) v t =
      contained ((env.root.convert v t.here).select path) := fun v t => by
    rw [execute, eval_chain]
  have hconc : env.missed? (env.lastTrial (.chain env.scopeVariable path) s) = none := by
    refine missed_lastTrial_eq_none (fun keys key t h => ?_) hlen s
    rw [hexec] at h
    rcases select_sample_cases keys path env.root t.here with ⟨_, _, -, hv⟩ | ⟨k, hk, hv, -⟩
    · rw [hv] at h; cases h
    · rw [hv] at h; cases h; exact hk
  rw [verdict_of_conclusive hconc, hexec]
  rcases select_sample_cases _ path env.root _ with ⟨t, u, ht, hv⟩ | ⟨k, -, hv, hfail⟩
  · rw [hv, ht]
    exact (judge_sample _ t u).trans (by cases t <;> rfl)
  · -- a conclusive trial misses no key that it could have held
    have hres : env.root.resolve path = .error k := by
      refine hfail.resolve_right fun ⟨hm, hn⟩ => hn ?_
      refine mem_keys_of_conclusive hconc ?_ hm
      rw [answer_lastTrial, hexec, hv]; rfl
    rw [hv, hres]; rfl

open Compilation in
/-- **A chain compiles exactly if it resolves to a truth value.** A chain of another type is
rejected by the name of its kind, one without a type by the key at which it fails. -/
theorem chain_compiles_iff {d : Declaration} {scope : String} (hscope : isIdentifier scope = true)
    {rules : List Rule} {i : Nat} {rule : Rule} (hi : rules[i]? = some rule) {path : List String}
    (he : Expr.ofText? rule.expression = some (.chain scope path))
    (hlen : path.dedup.length ≤ 16) (s : Seed) :
    ((∃ r, (ofRules d rules scope s).slots[i]? = some (some r)) ↔ d.resolve path = .ok .bool) ∧
    (∀ t, d.resolve path = .ok t → t ≠ .bool →
      CompileError.rejected i rule
        (.diagnosed s!"rule must evaluate to bool, got {t.kindName}") ∈
          (ofRules d rules scope s).errors) ∧
    (∀ key, d.resolve path = .error key →
      CompileError.rejected i rule (.diagnosed s!"No such key: {key}") ∈
        (ofRules d rules scope s).errors) := by
  obtain ⟨env, henv, rfl, rfl⟩ := Environment.build_of_isIdentifier hscope d
  have hverdict := verdict_chain env hlen (s.item i)
  refine ⟨?_, fun t ht hb => ?_, fun key hkey => ?_⟩
  · simp only [getElem?_slots_eq_some_iff henv hi he, exists_and_left, exists_eq, and_true]
    rw [hverdict]
    cases env.root.resolve path with
    | error key => simp
    | ok t => cases t <;> simp
  · refine mem_errors_of_verdict henv hi he (hverdict.trans ?_)
    rw [ht]
    cases t with
    | bool => exact absurd rfl hb
    | _ => rfl
  · exact mem_errors_of_verdict henv hi he (hverdict.trans (by rw [hkey]))

/-- A truth value under a key of a map. -/
theorem chain_through_map_compiles :
    ∃ r, (Compilation.ofRules (.object "self" [("labels", .map .bool)])
      [⟨"self.labels.ready", "not ready"⟩] "self" .standard).slots[0]? = some (some r) := by
  have hscope : isIdentifier "self" = true := by decide +kernel
  have he : Expr.ofText? (Rule.mk "self.labels.ready" "not ready").expression =
      some (.chain "self" ["labels", "ready"]) :=
    Expr.ofText?_of_scan [.ident "self", .mark ".", .ident "labels", .mark ".", .ident "ready"]
      (by decide +kernel) rfl
  have hi : [Rule.mk "self.labels.ready" "not ready"][0]? =
    some (Rule.mk "self.labels.ready" "not ready") := rfl
  exact (chain_compiles_iff hscope hi he (by decide) .standard).1.2 (by simp [Declaration.resolve])

end SchemaRules
