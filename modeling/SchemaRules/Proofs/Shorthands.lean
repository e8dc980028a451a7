import SchemaRules.Proofs.Conversions
import SchemaRules.Proofs.Dependence

/-!
# Shorthands of fields

A field of an object is a variable beside the scope variable, so a rule has two ways to it. Both
lead to the data of the field at its declaration, once alone and once as the member of the whole. It
is built both times, so the maps in it may stand in two orders.

* `Expr.qualify`: **the expression that reads names as members** of a variable. A name that a macro
  binds is left as it is where it is bound.
* `mem_freeNames_qualify_iff`: the names are not free in it, and all others stay.
* `Expr.HasMembers`: the variable has the values of the names as its members; `eval_qualify`:
  **in such a scope both expressions have the same outcome**.
* `Environment.presentShorthands`: the shorthands that an instance has, and
  `shorthands_are_fields`: **each of them is interchangeable with its field**, up to the orders of
  maps; `keys_come_in_two_orders`: **these can make a difference**.
-/

namespace SchemaRules

namespace Expr

/-! ## Names as members -/

mutual
/-- **The expression that reads names as members** of the variable `s`, where they are free. -/
def qualify (s : String) (names : List String) : Expr → Expr
  | literal v => .literal v
  | name x => if x ∈ names then .member (.name s) x else .name x
  | member e field => .member (e.qualify s names) field
  | has e field => .has (e.qualify s names) field
  | call target function args =>
    .call (qualifyOption s names target) function (qualifyList s names args)
  | unary op e => .unary op (e.qualify s names)
  | binary op a b => .binary op (a.qualify s names) (b.qualify s names)
  | or a b => .or (a.qualify s names) (b.qualify s names)
  | and a b => .and (a.qualify s names) (b.qualify s names)
  | choice c a b => .choice (c.qualify s names) (a.qualify s names) (b.qualify s names)
  | list items => .list (qualifyList s names items)
  | map entries => .map (qualifyEntries s names entries)
  | message type fields => .message type (qualifyFields s names fields)
  | quantified q range x p =>
    .quantified q (range.qualify s names) x (p.qualify s (names.filter (· ≠ x)))
  | collect range x p f =>
    .collect (range.qualify s names) x (p.qualify s (names.filter (· ≠ x)))
      (f.qualify s (names.filter (· ≠ x)))
/-- A receiver that may be left out. -/
def qualifyOption (s : String) (names : List String) : Option Expr → Option Expr
  | none => none
  | some e => some (e.qualify s names)
/-- Some expressions, each on its own. -/
def qualifyList (s : String) (names : List String) : List Expr → List Expr
  | [] => []
  | e :: rest => e.qualify s names :: qualifyList s names rest
/-- The keys and values of entries. -/
def qualifyEntries (s : String) (names : List String) : List (Expr × Expr) → List (Expr × Expr)
  | [] => []
  | (k, v) :: rest => (k.qualify s names, v.qualify s names) :: qualifyEntries s names rest
/-- The values of fields. -/
def qualifyFields (s : String) (names : List String) :
    List (String × Expr) → List (String × Expr)
  | [] => []
  | (k, v) :: rest => (k, v.qualify s names) :: qualifyFields s names rest
end

mutual
/-- **The names that macros bind** somewhere in an expression. -/
def boundNames : Expr → List String
  | literal _ => []
  | name _ => []
  | member e _ => e.boundNames
  | has e _ => e.boundNames
  | call target _ args => boundNamesOption target ++ boundNamesList args
  | unary _ e => e.boundNames
  | binary _ a b => a.boundNames ++ b.boundNames
  | or a b => a.boundNames ++ b.boundNames
  | and a b => a.boundNames ++ b.boundNames
  | choice c a b => c.boundNames ++ a.boundNames ++ b.boundNames
  | list items => boundNamesList items
  | map entries => boundNamesEntries entries
  | message _ fields => boundNamesFields fields
  | quantified _ range x p => x :: (range.boundNames ++ p.boundNames)
  | collect range x p f => x :: (range.boundNames ++ p.boundNames ++ f.boundNames)
/-- The bound names of a receiver that may be left out. -/
def boundNamesOption : Option Expr → List String
  | none => []
  | some e => e.boundNames
/-- The bound names of some expressions. -/
def boundNamesList : List Expr → List String
  | [] => []
  | e :: rest => e.boundNames ++ boundNamesList rest
/-- The bound names of the keys and values of entries. -/
def boundNamesEntries : List (Expr × Expr) → List String
  | [] => []
  | (k, v) :: rest => k.boundNames ++ v.boundNames ++ boundNamesEntries rest
/-- The bound names of the values of fields. -/
def boundNamesFields : List (String × Expr) → List String
  | [] => []
  | (_, v) :: rest => v.boundNames ++ boundNamesFields rest
end

/-! ## Free names -/

section FreeNames

variable {s y : String}

mutual
/-- **The names are not free any more**, and all others stay. -/
theorem mem_freeNames_qualify_iff (hy : y ≠ s) : ∀ {e : Expr} {names : List String},
    y ∈ (e.qualify s names).freeNames ↔ y ∈ e.freeNames ∧ y ∉ names
  | .literal _, names => by simp [qualify, freeNames]
  | .name x, names => by
    rw [qualify]
    split
    · next hx =>
      simp only [freeNames, List.mem_singleton, hy, false_iff, not_and, Classical.not_not]
      rintro rfl
      exact hx
    · next hx =>
      simp only [freeNames, List.mem_singleton, iff_self_and]
      rintro rfl
      exact hx
  | .member e _, names | .has e _, names | .unary _ e, names =>
    mem_freeNames_qualify_iff hy (e := e)
  | .call target _ args, names => by
    simp only [qualify, freeNames, List.mem_append, or_and_right,
      mem_freeNamesOption_qualify_iff hy, mem_freeNamesList_qualify_iff hy]
  | .binary _ a b, names | .or a b, names | .and a b, names | .choice c a b, names => by
    simp only [qualify, freeNames, List.mem_append, or_and_right, mem_freeNames_qualify_iff hy]
  | .list items, names => mem_freeNamesList_qualify_iff hy
  | .map entries, names => mem_freeNamesEntries_qualify_iff hy
  | .message _ fields, names => mem_freeNamesFields_qualify_iff hy
  -- the name that the binder hides is not free below it, and it is not replaced there
  | .quantified _ range x p, names | .collect range x p f, names => by
    simp only [qualify, freeNames, List.mem_append, or_and_right, List.mem_filter,
      mem_freeNames_qualify_iff hy, decide_eq_true_eq]
    grind
theorem mem_freeNamesOption_qualify_iff (hy : y ≠ s) :
    ∀ {target : Option Expr} {names : List String},
      y ∈ freeNamesOption (qualifyOption s names target) ↔ y ∈ freeNamesOption target ∧ y ∉ names
  | none, names => by simp [qualifyOption, freeNamesOption]
  | some e, names => mem_freeNames_qualify_iff hy (e := e)
theorem mem_freeNamesList_qualify_iff (hy : y ≠ s) : ∀ {items : List Expr} {names : List String},
    y ∈ freeNamesList (qualifyList s names items) ↔ y ∈ freeNamesList items ∧ y ∉ names
  | [], names => by simp [qualifyList, freeNamesList]
  | e :: rest, names => by
    simp only [qualifyList, freeNamesList, List.mem_append, or_and_right,
      mem_freeNames_qualify_iff hy, mem_freeNamesList_qualify_iff hy]
theorem mem_freeNamesEntries_qualify_iff (hy : y ≠ s) :
    ∀ {entries : List (Expr × Expr)} {names : List String},
      y ∈ freeNamesEntries (qualifyEntries s names entries) ↔
        y ∈ freeNamesEntries entries ∧ y ∉ names
  | [], names => by simp [qualifyEntries, freeNamesEntries]
  | (k, v) :: rest, names => by
    simp only [qualifyEntries, freeNamesEntries, List.mem_append, or_and_right,
      mem_freeNames_qualify_iff hy, mem_freeNamesEntries_qualify_iff hy]
theorem mem_freeNamesFields_qualify_iff (hy : y ≠ s) :
    ∀ {fields : List (String × Expr)} {names : List String},
      y ∈ freeNamesFields (qualifyFields s names fields) ↔ y ∈ freeNamesFields fields ∧ y ∉ names
  | [], names => by simp [qualifyFields, freeNamesFields]
  | (_, v) :: rest, names => by
    simp only [qualifyFields, freeNamesFields, List.mem_append, or_and_right,
      mem_freeNames_qualify_iff hy, mem_freeNamesFields_qualify_iff hy]
end

end FreeNames

/-! ## Scopes -/

variable {scope : Scope} {s : String} {names free more : List String}

/-- **A variable has the values of names as its members**, of those that are free somewhere. -/
def HasMembers (scope : Scope) (s : String) (names free : List String) : Prop :=
  ∃ w, scope.lookup s = some w ∧
    ∀ x ∈ names, x ∈ free → ∃ v, scope.lookup x = some v ∧ w.member x = .ok v

theorem hasMembers_append_iff : HasMembers scope s names (free ++ more) ↔
    HasMembers scope s names free ∧ HasMembers scope s names more := by
  constructor
  · rintro ⟨w, hw, h⟩
    exact ⟨⟨w, hw, fun x hx hfree => h x hx (List.mem_append_left _ hfree)⟩,
      ⟨w, hw, fun x hx hmore => h x hx (List.mem_append_right _ hmore)⟩⟩
  · rintro ⟨⟨w, hw, hfree⟩, ⟨u, hu, hmore⟩⟩
    obtain rfl := Option.some.inj (hw.symm.trans hu)
    exact ⟨w, hw, fun x hx h => (List.mem_append.1 h).elim (hfree x hx) (hmore x hx)⟩

/-- A binder hides one name, and not the variable. -/
theorem HasMembers.bind {x : String} (h : HasMembers scope s names (free.filter (· ≠ x)))
    (hx : s ≠ x) (v : Value) : HasMembers ((x, v) :: scope) s (names.filter (· ≠ x)) free := by
  obtain ⟨w, hw, hnames⟩ := h
  refine ⟨w, ?_, fun y hy hfree => ?_⟩
  · rw [Scope.lookup_cons_of_ne hx]
    exact hw
  · obtain ⟨hmem, hne⟩ := List.mem_filter.1 hy
    obtain ⟨u, hu, hmember⟩ := hnames y hmem (List.mem_filter.2 ⟨hfree, hne⟩)
    refine ⟨u, ?_, hmember⟩
    rw [Scope.lookup_cons_of_ne (of_decide_eq_true hne)]
    exact hu

theorem HasMembers.eval_name {x : String} (h : HasMembers scope s names [x]) (t : Seed) :
    eval scope ((Expr.name x).qualify s names) t = eval scope (.name x) t := by
  rw [qualify]
  split
  · next hx =>
    obtain ⟨w, hw, hnames⟩ := h
    obtain ⟨v, hv, hmember⟩ := hnames x hx (List.mem_singleton_self x)
    simp only [eval, hw, hv]
    exact hmember
  · rfl

/-! ## Evaluation -/

mutual
/-- **Names and members have the same outcome** where the variable has the members and no macro
binds the variable. -/
theorem eval_qualify : ∀ {e : Expr} {scope : Scope} {names : List String},
    HasMembers scope s names e.freeNames → s ∉ e.boundNames →
      ∀ t, eval scope (e.qualify s names) t = eval scope e t
  -- over the tree, for all scopes and names: below a binder there are one variable more and one
  -- name less, and the variable still has the members
  | .literal _, _, _, _, _ => fun _ => rfl
  | .name x, _, _, h, _ => h.eval_name
  | .member e _, _, _, h, hs | .has e _, _, _, h, hs | .unary .not e, _, _, h, hs
  | .unary .negate e, _, _, h, hs => by
    rw [boundNames] at hs
    rw [freeNames] at h
    intro t
    rw [qualify, eval, eval, eval_qualify h hs]
  | .binary _ a b, _, _, h, hs | .or a b, _, _, h, hs | .and a b, _, _, h, hs => by
    rw [boundNames, List.mem_append, not_or] at hs
    rw [freeNames, hasMembers_append_iff] at h
    intro t
    rw [qualify, eval, eval, eval_qualify h.1 hs.1, eval_qualify h.2 hs.2]
  | .call target function args, _, _, h, hs => by
    rw [boundNames, List.mem_append, not_or] at hs
    rw [freeNames, hasMembers_append_iff] at h
    intro t
    rw [qualify, eval, eval, evalTarget_qualify h.1 hs.1, evalArgs_qualify h.2 hs.2]
  | .choice c a b, _, _, h, hs => by
    rw [boundNames, List.mem_append, List.mem_append, not_or, not_or] at hs
    rw [freeNames, hasMembers_append_iff, hasMembers_append_iff] at h
    intro t
    rw [qualify, eval, eval, eval_qualify h.1.1 hs.1.1, eval_qualify h.1.2 hs.1.2,
      eval_qualify h.2 hs.2]
  | .list items, _, _, h, hs => by
    intro t
    rw [qualify, eval, eval, evalItems_qualify h hs]
  | .map entries, _, _, h, hs => by
    intro t
    rw [qualify, eval, eval, evalEntries_qualify h hs]
  | .message _ _, _, _, _, _ => by
    intro t
    rw [qualify, eval, eval]
  | .quantified q range x p, scope, names, h, hs => by
    rw [boundNames, List.mem_cons, List.mem_append, not_or, not_or] at hs
    obtain ⟨hx, hrange, hp⟩ := hs
    rw [freeNames, hasMembers_append_iff] at h
    have hsame : ∀ v t, eval ((x, v) :: scope) (p.qualify s (names.filter (· ≠ x))) t =
        eval ((x, v) :: scope) p t := fun v => eval_qualify (h.2.bind hx v) hp
    intro t
    rw [qualify, eval, eval, eval_qualify h.1 hrange]
    simp only [hsame]
  | .collect range x p f, scope, names, h, hs => by
    rw [boundNames, List.mem_cons, List.mem_append, List.mem_append, not_or, not_or, not_or] at hs
    obtain ⟨hx, ⟨hrange, hp⟩, hf⟩ := hs
    rw [freeNames, hasMembers_append_iff] at h
    have hbind := fun v => hasMembers_append_iff.1 (h.2.bind hx v)
    have hsame : ∀ v t, eval ((x, v) :: scope) (p.qualify s (names.filter (· ≠ x))) t =
        eval ((x, v) :: scope) p t := fun v => eval_qualify (hbind v).1 hp
    have hsame' : ∀ v t, eval ((x, v) :: scope) (f.qualify s (names.filter (· ≠ x))) t =
        eval ((x, v) :: scope) f t := fun v => eval_qualify (hbind v).2 hf
    intro t
    rw [qualify, eval, eval, eval_qualify h.1 hrange]
    simp only [hsame, hsame']
theorem evalTarget_qualify : ∀ {target : Option Expr} {scope : Scope} {names : List String},
    HasMembers scope s names (freeNamesOption target) → s ∉ boundNamesOption target →
      ∀ t, evalTarget scope (qualifyOption s names target) t = evalTarget scope target t
  | none, _, _, _, _ => fun _ => rfl
  | some e, _, _, h, hs => by
    intro t
    rw [qualifyOption, evalTarget, evalTarget, eval_qualify h hs]
theorem evalArgs_qualify : ∀ {args : List Expr} {scope : Scope} {names : List String},
    HasMembers scope s names (freeNamesList args) → s ∉ boundNamesList args →
      ∀ t, evalArgs scope (qualifyList s names args) t = evalArgs scope args t
  | [], _, _, _, _ => fun _ => rfl
  | e :: rest, _, _, h, hs => by
    rw [boundNamesList, List.mem_append, not_or] at hs
    rw [freeNamesList, hasMembers_append_iff] at h
    intro t
    rw [qualifyList, evalArgs, evalArgs, eval_qualify h.1 hs.1, evalArgs_qualify h.2 hs.2]
theorem evalItems_qualify : ∀ {items : List Expr} {scope : Scope} {names : List String},
    HasMembers scope s names (freeNamesList items) → s ∉ boundNamesList items →
      ∀ t, evalItems scope (qualifyList s names items) t = evalItems scope items t
  | [], _, _, _, _ => fun _ => rfl
  | e :: rest, _, _, h, hs => by
    rw [boundNamesList, List.mem_append, not_or] at hs
    rw [freeNamesList, hasMembers_append_iff] at h
    intro t
    rw [qualifyList, evalItems, evalItems, eval_qualify h.1 hs.1, evalItems_qualify h.2 hs.2]
theorem evalEntries_qualify : ∀ {entries : List (Expr × Expr)} {scope : Scope}
    {names : List String} {found : List (Key × Value)},
    HasMembers scope s names (freeNamesEntries entries) → s ∉ boundNamesEntries entries →
      ∀ t, evalEntries scope (qualifyEntries s names entries) found t =
        evalEntries scope entries found t
  | [], _, _, _, _, _ => fun _ => rfl
  | (k, v) :: rest, _, _, _, h, hs => by
    rw [boundNamesEntries, List.mem_append, List.mem_append, not_or, not_or] at hs
    rw [freeNamesEntries, hasMembers_append_iff, hasMembers_append_iff] at h
    intro t
    rw [qualifyEntries, evalEntries, evalEntries, eval_qualify h.1.1 hs.1.1,
      eval_qualify h.1.2 hs.1.2]
    simp only [evalEntries_qualify h.2 hs.2]
end

end Expr

namespace Seed

/-- The seed by which what is built beside is built like the whole. -/
def mirror (s : Seed) : Seed :=
  join (s.first []) fun
    | .apart => s
    | p => s.part p

end Seed

/-! ## Environments of objects -/

namespace Environment

variable {name scope x : String} {ds : List (String × Declaration)} {env : Environment}
  {d : Declaration} {fields : Fields Json} {s : Seed}

/-- **The shorthands of the fields that an instance has.** -/
def presentShorthands (env : Environment) (fields : Fields Json) : List String :=
  (Fields.names env.shorthands).filter fun x => Fields.has x fields

/-- **The fields that an expression names became the same values both times**, alone and in the
whole. -/
def SameValues (env : Environment) (e : Expr) (fields : Fields Json) (s : Seed) : Prop :=
  ∀ x ∈ e.freeNames, ∀ d v, Fields.get? x env.shorthands = some d →
    Fields.get? x fields = some v → d.convert v (s.apart.under x) = d.convert v (s.under x)

/-- A shorthand is a field of the declaration, and not the scope variable. -/
theorem field_of_shorthand (henv : build (.object name ds) scope = .ok env)
    (hx : Fields.get? x env.shorthands = some d) : x ≠ scope ∧ Fields.get? x ds = some d := by
  rw [get?_shorthands henv, Option.ite_none_right_eq_some, isShorthand, Bool.and_eq_true,
    bne_iff_ne] at hx
  exact ⟨hx.1.1, hx.2⟩

/-- **The scope variable has the present shorthands as its members**, if the fields became the same
values both times. -/
theorem hasMembers_bindings (henv : build (.object name ds) scope = .ok env) {e : Expr}
    (h : env.SameValues e fields s) : Expr.HasMembers (env.bindings (.obj fields) s) scope
      (env.presentShorthands fields) e.freeNames := by
  obtain ⟨-, rfl, hroot⟩ := build_eq_ok henv
  refine ⟨env.root.convert (.obj fields) s, List.lookup_cons_self, fun x hx hfree => ?_⟩
  obtain ⟨hname, hhas⟩ := List.mem_filter.1 hx
  obtain ⟨d, hd⟩ := Option.isSome_iff_exists.1 (Fields.has_iff.2 hname)
  obtain ⟨v, hv⟩ := Option.isSome_iff_exists.1 hhas
  obtain ⟨hne, hfield⟩ := field_of_shorthand henv hd
  -- the field alone and the field of the whole are converted at one declaration
  refine ⟨d.convert v (s.under x), ?_, ?_⟩
  · rw [lookup_bindings hne, hd, Option.bind_some, hv, Option.map_some, h x hfree d v hd hv]
  · rw [hroot]
    exact Declaration.member_object hfield hv s

theorem execute_qualify (henv : build (.object name ds) scope = .ok env) {e : Expr}
    (hscope : scope ∉ e.boundNames) (h : env.SameValues e fields s.here) :
    env.execute (e.qualify scope (env.presentShorthands fields)) (.obj fields) s =
      env.execute e (.obj fields) s := by
  rw [execute, execute, Expr.eval_qualify (hasMembers_bindings henv h) hscope]

/-- **What reads no shorthand does not see how the shorthands are built.** -/
theorem agree_mirror (henv : build (.object name ds) scope = .ok env) (e : Expr)
    (fields : Fields Json) (s : Seed) :
    Expr.Agree (e.qualify scope (env.presentShorthands fields)).freeNames
      (env.bindings (.obj fields) s.mirror) (env.bindings (.obj fields) s) := by
  obtain ⟨-, rfl, hroot⟩ := build_eq_ok henv
  intro x hx
  by_cases hne : x = env.scopeVariable
  · rw [hne, bindings, bindings, List.lookup_cons_self, List.lookup_cons_self, hroot,
      Declaration.convert, Declaration.convert, Declaration.convertFields_eq_map,
      Declaration.convertFields_eq_map]
    rfl
  · obtain ⟨-, habsent⟩ := (Expr.mem_freeNames_qualify_iff hne).1 hx
    have hnone : ∀ t, (env.bindings (.obj fields) t).lookup x = none := by
      intro t
      rw [lookup_bindings hne]
      cases hd : Fields.get? x env.shorthands with
      | none => rfl
      | some d =>
        cases hv : Fields.get? x fields with
        | none => rfl
        | some v =>
          have hname : x ∈ Fields.names env.shorthands :=
            Fields.has_iff.1 (by rw [Fields.has, hd]; rfl)
          exact absurd (List.mem_filter.2 ⟨hname, by rw [Fields.has, hv]; rfl⟩) habsent
    rw [hnone, hnone]

end Environment

open Environment in
/-- **A shorthand is interchangeable with its field**, but for the orders of the maps in it. An
expression in which no macro binds the scope variable has the same outcome on an instance if every
shorthand that the instance has is written as a member of the scope variable, whenever the fields
that it names became the same values alone and in the whole; and they always do if no object in
them has two members. Whatever is the outcome with members can be the outcome with shorthands. -/
theorem shorthands_are_fields {name scope : String} {ds : List (String × Declaration)}
    {env : Environment} (henv : build (.object name ds) scope = .ok env) {e : Expr}
    (hscope : scope ∉ e.boundNames) (fields : Fields Json) :
    (∀ s, env.SameValues e fields s.here →
      env.execute (e.qualify scope (env.presentShorthands fields)) (.obj fields) s =
        env.execute e (.obj fields) s) ∧
    ((∀ x ∈ e.freeNames, ∀ v, Fields.get? x fields = some v → v.hasOneOrder = true) →
      ∀ s, env.execute (e.qualify scope (env.presentShorthands fields)) (.obj fields) s =
        env.execute e (.obj fields) s) ∧
    ∀ s, ∃ t, env.execute e (.obj fields) t =
      env.execute (e.qualify scope (env.presentShorthands fields)) (.obj fields) s := by
  refine ⟨fun s => execute_qualify henv hscope, fun horder s => ?_, fun s => ?_⟩
  · refine execute_qualify henv hscope fun x hx d v _ hv => ?_
    exact Declaration.convertAt_of_hasOneOrder (horder x hx v hv) (some d) _ _
  · -- the run in which the fields are built as they are in the whole
    let t : Seed := .join (s.first []) fun
      | .here => s.here.mirror
      | p => s.part p
    have hsame : env.SameValues e fields t.here := fun x _ d v _ _ => rfl
    refine ⟨t, (execute_qualify henv hscope hsame).symm.trans ?_⟩
    have hagree := Expr.eval_agree (agree_mirror henv e fields s.here)
    exact congrArg contained (hagree s.next)

open Environment in
/-- A shorthand that a macro hides and one that the instance lacks are left as they are. -/
theorem hidden_and_missing_shorthands :
    ∃ env e e', build (.object "self" [("items", .list .int), ("n", .int), ("note", .string)])
        "self" = .ok env ∧
      Expr.ofText? "n > 5 && note > n || items.exists(n, n > self.n)" = some e ∧
      Expr.ofText? "self.n > 5 && note > self.n || self.items.exists(n, n > self.n)" = some e' ∧
      (∀ s, env.execute e' (.obj [("items", .arr [.int 1, .int 3]), ("n", .int 2)]) s =
        env.execute e (.obj [("items", .arr [.int 1, .int 3]), ("n", .int 2)]) s) ∧
      env.execute e (.obj [("items", .arr [.int 1, .int 3]), ("n", .int 2)]) .standard =
        .ok (.bool true) := by
  obtain ⟨env, henv, hdef⟩ : ∃ env, build (.object "self"
      [("items", .list .int), ("n", .int), ("note", .string)]) "self" = .ok env ∧
      env = ⟨"self", _, [("items", .list .int), ("n", .int), ("note", .string)]⟩ :=
    ⟨_, rfl, rfl⟩
  obtain ⟨e, he, htree⟩ : ∃ e,
      Expr.ofText? "n > 5 && note > n || items.exists(n, n > self.n)" = some e ∧
      e = .or (.and (.binary .greater (.name "n") (.literal (.int 5)))
          (.binary .greater (.name "note") (.name "n")))
        (.quantified .some (.name "items") "n"
          (.binary .greater (.name "n") (.member (.name "self") "n"))) :=
    ⟨_, Expr.ofText?_of_scan [.ident "n", .mark ">", .int "5", .mark "&&", .ident "note", .mark ">",
      .ident "n", .mark "||", .ident "items", .mark ".", .ident "exists", .mark "(", .ident "n",
      .mark ",", .ident "n", .mark ">", .ident "self", .mark ".", .ident "n", .mark ")"]
      (by decide +kernel) rfl, rfl⟩
  refine ⟨env, e, _, henv, he, ?_, (shorthands_are_fields henv ?_ _).2.1 ?_, ?_⟩
  · subst hdef htree
    exact Expr.ofText?_of_scan [.ident "self", .mark ".", .ident "n", .mark ">", .int "5",
      .mark "&&", .ident "note", .mark ">", .ident "self", .mark ".", .ident "n", .mark "||",
      .ident "self", .mark ".", .ident "items", .mark ".", .ident "exists", .mark "(", .ident "n",
      .mark ",", .ident "n", .mark ">", .ident "self", .mark ".", .ident "n", .mark ")"]
      (by decide +kernel) rfl
  · subst htree
    decide
  · intro x _ v hv
    rcases List.mem_pair.1 (Fields.mem_of_get? hv) with hv | hv
    · cases hv
      decide
    · cases hv
      decide
  · subst hdef htree
    rfl

open Environment in
/-- **The keys of a map come in two orders** in one run: those of the field alone are not those of
the field of the whole, but with the field written twice they are the same. -/
theorem keys_come_in_two_orders :
    ∃ env e, build (.object "self" [("m", .map .int)]) "self" = .ok env ∧
      Expr.ofText? "m.map(k, k) == self.m.map(k, k)" = some e ∧ "self" ∉ e.boundNames ∧
      Expr.ofText? "self.m.map(k, k) == self.m.map(k, k)" = some (e.qualify "self"
        (env.presentShorthands [("m", .obj [("a", .int 1), ("b", .int 2)])])) ∧
      env.execute e (.obj [("m", .obj [("a", .int 1), ("b", .int 2)])]) .standard =
        .ok (.bool false) ∧
      env.execute
          (e.qualify "self" (env.presentShorthands [("m", .obj [("a", .int 1), ("b", .int 2)])]))
          (.obj [("m", .obj [("a", .int 1), ("b", .int 2)])]) .standard =
        .ok (.bool true) := by
  obtain ⟨env, henv, hdef⟩ : ∃ env, build (.object "self" [("m", .map .int)]) "self" = .ok env ∧
      env = ⟨"self", _, [("m", .map .int)]⟩ := ⟨_, rfl, rfl⟩
  obtain ⟨e, he, htree⟩ : ∃ e, Expr.ofText? "m.map(k, k) == self.m.map(k, k)" = some e ∧
      e = .binary .equal (.collect (.name "m") "k" (.literal (.bool true)) (.name "k"))
        (.collect (.member (.name "self") "m") "k" (.literal (.bool true)) (.name "k")) :=
    ⟨_, Expr.ofText?_of_scan [.ident "m", .mark ".", .ident "map", .mark "(", .ident "k",
      .mark ",", .ident "k", .mark ")", .mark "==", .ident "self", .mark ".", .ident "m",
      .mark ".", .ident "map", .mark "(", .ident "k", .mark ",", .ident "k", .mark ")"]
      (by decide +kernel) rfl, rfl⟩
  refine ⟨env, e, henv, he, ?_, ?_, ?_, ?_⟩
  · subst htree
    decide
  · subst hdef htree
    exact Expr.ofText?_of_scan [.ident "self", .mark ".", .ident "m", .mark ".", .ident "map",
      .mark "(", .ident "k", .mark ",", .ident "k", .mark ")", .mark "==", .ident "self",
      .mark ".", .ident "m", .mark ".", .ident "map", .mark "(", .ident "k", .mark ",",
      .ident "k", .mark ")"] (by decide +kernel) rfl
  · subst hdef htree
    rfl
  · subst hdef htree
    rfl

end SchemaRules
