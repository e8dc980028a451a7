import SchemaRules.Expr.Eval

/-!
# Expressions with a hole

Two expressions that differ in one place are a context with one thing or the other in its hole.

* `Expr.Context`, `Expr.Context.fill`: **a context** and the expression with something in its hole.
* `Expr.Context.Opens`: **the scopes of the hole**, those in which an evaluation comes to it, each
  with the part of the seed that is left for it.
* `eval_fill_congr`: **what is in the hole counts by its value only**, in the scopes of the hole.
-/

namespace SchemaRules

namespace Expr

/-- **An expression with a hole.** -/
inductive Context where
  | hole
  | member (c : Context) (field : String)
  | has (c : Context) (field : String)
  | unary (op : Unary) (c : Context)
  | left (op : Binary) (c : Context) (b : Expr)
  | right (op : Binary) (a : Expr) (c : Context)
  | orLeft (c : Context) (b : Expr)
  | orRight (a : Expr) (c : Context)
  | andLeft (c : Context) (b : Expr)
  | andRight (a : Expr) (c : Context)
  | condition (c : Context) (a b : Expr)
  | yes (e : Expr) (c : Context) (b : Expr)
  | no (e a : Expr) (c : Context)
  | item (before : List Expr) (c : Context) (after : List Expr)
  | key (before : List (Expr × Expr)) (c : Context) (e : Expr) (after : List (Expr × Expr))
  | value (before : List (Expr × Expr)) (k : Expr) (c : Context) (after : List (Expr × Expr))
  | field (type : String) (before : List (String × Expr)) (name : String) (c : Context)
      (after : List (String × Expr))
  | range (q : Quantifier) (c : Context) (x : String) (p : Expr)
  | quantified (q : Quantifier) (range : Expr) (x : String) (c : Context)
  | collectRange (c : Context) (x : String) (p f : Expr)
  | collectCondition (range : Expr) (x : String) (c : Context) (f : Expr)
  | collectItem (range : Expr) (x : String) (p : Expr) (c : Context)
  | target (c : Context) (function : String) (args : List Expr)
  | argument (target : Option Expr) (function : String) (before : List Expr) (c : Context)
      (after : List Expr)

/-- A scope with an item of a range on top, and the part of the seed that is for the item. -/
def BindsItem (range : Expr) (x : String) (scope : Scope) (s : Seed) (inner : Scope) (t : Seed) :
    Prop :=
  ∃ w items v, eval scope range s.here = .ok w ∧ itemsOf w = .ok items ∧
    (t, v) ∈ s.next.spread items ∧ inner = (x, v) :: scope

namespace Context

/-- **The expression with something in the hole.** -/
def fill : Context → Expr → Expr
  | hole, e => e
  | member c n, e => .member (c.fill e) n
  | has c n, e => .has (c.fill e) n
  | unary op c, e => .unary op (c.fill e)
  | left op c b, e => .binary op (c.fill e) b
  | right op a c, e => .binary op a (c.fill e)
  | orLeft c b, e => .or (c.fill e) b
  | orRight a c, e => .or a (c.fill e)
  | andLeft c b, e => .and (c.fill e) b
  | andRight a c, e => .and a (c.fill e)
  | condition c a b, e => .choice (c.fill e) a b
  | yes d c b, e => .choice d (c.fill e) b
  | no d a c, e => .choice d a (c.fill e)
  | item before c after, e => .list (before ++ c.fill e :: after)
  | key before c v after, e => .map (before ++ (c.fill e, v) :: after)
  | value before k c after, e => .map (before ++ (k, c.fill e) :: after)
  | field type before n c after, e => .message type (before ++ (n, c.fill e) :: after)
  | range q c x p, e => .quantified q (c.fill e) x p
  | quantified q r x c, e => .quantified q r x (c.fill e)
  | collectRange c x p f, e => .collect (c.fill e) x p f
  | collectCondition r x c f, e => .collect r x (c.fill e) f
  | collectItem r x p c, e => .collect r x p (c.fill e)
  | target c function args, e => .call (some (c.fill e)) function args
  | argument receiver function before c after, e =>
    .call receiver function (before ++ c.fill e :: after)

/-- **The scopes of the hole.** A binder around the hole adds an item of its range, an operand is
passed over unless the condition before it asks for it, and no field of a message is evaluated. -/
def Opens : Context → Scope → Seed → Scope → Seed → Prop
  | hole, scope, s, inner, t => inner = scope ∧ t = s
  | member c _, scope, s, inner, t | has c _, scope, s, inner, t | unary _ c, scope, s, inner, t
  | left _ c _, scope, s, inner, t | orLeft c _, scope, s, inner, t
  | andLeft c _, scope, s, inner, t | condition c _ _, scope, s, inner, t
  | range _ c _ _, scope, s, inner, t | collectRange c _ _ _, scope, s, inner, t
  | target c _ _, scope, s, inner, t => c.Opens scope s.here inner t
  | right _ _ c, scope, s, inner, t => c.Opens scope s.next inner t
  | orRight a c, scope, s, inner, t =>
    eval scope a s.here = .ok (.bool false) ∧ c.Opens scope s.next inner t
  | andRight a c, scope, s, inner, t =>
    eval scope a s.here = .ok (.bool true) ∧ c.Opens scope s.next inner t
  | yes e c _, scope, s, inner, t =>
    eval scope e s.here = .ok (.bool true) ∧ c.Opens scope s.next inner t
  | no e _ c, scope, s, inner, t =>
    eval scope e s.here = .ok (.bool false) ∧ c.Opens scope s.next inner t
  | item before c _, scope, s, inner, t => c.Opens scope (s.item before.length) inner t
  | key before c _ _, scope, s, inner, t => c.Opens scope (s.item before.length).here inner t
  | value before _ c _, scope, s, inner, t => c.Opens scope (s.item before.length).next inner t
  | field _ _ _ _ _, _, _, _, _ => False
  | quantified _ r x c, scope, s, inner, t =>
    ∃ mid u, BindsItem r x scope s mid u ∧ c.Opens mid u inner t
  | collectCondition r x c _, scope, s, inner, t =>
    ∃ mid u, BindsItem r x scope s mid u ∧ c.Opens mid u.here inner t
  | collectItem r x p c, scope, s, inner, t =>
    ∃ mid u, BindsItem r x scope s mid u ∧ eval mid p u.here = .ok (.bool true) ∧
      c.Opens mid u.next inner t
  | argument _ _ before c _, scope, s, inner, t =>
    c.Opens scope (s.next.item before.length) inner t

end Context

/-! ## Conditions on items -/

section Items

variable {α : Type} {p p' f f' : α → Answer} {items : List α}

theorem allOf_congr (h : ∀ v ∈ items, p v = p' v) : allOf p items = allOf p' items := by
  induction items with
  | nil => rfl
  | cons v rest ih =>
    obtain ⟨hv, hrest⟩ := List.forall_mem_cons.1 h
    rw [allOf, allOf, hv, ih hrest]

theorem someOf_congr (h : ∀ v ∈ items, p v = p' v) (found : Value) :
    someOf p found items = someOf p' found items := by
  induction items generalizing found with
  | nil => rfl
  | cons v rest ih =>
    obtain ⟨hv, hrest⟩ := List.forall_mem_cons.1 h
    rw [someOf, someOf, hv]
    simp only [ih hrest]

theorem countOf_congr (h : ∀ v ∈ items, p v = p' v) : countOf p items = countOf p' items := by
  induction items with
  | nil => rfl
  | cons v rest ih =>
    obtain ⟨hv, hrest⟩ := List.forall_mem_cons.1 h
    rw [countOf, countOf, hv, ih hrest]

theorem quantify_congr (q : Quantifier) (h : ∀ v ∈ items, p v = p' v) :
    quantify q p items = quantify q p' items := by
  cases q with
  | all => exact allOf_congr h
  | some => exact someOf_congr h _
  | one => rw [quantify, quantify, countOf_congr h]

theorem collectOf_congr (h : ∀ v ∈ items, p v = p' v)
    (hf : ∀ v ∈ items, p v = .ok (.bool true) → f v = f' v) :
    collectOf p f items = collectOf p' f' items := by
  induction items with
  | nil => rfl
  | cons v rest ih =>
    obtain ⟨hv, hrest⟩ := List.forall_mem_cons.1 h
    obtain ⟨hfv, hfrest⟩ := List.forall_mem_cons.1 hf
    rw [collectOf, collectOf, ← hv, ih hrest hfrest]
    cases hp : p v with
    | error f => rfl
    | ok w =>
      cases w with
      | bool b =>
        cases b with
        | true => rw [hfv hp]
        | false => rfl
      | _ => rfl

end Items

/-! ## Evaluation around a hole -/

section Around

variable {scope : Scope} {a b : Expr} {s : Seed}

theorem evalItems_congr (before after : List Expr) : ∀ {s : Seed},
    eval scope a (s.item before.length) = eval scope b (s.item before.length) →
    evalItems scope (before ++ a :: after) s = evalItems scope (before ++ b :: after) s := by
  induction before with
  | nil =>
    intro s h
    rw [List.nil_append, List.nil_append, evalItems, evalItems]
    exact congrArg (· >>= _) h
  | cons e rest ih =>
    intro s h
    rw [List.cons_append, List.cons_append, evalItems, evalItems, ih h]

theorem evalArgs_congr (before after : List Expr) : ∀ {s : Seed},
    eval scope a (s.item before.length) = eval scope b (s.item before.length) →
    evalArgs scope (before ++ a :: after) s = evalArgs scope (before ++ b :: after) s := by
  induction before with
  | nil =>
    intro s h
    rw [List.nil_append, List.nil_append, evalArgs, evalArgs]
    exact congrArg (· :: _) h
  | cons e rest ih =>
    intro s h
    rw [List.cons_append, List.cons_append, evalArgs, evalArgs, ih h]

theorem evalEntries_congr {k l : Expr} (before after : List (Expr × Expr)) : ∀ {s : Seed},
    eval scope k (s.item before.length).here = eval scope l (s.item before.length).here →
    eval scope a (s.item before.length).next = eval scope b (s.item before.length).next →
    ∀ found, evalEntries scope (before ++ (k, a) :: after) found s =
      evalEntries scope (before ++ (l, b) :: after) found s := by
  induction before with
  | nil =>
    intro s hk h found
    rw [List.length_nil, Seed.item_zero] at hk h
    rw [List.nil_append, List.nil_append, evalEntries, evalEntries, hk, h]
  | cons e rest ih =>
    obtain ⟨k', e⟩ := e
    intro s hk h found
    rw [List.cons_append, List.cons_append, evalEntries, evalEntries]
    simp only [ih hk h]

/-- The second operand counts if the first one asks for it. -/
theorem eval_or_congr {e : Expr}
    (h : eval scope e s.here = .ok (.bool false) → eval scope a s.next = eval scope b s.next) :
    eval scope (.or e a) s = eval scope (.or e b) s := by
  rw [eval, eval]
  cases he : eval scope e s.here with
  | error f => rfl
  | ok w =>
    cases w with
    | bool t =>
      cases t with
      | true => rfl
      | false => exact h he
    | _ => rfl

theorem eval_and_congr {e : Expr}
    (h : eval scope e s.here = .ok (.bool true) → eval scope a s.next = eval scope b s.next) :
    eval scope (.and e a) s = eval scope (.and e b) s := by
  rw [eval, eval]
  cases he : eval scope e s.here with
  | error f => rfl
  | ok w =>
    cases w with
    | bool t =>
      cases t with
      | true => rw [h he]
      | false => rfl
    | _ => rfl

/-- A branch counts if it is taken. -/
theorem eval_choice_congr {e a' b' : Expr}
    (ha : eval scope e s.here = .ok (.bool true) → eval scope a s.next = eval scope a' s.next)
    (hb : eval scope e s.here = .ok (.bool false) → eval scope b s.next = eval scope b' s.next) :
    eval scope (.choice e a b) s = eval scope (.choice e a' b') s := by
  rw [eval, eval]
  cases he : eval scope e s.here with
  | error f => rfl
  | ok w =>
    cases w with
    | bool t =>
      cases t with
      | true => exact ha he
      | false => exact hb he
    | _ => rfl

theorem eval_quantified_congr {range : Expr} {x : String} (q : Quantifier)
    (h : ∀ inner t, BindsItem range x scope s inner t → eval inner a t = eval inner b t) :
    eval scope (.quantified q range x a) s = eval scope (.quantified q range x b) s := by
  rw [eval, eval]
  cases hw : eval scope range s.here with
  | error f => rfl
  | ok w =>
    cases hitems : itemsOf w with
    | error f => simp only [bind, Except.bind, hitems]
    | ok items =>
      simp only [bind, Except.bind, hitems]
      exact quantify_congr q fun v hv => h _ v.1 ⟨w, items, v.2, hw, hitems, hv, rfl⟩

theorem eval_collect_congr {range a' b' : Expr} {x : String}
    (h : ∀ inner t, BindsItem range x scope s inner t →
      eval inner a t.here = eval inner a' t.here)
    (hf : ∀ inner t, BindsItem range x scope s inner t → eval inner a t.here = .ok (.bool true) →
      eval inner b t.next = eval inner b' t.next) :
    eval scope (.collect range x a b) s = eval scope (.collect range x a' b') s := by
  rw [eval, eval]
  cases hw : eval scope range s.here with
  | error f => rfl
  | ok w =>
    cases hitems : itemsOf w with
    | error f => simp only [bind, Except.bind, hitems]
    | ok items =>
      have hbinds : ∀ v ∈ s.next.spread items, BindsItem range x scope s ((x, v.2) :: scope) v.1 :=
        fun v hv => ⟨w, items, v.2, hw, hitems, hv, rfl⟩
      simp only [bind, Except.bind, hitems]
      rw [collectOf_congr (fun v hv => h _ _ (hbinds v hv)) fun v hv => hf _ _ (hbinds v hv)]

end Around

/-- **What is in the hole counts by its value only**, in the scopes of the hole. -/
theorem eval_fill_congr {a b : Expr} (c : Context) : ∀ {scope : Scope} {s : Seed},
    (∀ inner t, c.Opens scope s inner t → eval inner a t = eval inner b t) →
    eval scope (c.fill a) s = eval scope (c.fill b) s := by
  -- over the context, for all scopes: a binder puts an item on top of the scope
  induction c with
  | hole =>
    intro scope s h
    exact h scope s ⟨rfl, rfl⟩
  | quantified q r y c ih =>
    intro scope s h
    exact eval_quantified_congr q fun mid u hmid =>
      ih fun inner t hopen => h inner t ⟨mid, u, hmid, hopen⟩
  | collectCondition r y c f ih =>
    intro scope s h
    refine eval_collect_congr (fun mid u hmid => ?_) fun _ _ _ _ => rfl
    exact ih fun inner t hopen => h inner t ⟨mid, u, hmid, hopen⟩
  | collectItem r y p c ih =>
    intro scope s h
    refine eval_collect_congr (fun _ _ _ => rfl) fun mid u hmid hp => ?_
    exact ih fun inner t hopen => h inner t ⟨mid, u, hmid, hp, hopen⟩
  | orRight e c ih =>
    intro scope s h
    exact eval_or_congr fun he => ih fun inner t hopen => h inner t ⟨he, hopen⟩
  | andRight e c ih =>
    intro scope s h
    exact eval_and_congr fun he => ih fun inner t hopen => h inner t ⟨he, hopen⟩
  | yes e c b' ih =>
    intro scope s h
    exact eval_choice_congr (fun he => ih fun inner t hopen => h inner t ⟨he, hopen⟩) fun _ => rfl
  | no e a' c ih =>
    intro scope s h
    exact eval_choice_congr (fun _ => rfl) fun he => ih fun inner t hopen => h inner t ⟨he, hopen⟩
  | unary op c ih =>
    intro scope s h
    cases op with
    | not => rw [Context.fill, Context.fill, eval, eval, ih h]
    | negate => rw [Context.fill, Context.fill, eval, eval, ih h]
  | item before c after ih =>
    intro scope s h
    rw [Context.fill, Context.fill, eval, eval, evalItems_congr before after (ih h)]
  | key before c e after ih =>
    intro scope s h
    rw [Context.fill, Context.fill, eval, eval, evalEntries_congr before after (ih h) rfl]
  | value before k c after ih =>
    intro scope s h
    rw [Context.fill, Context.fill, eval, eval, evalEntries_congr before after rfl (ih h)]
  | field type before name c after ih =>
    intro scope s _
    rw [Context.fill, Context.fill, eval, eval]
  | target c function args ih =>
    intro scope s h
    rw [Context.fill, Context.fill, eval, eval, evalTarget, evalTarget, ih h]
  | argument receiver function before c after ih =>
    intro scope s h
    rw [Context.fill, Context.fill, eval, eval, evalArgs_congr before after (ih h)]
  | _ =>
    rename_i ih
    intro scope s h
    rw [Context.fill, Context.fill, eval, eval, ih h]

end Expr

end SchemaRules
