import SchemaRules.Proofs.Canonical
import SchemaRules.Proofs.Trials

/-!
# The names that an evaluation reads

A name is looked up when an evaluation comes to it. Operands that are not needed, branches that are
not taken and conditions of ranges without items are passed over, and so are the names in them. What
a name in one of several arguments is at fault of shows only if the function passes it on.

* `Expr.Reads`: **an evaluation comes to a name**. All that is before it has a value of which the
  evaluation goes on.
* `eval_of_reads`: **a name that is read and not in scope is the fault** of the expression.
* `mem_freeNames_of_reads`: only free names are read.
* `certainNames`, `lookup_of_eval`: names that every evaluation comes to are in scope if there is a
  value.
* `accepted_reads_declared`: **an accepted rule reads declared variables only** when it is tried.
-/

namespace SchemaRules

/-- Whether a quantifier goes on to the next item after its condition said `b` of one. -/
def Quantifier.goesOn : Quantifier → Bool → Bool
  | all, b => b
  | some, b => !b
  | one, _ => true

/-- **A function passes on an argument's fault**: whatever the argument is at fault of, so is the
call. It does not of an argument that stands for the receiver, which is then said to be missing. -/
def Function.PassesOn (f : Function) (c : Call) (i : Nat) : Prop :=
  ∀ fault, f.apply { c with args := c.args.set i (.error fault) } = .error fault

/-- The methods of texts that have an argument. -/
def Function.textMethods : List Function :=
  [.contains, .startsWith, .endsWith, .fits, .charAt, .indexOf, .lastIndexOf, .replace, .split,
    .substring]

/-- **A method of a text passes on the fault of its first argument**, whether the text is the
receiver or stands in front of the arguments. -/
theorem Function.passesOn_of_mem_textMethods {f : Function} (hf : f ∈ textMethods) (s : String)
    (first : Answer) (rest : List Answer) :
    f.PassesOn ⟨some (.str s), first :: rest⟩ 0 ∧
      f.PassesOn ⟨none, .ok (.str s) :: first :: rest⟩ 1 := by
  simp only [textMethods, List.mem_cons, List.not_mem_nil, or_false] at hf
  constructor
  · intro fault
    rcases hf with rfl | rfl | rfl | rfl | rfl | rfl | rfl | rfl | rfl | rfl <;> rfl
  · intro fault
    rcases hf with rfl | rfl | rfl | rfl | rfl | rfl | rfl | rfl | rfl | rfl <;> rfl

namespace Expr

/-- The entries of a map all have keys and values. -/
def HasEntries (scope : Scope) (entries : List (Expr × Expr)) (s : Seed) : Prop :=
  ∀ e ∈ s.spread entries, ∃ w key v, eval scope e.2.1 e.1.here = .ok w ∧ w.toKey? = some key ∧
    eval scope e.2.2 e.1.next = .ok v

/-- **The evaluation of an expression comes to a name** that nothing around it binds. The seed is
that of the evaluation, and its parts are those of the operands. -/
inductive Reads : Scope → Expr → Seed → String → Prop
  | name (scope : Scope) (x : String) (s : Seed) : Reads scope (.name x) s x
  | member {scope : Scope} {e : Expr} {s : Seed} {field x : String} :
      Reads scope e s.here x → Reads scope (.member e field) s x
  | has {scope : Scope} {e : Expr} {s : Seed} {field x : String} :
      Reads scope e s.here x → Reads scope (.has e field) s x
  | unary {scope : Scope} {op : Unary} {e : Expr} {s : Seed} {x : String} :
      Reads scope e s.here x → Reads scope (.unary op e) s x
  | left {scope : Scope} {op : Binary} {a b : Expr} {s : Seed} {x : String} :
      Reads scope a s.here x → Reads scope (.binary op a b) s x
  | right {scope : Scope} {op : Binary} {a b : Expr} {s : Seed} {x : String} {v : Value} :
      eval scope a s.here = .ok v → Reads scope b s.next x → Reads scope (.binary op a b) s x
  | orLeft {scope : Scope} {a b : Expr} {s : Seed} {x : String} :
      Reads scope a s.here x → Reads scope (.or a b) s x
  | orRight {scope : Scope} {a b : Expr} {s : Seed} {x : String} :
      eval scope a s.here = .ok (.bool false) → Reads scope b s.next x →
      Reads scope (.or a b) s x
  | andLeft {scope : Scope} {a b : Expr} {s : Seed} {x : String} :
      Reads scope a s.here x → Reads scope (.and a b) s x
  | andRight {scope : Scope} {a b : Expr} {s : Seed} {x : String} :
      eval scope a s.here = .ok (.bool true) → Reads scope b s.next x →
      Reads scope (.and a b) s x
  | condition {scope : Scope} {c a b : Expr} {s : Seed} {x : String} :
      Reads scope c s.here x → Reads scope (.choice c a b) s x
  | yes {scope : Scope} {c a b : Expr} {s : Seed} {x : String} :
      eval scope c s.here = .ok (.bool true) → Reads scope a s.next x →
      Reads scope (.choice c a b) s x
  | no {scope : Scope} {c a b : Expr} {s : Seed} {x : String} :
      eval scope c s.here = .ok (.bool false) → Reads scope b s.next x →
      Reads scope (.choice c a b) s x
  | item {scope : Scope} {before after : List Expr} {e : Expr} {s : Seed} {x : String} :
      (∀ a ∈ s.spread before, ∃ v, eval scope a.2 a.1 = .ok v) →
      Reads scope e (s.item before.length) x → Reads scope (.list (before ++ e :: after)) s x
  | key {scope : Scope} {before after : List (Expr × Expr)} {k e : Expr} {s : Seed}
      {x : String} :
      HasEntries scope before s → Reads scope k (s.item before.length).here x →
      Reads scope (.map (before ++ (k, e) :: after)) s x
  | value {scope : Scope} {before after : List (Expr × Expr)} {k e : Expr} {s : Seed}
      {x : String} {w : Value} {key : Key} :
      HasEntries scope before s → eval scope k (s.item before.length).here = .ok w →
      w.toKey? = some key → Reads scope e (s.item before.length).next x →
      Reads scope (.map (before ++ (k, e) :: after)) s x
  | range {scope : Scope} {q : Quantifier} {range p : Expr} {s : Seed} {y x : String} :
      Reads scope range s.here x → Reads scope (.quantified q range y p) s x
  | quantified {scope : Scope} {q : Quantifier} {range p : Expr} {s : Seed} {y x : String}
      {r v : Value} {before after : List Value} :
      eval scope range s.here = .ok r → itemsOf r = .ok (before ++ v :: after) →
      (∀ u ∈ s.next.spread before, ∃ b, eval ((y, u.2) :: scope) p u.1 = .ok (.bool b) ∧
        q.goesOn b = true) →
      x ≠ y → Reads ((y, v) :: scope) p (s.next.item before.length) x →
      Reads scope (.quantified q range y p) s x
  | collectRange {scope : Scope} {range p f : Expr} {s : Seed} {y x : String} :
      Reads scope range s.here x → Reads scope (.collect range y p f) s x
  | collectCondition {scope : Scope} {range p f : Expr} {s : Seed} {y x : String}
      {r v : Value} {before after : List Value} :
      eval scope range s.here = .ok r → itemsOf r = .ok (before ++ v :: after) →
      (∀ u ∈ s.next.spread before, ∃ b, eval ((y, u.2) :: scope) p u.1.here = .ok (.bool b) ∧
        (b = true → ∃ w, eval ((y, u.2) :: scope) f u.1.next = .ok w)) →
      x ≠ y → Reads ((y, v) :: scope) p (s.next.item before.length).here x →
      Reads scope (.collect range y p f) s x
  | collectItem {scope : Scope} {range p f : Expr} {s : Seed} {y x : String}
      {r v : Value} {before after : List Value} :
      eval scope range s.here = .ok r → itemsOf r = .ok (before ++ v :: after) →
      (∀ u ∈ s.next.spread before, ∃ b, eval ((y, u.2) :: scope) p u.1.here = .ok (.bool b) ∧
        (b = true → ∃ w, eval ((y, u.2) :: scope) f u.1.next = .ok w)) →
      eval ((y, v) :: scope) p (s.next.item before.length).here = .ok (.bool true) →
      x ≠ y → Reads ((y, v) :: scope) f (s.next.item before.length).next x →
      Reads scope (.collect range y p f) s x
  /-- A single argument has to have a value before the function is looked up. -/
  | argument {scope : Scope} {target : Option Expr} {function x : String} {e : Expr} {s : Seed} :
      Reads scope e s.next.here x → Reads scope (.call target function [e]) s x
  | target {scope : Scope} {e : Expr} {function x : String} {args : List Expr} {f : Function}
      {s : Seed} :
      Function.ofName? function = some f →
      (∀ a, args = [a] → ∃ v, eval scope a s.next.here = .ok v) →
      Reads scope e s.here x → Reads scope (.call (some e) function args) s x
  | passedOn {scope : Scope} {target : Option Expr} {function x : String}
      {before after : List Expr} {e : Expr} {f : Function} {t : Option Value} {s : Seed} :
      Function.ofName? function = some f → evalTarget scope target s.here = .ok t →
      f.PassesOn ⟨t, evalArgs scope (before ++ e :: after) s.next⟩ before.length →
      Reads scope e (s.next.item before.length) x →
      Reads scope (.call target function (before ++ e :: after)) s x

/-! ## Faults of names -/

/-- A fault of an item is that of the list, if the items before it have values. -/
theorem evalItems_eq_error {scope : Scope} {before after : List Expr} {e : Expr} {f : Fault}
    {s : Seed} (hbefore : ∀ a ∈ s.spread before, ∃ v, eval scope a.2 a.1 = .ok v)
    (he : eval scope e (s.item before.length) = .error f) :
    evalItems scope (before ++ e :: after) s = .error f := by
  induction before generalizing s with
  | nil =>
    rw [List.length_nil, Seed.item_zero] at he
    rw [List.nil_append, evalItems, he]
    rfl
  | cons a rest ih =>
    obtain ⟨⟨v, hv⟩, hrest⟩ := List.forall_mem_cons.1 hbefore
    rw [List.cons_append, evalItems, hv, ih hrest he]
    rfl

/-- A fault behind entries with keys and values is that of the map. -/
theorem evalEntries_eq_error {scope : Scope} {before after : List (Expr × Expr)} {f : Fault}
    {s : Seed} (hbefore : HasEntries scope before s)
    (hafter : ∀ found, evalEntries scope after found (s.after before.length) = .error f)
    (found : List (Key × Value)) :
    evalEntries scope (before ++ after) found s = .error f := by
  induction before generalizing found s with
  | nil => exact hafter found
  | cons e rest ih =>
    obtain ⟨⟨w, key, v, hw, hkey, hv⟩, hrest⟩ := List.forall_mem_cons.1 hbefore
    obtain ⟨k, e⟩ := e
    rw [List.cons_append, evalEntries, hw]
    simp only [bind, Except.bind, hkey, hv]
    exact ih hrest hafter _

section

variable {α : Type} {before after : List α} {v : α} {f : Fault}

/-- **A fault of the condition is that of the quantifier**, if it goes on to the item. -/
theorem quantify_eq_error {q : Quantifier} {p : α → Answer}
    (hbefore : ∀ u ∈ before, ∃ b, p u = .ok (.bool b) ∧ q.goesOn b = true) (hv : p v = .error f) :
    quantify q p (before ++ v :: after) = .error f := by
  cases q with
  | all =>
    rw [quantify]
    induction before with
    | nil => rw [List.nil_append, allOf, hv]; rfl
    | cons u rest ih =>
      obtain ⟨⟨b, hu, hb⟩, hrest⟩ := List.forall_mem_cons.1 hbefore
      obtain rfl : b = true := hb
      rw [List.cons_append, allOf, hu]
      exact ih hrest
  | some =>
    -- what was found before is false whenever another item follows
    rw [quantify]
    suffices h : ∀ found, found = .bool false →
        someOf p found (before ++ v :: after) = .error f from h _ rfl
    induction before with
    | nil =>
      rintro found rfl
      rw [List.nil_append, someOf, hv]
      rfl
    | cons u rest ih =>
      rintro found rfl
      obtain ⟨⟨b, hu, hb⟩, hrest⟩ := List.forall_mem_cons.1 hbefore
      obtain rfl : b = false := by simpa [Quantifier.goesOn] using hb
      rw [List.cons_append, someOf, hu]
      exact ih hrest _ rfl
  | one =>
    have hcount : countOf p (before ++ v :: after) = .error f := by
      induction before with
      | nil => rw [List.nil_append, countOf, hv]; rfl
      | cons u rest ih =>
        obtain ⟨⟨b, hu, -⟩, hrest⟩ := List.forall_mem_cons.1 hbefore
        rw [List.cons_append, countOf, hu, ih hrest]
        rfl
    rw [quantify, hcount]
    rfl

/-- A fault for an item is that of the collection, if there is none for the items before. -/
theorem collectOf_eq_error {p g : α → Answer}
    (hbefore : ∀ u ∈ before, ∃ b, p u = .ok (.bool b) ∧ (b = true → ∃ w, g u = .ok w))
    (hv : p v = .error f ∨ p v = .ok (.bool true) ∧ g v = .error f) :
    collectOf p g (before ++ v :: after) = .error f := by
  induction before with
  | nil =>
    rw [List.nil_append, collectOf]
    rcases hv with hp | ⟨hp, hg⟩
    · rw [hp]; rfl
    · rw [hp, hg]; rfl
  | cons u rest ih =>
    obtain ⟨⟨b, hu, hb⟩, hrest⟩ := List.forall_mem_cons.1 hbefore
    rw [List.cons_append, collectOf, hu, ih hrest]
    cases b with
    | false => rfl
    | true =>
      obtain ⟨w, hw⟩ := hb rfl
      rw [hw]
      rfl

end

theorem evalArgs_eq_map (scope : Scope) (args : List Expr) (s : Seed) :
    evalArgs scope args s = (s.spread args).map fun e => eval scope e.2 e.1 := by
  induction args generalizing s with
  | nil => rfl
  | cons e rest ih => rw [evalArgs, ih, Seed.spread, List.map_cons]

/-- The outcomes of arguments, one of which is at fault. -/
theorem evalArgs_of_error {scope : Scope} {e : Expr} {fault : Fault} {s : Seed}
    {before : List Expr} (he : eval scope e (s.item before.length) = .error fault)
    (after : List Expr) : ∃ first rest, first.length = before.length ∧
      evalArgs scope (before ++ e :: after) s = first ++ .error fault :: rest := by
  refine ⟨(s.spread before).map fun a => eval scope a.2 a.1,
    ((s.after before.length).next.spread after).map fun a => eval scope a.2 a.1, ?_, ?_⟩
  · rw [List.length_map, Seed.length_spread]
  · rw [evalArgs_eq_map, Seed.spread_append, Seed.spread, List.map_append, List.map_cons]
    exact congrArg (fun outcome => _ ++ outcome :: _) he

/-- Arguments are no single fault, if a single one has a value. -/
theorem evalArgs_ne_fault {scope : Scope} {args : List Expr} {s : Seed}
    (hargs : ∀ a, args = [a] → ∃ v, eval scope a s.here = .ok v) (fault : Fault) :
    evalArgs scope args s ≠ [.error fault] := by
  intro hfault
  cases args with
  | nil => cases hfault
  | cons a rest =>
    cases rest with
    | nil =>
      obtain ⟨v, hv⟩ := hargs a rfl
      rw [evalArgs, evalArgs, hv] at hfault
      cases hfault
    | cons b rest =>
      rw [evalArgs, evalArgs] at hfault
      cases (List.cons.inj hfault).2

/-- A call of a known function is answered by the function, unless its single argument is at
fault. -/
theorem answer_eq_apply {function : String} {f : Function} (hf : Function.ofName? function = some f)
    (target : Except Fault (Option Value)) {args : List Answer}
    (hargs : ∀ fault, args ≠ [.error fault]) :
    answer function target args = (do f.apply ⟨← target, args⟩) := by
  unfold answer
  split
  · next fault => exact absurd rfl (hargs fault)
  · rw [hf]

/-- **A fault that the function passes on** is that of the call. -/
theorem answer_eq_error {function : String} {f : Function} (hf : Function.ofName? function = some f)
    {t : Option Value} {before after : List Answer} {fault : Fault}
    (hpasses : f.PassesOn ⟨t, before ++ .error fault :: after⟩ before.length) :
    answer function (.ok t) (before ++ .error fault :: after) = .error fault := by
  by_cases hsingle : ∃ other, before ++ .error fault :: after = [.error other]
  · obtain ⟨other, hother⟩ := hsingle
    have hlength := congrArg List.length hother
    rw [List.length_append, List.length_cons, List.length_singleton] at hlength
    obtain rfl : before = [] := List.length_eq_zero_iff.1 (by omega)
    obtain rfl : after = [] := List.length_eq_zero_iff.1 (by omega)
    rfl
  · rw [answer_eq_apply hf _ fun other hother => hsingle ⟨other, hother⟩]
    have happly := hpasses fault
    rw [List.set_append_right _ _ (Nat.le_refl _), Nat.sub_self, List.set_cons_zero] at happly
    exact happly

/-- **A name that is read and not in scope** is the fault of the expression. -/
theorem eval_of_reads {scope : Scope} {e : Expr} {s : Seed} {x : String} (h : Reads scope e s x)
    (hx : scope.lookup x = none) : eval scope e s = .error (.undeclared x) := by
  -- over the way to the name: what is before it has a value, so the fault of the name comes out
  induction h with
  | name scope x s => rw [eval, hx]
  | member _ ih => rw [eval, ih hx]; rfl
  | has _ ih => rw [eval, ih hx]; rfl
  | @unary _ op _ _ _ _ ih =>
    cases op with
    | not => rw [eval, ih hx]; rfl
    | negate => rw [eval, ih hx]; rfl
  | left _ ih => rw [eval, ih hx]; rfl
  | right ha _ ih => rw [eval, ha, ih hx]; rfl
  | orLeft _ ih => rw [eval, ih hx]; rfl
  | orRight ha _ ih => rw [eval, ha, ih hx]; rfl
  | andLeft _ ih => rw [eval, ih hx]; rfl
  | andRight ha _ ih => rw [eval, ha, ih hx]; rfl
  | condition _ ih => rw [eval, ih hx]; rfl
  | yes hc _ ih => rw [eval, hc, ih hx]; rfl
  | no hc _ ih => rw [eval, hc, ih hx]; rfl
  | item hbefore _ ih => rw [eval, evalItems_eq_error hbefore (ih hx)]; rfl
  | key hbefore _ ih =>
    rw [eval, evalEntries_eq_error hbefore (fun found => ?_)]
    · rfl
    · rw [evalEntries, ← Seed.item, ih hx]; rfl
  | value hbefore hk hkey _ ih =>
    rw [eval, evalEntries_eq_error hbefore (fun found => ?_)]
    · rfl
    · rw [evalEntries, ← Seed.item, hk]
      simp only [bind, Except.bind, hkey, ih hx]
  | range _ ih => rw [eval, ih hx]; rfl
  | quantified hr hitems hbefore hne _ ih =>
    rw [eval, hr]
    simp only [bind, Except.bind, hitems]
    rw [Seed.spread_append, Seed.spread]
    exact quantify_eq_error hbefore (ih ((Scope.lookup_cons_of_ne hne _ _).trans hx))
  | collectRange _ ih => rw [eval, ih hx]; rfl
  | collectCondition hr hitems hbefore hne _ ih =>
    have hfault := ih ((Scope.lookup_cons_of_ne hne _ _).trans hx)
    rw [eval, hr]
    simp only [bind, Except.bind, hitems]
    rw [Seed.spread_append, Seed.spread, collectOf_eq_error hbefore (.inl hfault)]
  | collectItem hr hitems hbefore hp hne _ ih =>
    have hfault := ih ((Scope.lookup_cons_of_ne hne _ _).trans hx)
    rw [eval, hr]
    simp only [bind, Except.bind, hitems]
    rw [Seed.spread_append, Seed.spread, collectOf_eq_error hbefore (.inr ⟨hp, hfault⟩)]
  | argument _ ih => rw [eval, evalArgs, evalArgs, ih hx]; rfl
  | target hf hargs _ ih =>
    rw [eval, answer_eq_apply hf _ (evalArgs_ne_fault hargs), evalTarget, ih hx]
    rfl
  | @passedOn _ _ _ _ _ after _ _ _ _ hf ht hpasses _ ih =>
    obtain ⟨first, rest, hlength, hargs⟩ := evalArgs_of_error (ih hx) after
    rw [hargs, ← hlength] at hpasses
    rw [eval, ht, hargs]
    exact answer_eq_error hf hpasses

/-! ## Free names -/

theorem mem_freeNamesList_iff {es : List Expr} {x : String} :
    x ∈ freeNamesList es ↔ ∃ e ∈ es, x ∈ e.freeNames := by
  induction es with
  | nil => simp [freeNamesList]
  | cons e rest ih => rw [freeNamesList, List.mem_append, ih, List.exists_mem_cons_iff]

theorem mem_freeNamesEntries_iff {es : List (Expr × Expr)} {x : String} :
    x ∈ freeNamesEntries es ↔ ∃ e ∈ es, x ∈ e.1.freeNames ∨ x ∈ e.2.freeNames := by
  induction es with
  | nil => simp [freeNamesEntries]
  | cons e rest ih =>
    obtain ⟨k, v⟩ := e
    rw [freeNamesEntries, List.mem_append, List.mem_append, ih, List.exists_mem_cons_iff]

/-- **Only free names are read.** -/
theorem mem_freeNames_of_reads {scope : Scope} {e : Expr} {s : Seed} {x : String}
    (h : Reads scope e s x) : x ∈ e.freeNames := by
  induction h with
  | name scope x s => exact List.mem_singleton_self x
  | member _ ih | has _ ih | unary _ ih => exact ih
  | left _ ih | orLeft _ ih | andLeft _ ih | range _ ih | collectRange _ ih =>
    exact List.mem_append_left _ ih
  | right _ _ ih | orRight _ _ ih | andRight _ _ ih | no _ _ ih =>
    exact List.mem_append_right _ ih
  | condition _ ih => exact List.mem_append_left _ (List.mem_append_left _ ih)
  | yes _ _ ih => exact List.mem_append_left _ (List.mem_append_right _ ih)
  | item _ _ ih =>
    exact mem_freeNamesList_iff.2 ⟨_, List.mem_append_right _ List.mem_cons_self, ih⟩
  | key _ _ ih =>
    exact mem_freeNamesEntries_iff.2 ⟨_, List.mem_append_right _ List.mem_cons_self, .inl ih⟩
  | value _ _ _ _ ih =>
    exact mem_freeNamesEntries_iff.2 ⟨_, List.mem_append_right _ List.mem_cons_self, .inr ih⟩
  | quantified _ _ _ hne _ ih =>
    exact List.mem_append_right _ (List.mem_filter.2 ⟨ih, by simpa using hne⟩)
  | collectCondition _ _ _ hne _ ih =>
    refine List.mem_append_right _ (List.mem_filter.2 ⟨?_, by simpa using hne⟩)
    exact List.mem_append_left _ ih
  | collectItem _ _ _ _ hne _ ih =>
    refine List.mem_append_right _ (List.mem_filter.2 ⟨?_, by simpa using hne⟩)
    exact List.mem_append_right _ ih
  | argument _ ih =>
    exact List.mem_append_right _ (mem_freeNamesList_iff.2 ⟨_, List.mem_cons_self, ih⟩)
  | target _ _ _ ih => exact List.mem_append_left _ ih
  | passedOn _ _ _ _ ih =>
    refine List.mem_append_right _ (mem_freeNamesList_iff.2 ⟨_, ?_, ih⟩)
    exact List.mem_append_right _ List.mem_cons_self

/-! ## Names that every evaluation comes to -/

mutual
/-- **The names that an evaluation comes to before it can have a value.** What may be passed over
is left out: the second operand of a condition, the branches of a choice, what is said of the items
of a range, and the arguments of a call with several of them. -/
def certainNames : Expr → List String
  | literal _ => []
  | name x => [x]
  | member e _ => e.certainNames
  | has e _ => e.certainNames
  | call target _ args => certainNamesOption target ++ certainNamesOnly args
  | unary _ e => e.certainNames
  | binary _ a b => a.certainNames ++ b.certainNames
  | or a _ => a.certainNames
  | and a _ => a.certainNames
  | choice c _ _ => c.certainNames
  | list items => certainNamesList items
  | map entries => certainNamesEntries entries
  | message _ _ => []
  | quantified _ range _ _ => range.certainNames
  | collect range _ _ _ => range.certainNames
/-- The certain names of a receiver that may be left out. -/
def certainNamesOption : Option Expr → List String
  | none => []
  | some e => e.certainNames
/-- The certain names of a single argument. -/
def certainNamesOnly : List Expr → List String
  | [e] => e.certainNames
  | _ => []
/-- The certain names of some expressions. -/
def certainNamesList : List Expr → List String
  | [] => []
  | e :: rest => e.certainNames ++ certainNamesList rest
/-- The certain names of the keys and values of entries. -/
def certainNamesEntries : List (Expr × Expr) → List String
  | [] => []
  | (k, v) :: rest => k.certainNames ++ v.certainNames ++ certainNamesEntries rest
end

mutual
/-- **Every certain name is in scope** where an expression has a value. -/
theorem lookup_of_eval {scope : Scope} {x : String} :
    ∀ {e : Expr} {s : Seed} {v : Value}, eval scope e s = .ok v → x ∈ e.certainNames →
      (scope.lookup x).isSome = true
  | .literal _, _, _, _, hx => by cases hx
  | .name y, _, v, h, hx => by
    obtain rfl : x = y := List.mem_singleton.1 hx
    rw [eval] at h
    split at h
    · next w hw => rw [hw]; rfl
    · cases h
  | .member e _, _, _, h, hx => by
    rw [eval] at h
    obtain ⟨w, hw, -⟩ := bind_eq_ok h
    exact lookup_of_eval hw hx
  | .has e _, _, _, h, hx => by
    rw [eval] at h
    obtain ⟨w, hw, -⟩ := bind_eq_ok h
    exact lookup_of_eval hw hx
  | .call target function args, _, _, h, hx => by
    rw [eval] at h
    unfold answer at h
    split at h
    · cases h
    · next hno =>
      split at h
      · cases h
      · obtain ⟨t, ht, -⟩ := bind_eq_ok h
        rcases List.mem_append.1 hx with hx | hx
        · exact lookup_of_evalTarget ht hx
        · exact lookup_of_evalArgs hno hx
  | .unary .not e, _, _, h, hx => by
    rw [eval] at h
    obtain ⟨w, hw, -⟩ := bind_eq_ok h
    exact lookup_of_eval hw hx
  | .unary .negate e, _, _, h, hx => by
    rw [eval] at h
    obtain ⟨w, hw, -⟩ := bind_eq_ok h
    exact lookup_of_eval hw hx
  | .binary _ a b, _, _, h, hx => by
    rw [eval] at h
    obtain ⟨w, hw, h⟩ := bind_eq_ok h
    obtain ⟨u, hu, -⟩ := bind_eq_ok h
    rcases List.mem_append.1 hx with hx | hx
    · exact lookup_of_eval hw hx
    · exact lookup_of_eval hu hx
  | .or a _, _, _, h, hx => by
    rw [eval] at h
    obtain ⟨w, hw, -⟩ := bind_eq_ok h
    exact lookup_of_eval hw hx
  | .and a _, _, _, h, hx => by
    rw [eval] at h
    obtain ⟨w, hw, -⟩ := bind_eq_ok h
    exact lookup_of_eval hw hx
  | .choice c _ _, _, _, h, hx => by
    rw [eval] at h
    obtain ⟨w, hw, -⟩ := bind_eq_ok h
    exact lookup_of_eval hw hx
  | .list items, _, _, h, hx => by
    rw [eval] at h
    obtain ⟨ws, hws, -⟩ := bind_eq_ok h
    exact lookup_of_evalItems hws hx
  | .map entries, _, _, h, hx => by
    rw [eval] at h
    obtain ⟨ws, hws, -⟩ := bind_eq_ok h
    exact lookup_of_evalEntries hws hx
  | .message _ _, _, _, _, hx => by cases hx
  | .quantified _ range _ _, _, _, h, hx => by
    rw [eval] at h
    obtain ⟨w, hw, -⟩ := bind_eq_ok h
    exact lookup_of_eval hw hx
  | .collect range _ _ _, _, _, h, hx => by
    rw [eval] at h
    obtain ⟨w, hw, -⟩ := bind_eq_ok h
    exact lookup_of_eval hw hx
theorem lookup_of_evalTarget {scope : Scope} {x : String} :
    ∀ {target : Option Expr} {s : Seed} {t : Option Value}, evalTarget scope target s = .ok t →
      x ∈ certainNamesOption target → (scope.lookup x).isSome = true
  | none, _, _, _, hx => by cases hx
  | some e, _, _, h, hx => by
    rw [evalTarget] at h
    obtain ⟨w, hw, -⟩ := bind_eq_ok h
    exact lookup_of_eval hw hx
theorem lookup_of_evalArgs {scope : Scope} {x : String} :
    ∀ {args : List Expr} {s : Seed}, (∀ f, evalArgs scope args s = [.error f] → False) →
      x ∈ certainNamesOnly args → (scope.lookup x).isSome = true
  | [], _, _, hx => by cases hx
  | [e], s, hno, hx => by
    cases he : eval scope e s.here with
    | error f => exact (hno f (by rw [evalArgs, evalArgs, he])).elim
    | ok v => exact lookup_of_eval he hx
  | _ :: _ :: _, _, _, hx => by cases hx
theorem lookup_of_evalItems {scope : Scope} {x : String} :
    ∀ {items : List Expr} {s : Seed} {vs : List Value}, evalItems scope items s = .ok vs →
      x ∈ certainNamesList items → (scope.lookup x).isSome = true
  | [], _, _, _, hx => by cases hx
  | e :: rest, _, _, h, hx => by
    rw [evalItems] at h
    obtain ⟨w, hw, h⟩ := bind_eq_ok h
    obtain ⟨ws, hws, -⟩ := bind_eq_ok h
    rcases List.mem_append.1 hx with hx | hx
    · exact lookup_of_eval hw hx
    · exact lookup_of_evalItems hws hx
theorem lookup_of_evalEntries {scope : Scope} {x : String} :
    ∀ {entries : List (Expr × Expr)} {found vs : List (Key × Value)} {s : Seed},
      evalEntries scope entries found s = .ok vs → x ∈ certainNamesEntries entries →
      (scope.lookup x).isSome = true
  | [], _, _, _, _, hx => by cases hx
  | (k, e) :: rest, _, _, _, h, hx => by
    rw [evalEntries] at h
    obtain ⟨key, hk, h⟩ := bind_eq_ok h
    split at h
    · cases h
    · obtain ⟨v, hv, h⟩ := bind_eq_ok h
      rcases List.mem_append.1 hx with hx | hx
      · rcases List.mem_append.1 hx with hx | hx
        · exact lookup_of_eval hk hx
        · exact lookup_of_eval hv hx
      · exact lookup_of_evalEntries h hx
end

end Expr

/-! ## Accepted rules -/

namespace Environment

variable {env : Environment} {e : Expr}

/-- **Every variable in the scope of an instance is declared.** -/
theorem declared?_of_lookup {v : Json} {s : Seed} {x : String}
    (h : ((env.bindings v s).lookup x).isSome = true) : (env.declared? x).isSome = true := by
  unfold declared?
  by_cases hx : x = env.scopeVariable
  · rw [if_pos hx]
    rfl
  · rw [if_neg hx]
    rw [bindings, Scope.lookup_cons_of_ne hx] at h
    obtain ⟨w, hw⟩ := Option.isSome_iff_exists.1 h
    have hmem : (x, w) ∈ env.fieldsBound v s.apart := by
      obtain ⟨before, after, heq, -⟩ := List.lookup_eq_some_iff.1 hw
      rw [heq]
      exact List.mem_append_right _ List.mem_cons_self
    unfold fieldsBound at hmem
    split at hmem
    · obtain ⟨⟨name, d⟩, hd, he⟩ := List.mem_filterMap.1 hmem
      obtain ⟨u, -, hu⟩ := Option.map_eq_some_iff.1 he
      cases hu
      exact Fields.has_iff.2 (List.mem_map_of_mem hd)
    · cases hmem

/-- All trials but the last one miss a key. -/
theorem mem_trials_cases {t : Trial} : ∀ {fuel : Nat} {keys : List String} {s : Seed},
    t ∈ env.trials e fuel keys s →
      t = (env.trials e fuel keys s).getLast (trials_ne_nil env e fuel keys s) ∨
        ∃ key, env.missed? t = some key := by
  intro fuel
  induction fuel with
  | zero =>
    intro keys s ht
    exact .inl (List.mem_singleton.1 ht)
  | succ fuel ih =>
    intro keys s ht
    cases h : env.missed? (env.trial e keys s.here) with
    | none =>
      simp only [trials_of_conclusive h, List.mem_singleton, List.getLast_singleton] at ht ⊢
      exact .inl ht
    | some key =>
      simp only [trials_of_missed h, List.mem_cons,
        List.getLast_cons (trials_ne_nil env e fuel _ _)] at ht ⊢
      rcases ht with rfl | ht
      · exact .inr ⟨key, h⟩
      · exact ih ht

/-- **No trial of an accepted expression finds a name undeclared.** -/
theorem answer_ne_undeclared {s : Seed} (h : env.verdict e s = .ok ()) {t : Trial}
    (ht : t ∈ env.trials e keyLimit [] s) (x : String) : t.answer ≠ .error (.undeclared x) := by
  intro hx
  have hconclusive : env.missed? t = none := by
    unfold missed?
    rw [hx]
  -- a trial that misses a key has another fault, and the last one was judged
  rcases mem_trials_cases ht with rfl | ⟨key, hkey⟩
  · have hjudge : judge (env.lastTrial e s).answer = .ok () := by
      rw [answer_lastTrial, ← verdict_of_conclusive hconclusive]
      exact h
    have hanswer : (env.lastTrial e s).answer = .error (.undeclared x) := hx
    rw [hanswer] at hjudge
    cases hjudge
  · rw [hconclusive] at hkey
    cases hkey

/-- A value of an execution is the value of the expression. -/
theorem eval_of_execute {v : Json} {s : Seed} {w : Value} (h : env.execute e v s = .ok w) :
    e.eval (env.bindings v s.here) s.next = .ok w := by
  unfold execute contained at h
  split at h
  · cases h
  · exact h

/-- **The execution of an expression on an instance comes to a name.** -/
def Reads (env : Environment) (e : Expr) (v : Json) (s : Seed) (x : String) : Prop :=
  e.Reads (env.bindings v s.here) s.next x

/-- A name that is read but not in scope is the fault of an execution. -/
theorem execute_of_reads {v : Json} {s : Seed} {x : String} (h : env.Reads e v s x)
    (hx : (env.bindings v s.here).lookup x = none) :
    env.execute e v s = .error (.undeclared x) := by
  rw [execute, Expr.eval_of_reads h hx]
  rfl

end Environment

open Environment in
/-- **An accepted rule reads declared variables only** when it is tried: every name that the
evaluation of a trial comes to is free and a declared variable. If the last trial has a value, every
name to which each evaluation comes is a declared variable. -/
theorem accepted_reads_declared {d : Declaration} {scope : String} {env : Environment}
    (henv : Environment.build d scope = .ok env) {rules : List Rule} {i : Nat} {rule : Rule}
    (hi : rules[i]? = some rule) {e : Expr} (he : Expr.ofText? rule.expression = some e)
    {s : Seed} {r : CompiledRule}
    (hr : (Compilation.ofRules d rules scope s).slots[i]? = some (some r)) :
    (∀ t ∈ env.trials e keyLimit [] (s.item i), ∀ x,
      env.Reads e (d.sample t.keys) ((s.item i).item t.keys.length) x →
        x ∈ e.freeNames ∧ (env.declared? x).isSome = true) ∧
    ∀ v, (env.lastTrial e (s.item i)).answer = .ok v → ∀ x ∈ e.certainNames,
      (env.declared? x).isSome = true := by
  obtain ⟨hv, -⟩ := (Compilation.getElem?_slots_eq_some_iff henv hi he).1 hr
  obtain ⟨-, -, rfl⟩ := build_eq_ok henv
  constructor
  · intro t ht x hx
    refine ⟨Expr.mem_freeNames_of_reads hx, ?_⟩
    cases hlookup : (env.bindings (env.root.sample t.keys)
        ((s.item i).item t.keys.length).here).lookup x with
    | none =>
      have hundeclared := (answer_of_mem_trials ht).trans (execute_of_reads hx hlookup)
      exact absurd hundeclared (answer_ne_undeclared hv ht x)
    | some w => exact declared?_of_lookup (by rw [hlookup]; rfl)
  · intro v hvalue x hx
    rw [answer_lastTrial] at hvalue
    exact declared?_of_lookup (Expr.lookup_of_eval (eval_of_execute hvalue) hx)

/-- A name that is read as an argument for an item, and one that is read in any case. -/
theorem argument_reads_declared :
    ∃ env, Environment.build
        (.object "self" [("names", .list .string), ("root", .string)]) "self" = .ok env ∧
      (env.declared? "root").isSome = true ∧ (env.declared? "names").isSome = true := by
  have hscope : isIdentifier "self" = true := by decide +kernel
  have henv : Environment.build (.object "self" [("names", .list .string), ("root", .string)])
      "self" = .ok _ := if_pos hscope
  have hi : [Rule.mk "names.exists(n, startsWith(n, root))" ""][0]? =
      some (Rule.mk "names.exists(n, startsWith(n, root))" "") := rfl
  have he : Expr.ofText? (Rule.mk "names.exists(n, startsWith(n, root))" "").expression =
      some (.quantified .some (.name "names") "n"
        (.call none "startsWith" [.name "n", .name "root"])) :=
    Expr.ofText?_of_scan [.ident "names", .mark ".", .ident "exists", .mark "(", .ident "n",
      .mark ",", .ident "startsWith", .mark "(", .ident "n", .mark ",", .ident "root", .mark ")",
      .mark ")"] (by decide +kernel) rfl
  have hr := (Compilation.getElem?_slots_eq_some_iff (s := .standard) henv hi he).2
    ⟨by decide +kernel, rfl⟩
  obtain ⟨hreads, hcertain⟩ := accepted_reads_declared henv hi he hr
  refine ⟨_, henv, ?_, hcertain (.bool true) rfl "names" (by decide)⟩
  -- the list of the sample has one item, a text, so a fault of what follows it is passed on
  have hitems : Expr.itemsOf (.list [.str ""]) = .ok ([] ++ .str "" :: []) := rfl
  have hpasses : Function.startsWith.PassesOn ⟨none, [.ok (.str ""), .ok (.str "")]⟩ 1 :=
    (Function.passesOn_of_mem_textMethods (by decide) "" _ _).2
  refine (hreads _ (List.getLast_mem (Environment.trials_ne_nil _ _ _ _ _)) "root" ?_).2
  refine .quantified rfl hitems nofun (by decide) ?_
  exact @Expr.Reads.passedOn _ none _ _ [.name "n"] [] _ _ _ _ rfl rfl hpasses (.name _ _ _)

/-- **A name that is passed over need not be declared.** -/
theorem passed_over_name_is_accepted :
    ∃ env e r, Environment.build .int "self" = .ok env ∧
      Expr.ofText? "true || nope > 0" = some e ∧
      (∀ s, (Compilation.ofRules .int [⟨"true || nope > 0", ""⟩] "self" s).slots[0]? =
        some (some r)) ∧
      "nope" ∈ e.freeNames ∧ env.declared? "nope" = none := by
  have hscope : isIdentifier "self" = true := by decide +kernel
  have henv : Environment.build .int "self" = .ok _ := if_pos hscope
  have hi : [Rule.mk "true || nope > 0" ""][0]? = some (Rule.mk "true || nope > 0" "") := rfl
  have he : Expr.ofText? (Rule.mk "true || nope > 0" "").expression =
      some (.or (.literal (.bool true))
        (.binary .greater (.name "nope") (.literal (.int 0)))) :=
    Expr.ofText?_of_scan [.yes, .mark "||", .ident "nope", .mark ">", .int "0"]
      (by decide +kernel) rfl
  have hr := fun s =>
    (Compilation.getElem?_slots_eq_some_iff (s := s) henv hi he).2 ⟨rfl, rfl⟩
  exact ⟨_, _, _, henv, he, hr, by decide, rfl⟩

end SchemaRules
