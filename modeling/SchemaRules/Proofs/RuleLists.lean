import Mathlib.Data.List.Forall2
import SchemaRules.Proofs.Declarations
import SchemaRules.Proofs.SoundSchemas
import SchemaRules.Schema.Rules

/-!
# Rule lists that are attached and read back

Rules are attached to a node as an extension, in place of what stood under the key. An extension
is no part of the shape, so nothing but the rules under this key changes.

* `Rule.listOfJson_toJson`: **rules are read again from what they are written as**.
* `Schema.rules_setRules`, `Schema.rules_setRules_of_notMem`: the rules under the key and under
  other keys.
* `Schema.setRules_setRules`: of two lists under one key the second one is left.
* `Schema.rules_eq_ok_iff`, `Schema.rules_eq_error_iff`: **all lists are read, or the first one that
  is not readable is told**, by induction on the keys.
* `attached_rules_are_read_back`: all of it for a schema of a document.
-/

namespace SchemaRules

/-! ## Rules as values -/

theorem Rule.ofJson_toJson (r : Rule) : ofJson r.toJson = .ok r := by
  have hmessage : Fields.get? "message" (Fields.ofList r.toEntries) = some (.str r.message) := by
    simp [toEntries, Fields.ofList, Fields.get?_insert]
  have hrule : Fields.get? "rule" (Fields.ofList r.toEntries) = some (.str r.expression) := by
    simp [toEntries, Fields.ofList, Fields.get?_insert]
  rw [toJson, Json.ofEntries, ofJson, entryText, entryText, hmessage, hrule]
  rfl

/-- **Rules are read again from what they are written as.** -/
theorem Rule.listOfJson_toJson (rules : List Rule) :
    listOfJson (.arr (rules.map toJson)) = .ok rules :=
  mapM_map_eq_ok ofJson_toJson rules

namespace Schema

variable {s : Schema} {key : String}

/-! ## Attaching -/

theorem rules_singleton (s : Schema) (key : String) : s.rules [key] = s.rulesUnder key := by
  rw [rules, rules]
  cases s.rulesUnder key with
  | error e => rfl
  | ok rules => exact congrArg Except.ok (List.append_nil rules)

/-- **The rules under the key** are those that were attached. -/
theorem rules_setRules (s : Schema) (key : String) (rules : List Rule) :
    (s.setRules key rules).rules [key] = .ok rules := by
  rw [rules_singleton, rulesUnder, setRules, Fields.get?_insert, if_pos rfl]
  simp only [Rule.listOfJson_toJson]

/-- Under another key the extension is what it was. -/
theorem get?_setRules_of_ne {k : String} (h : k ≠ key) (rules : List Rule) :
    Fields.get? k (s.setRules key rules).extensions = Fields.get? k s.extensions := by
  rw [setRules, Fields.get?_insert, if_neg h.symm]

theorem rulesUnder_setRules_of_ne {k : String} (h : k ≠ key) (rules : List Rule) :
    (s.setRules key rules).rulesUnder k = s.rulesUnder k := by
  rw [rulesUnder, get?_setRules_of_ne h, rulesUnder]

/-- **The rules under other keys** are what they were. -/
theorem rules_setRules_of_notMem {keys : List String} (h : key ∉ keys) (rules : List Rule) :
    (s.setRules key rules).rules keys = s.rules keys := by
  induction keys with
  | nil => rfl
  | cons k rest ih =>
    obtain ⟨hne, hrest⟩ := not_or.1 (mt List.mem_cons.2 h)
    rw [Schema.rules, Schema.rules, rulesUnder_setRules_of_ne (Ne.symm hne), ih hrest]

theorem hasRules_setRules (s : Schema) (key : String) (rules : List Rule) :
    (s.setRules key rules).hasRules [key] = true := by
  simp [hasRules, setRules, Fields.has, Fields.get?_insert]

theorem hasRules_setRules_of_notMem {keys : List String} (h : key ∉ keys) (rules : List Rule) :
    (s.setRules key rules).hasRules keys = s.hasRules keys := by
  induction keys with
  | nil => rfl
  | cons k rest ih =>
    obtain ⟨hne, hrest⟩ := not_or.1 (mt List.mem_cons.2 h)
    have ih := ih hrest
    simp only [hasRules] at ih ⊢
    rw [List.any_cons, List.any_cons, ih, Fields.has, Fields.has,
      get?_setRules_of_ne (Ne.symm hne)]

/-- **Of two lists under one key the second one is left.** -/
theorem setRules_setRules (s : Schema) (key : String) (rules rules' : List Rule) :
    (s.setRules key rules).setRules key rules' = s.setRules key rules' := by
  simp only [setRules, Fields.insert_insert]

/-- An extension does not count for a declaration. -/
theorem declare_setRules (s : Schema) (key : String) (rules : List Rule) (name : String) :
    (s.setRules key rules).declare name = s.declare name := by
  rw [declare_eq, declare_eq]
  rfl

theorem Sound.setRules (h : s.Sound) (hkey : key ∉ keywords) (rules : List Rule) :
    (s.setRules key rules).Sound :=
  h.extend hkey _

/-! ## Reading -/

variable {keys : List String}

/-- **All lists are read**, one behind the other. -/
theorem rules_eq_ok_iff {rules : List Rule} :
    s.rules keys = .ok rules ↔
      ∃ lists, List.Forall₂ (fun key list => s.rules [key] = .ok list) keys lists ∧
        rules = lists.flatten := by
  induction keys generalizing rules with
  | nil =>
    constructor
    · intro h
      cases h
      exact ⟨[], .nil, rfl⟩
    · rintro ⟨lists, hlists, rfl⟩
      cases hlists
      rfl
  | cons key rest ih =>
    constructor
    · intro h
      obtain ⟨here, hhere, h⟩ := bind_eq_ok h
      obtain ⟨behind, hbehind, h⟩ := bind_eq_ok h
      cases h
      obtain ⟨lists, hlists, rfl⟩ := ih.1 hbehind
      exact ⟨here :: lists, .cons ((rules_singleton s key).trans hhere) hlists, rfl⟩
    · rintro ⟨_, hlists, rfl⟩
      obtain _ | ⟨hhere, hlists⟩ := hlists
      rw [Schema.rules, ← rules_singleton, hhere, ih.2 ⟨_, hlists, rfl⟩]
      rfl

/-- **The first list that is not readable is told.** -/
theorem rules_eq_error_iff {e : RulesError} :
    s.rules keys = .error e ↔
      ∃ before key after, keys = before ++ key :: after ∧
        (∀ k ∈ before, ∃ list, s.rules [k] = .ok list) ∧ s.rules [key] = .error e := by
  induction keys with
  | nil => simp [Schema.rules]
  | cons k rest ih =>
    rw [Schema.rules, ← rules_singleton]
    cases hk : s.rules [k] with
    | error e' =>
      constructor
      · intro h
        cases h
        exact ⟨[], k, rest, rfl, List.forall_mem_nil _, hk⟩
      · rintro ⟨before, key, after, hkeys, hbefore, he⟩
        cases before with
        | nil =>
          cases hkeys
          exact hk.symm.trans he
        | cons b before =>
          cases hkeys
          obtain ⟨list, hlist⟩ := hbefore k List.mem_cons_self
          cases hk.symm.trans hlist
    | ok here =>
      -- a readable list fails nothing, so the first one that is not readable is in the rest
      have hrest : (do return here ++ (← s.rules rest)) = .error e ↔ s.rules rest = .error e := by
        cases s.rules rest <;> simp [bind, Except.bind, pure, Except.pure]
      refine hrest.trans (ih.trans ⟨?_, ?_⟩)
      · rintro ⟨before, key, after, rfl, hbefore, he⟩
        exact ⟨k :: before, key, after, rfl, List.forall_mem_cons.2 ⟨⟨here, hk⟩, hbefore⟩, he⟩
      · rintro ⟨before, key, after, hkeys, hbefore, he⟩
        cases before with
        | nil =>
          cases hkeys
          cases hk.symm.trans he
        | cons b before =>
          cases hkeys
          exact ⟨before, key, after, rfl, fun k hk => hbefore k (List.mem_cons_of_mem _ hk), he⟩

end Schema

/-- **Rules that are attached to a schema of a document are read back**, also from what the schema
is written as, and nothing else changes. The rules under some keys are those under the first key,
then those under the second one, and so on, unless one of the lists is not readable: then the first
such list is told. -/
theorem attached_rules_are_read_back (s : Schema) :
    (s.OfDocument → ∀ key ∉ Schema.keywords, ∀ rules, ∃ t, s.setRules key rules = t ∧
      t.rules [key] = .ok rules ∧ t.hasRules [key] = true ∧
      (∀ k, k ≠ key → Fields.get? k t.extensions = Fields.get? k s.extensions) ∧
      { t with extensions := s.extensions } = s ∧
      t.shape = s.shape ∧ (∀ name, t.declare name = s.declare name) ∧
      (∀ keys, key ∉ keys → t.rules keys = s.rules keys ∧ t.hasRules keys = s.hasRules keys) ∧
      (∀ rules', t.setRules key rules' = s.setRules key rules') ∧
      Schema.ofJson t.toJson = .ok t) ∧
    ∀ keys,
      (∀ rules, s.rules keys = .ok rules ↔
        ∃ lists, List.Forall₂ (fun key list => s.rules [key] = .ok list) keys lists ∧
          rules = lists.flatten) ∧
      ∀ e, s.rules keys = .error e ↔
        ∃ before key after, keys = before ++ key :: after ∧
          (∀ k ∈ before, ∃ list, s.rules [k] = .ok list) ∧ s.rules [key] = .error e := by
  refine ⟨fun hs key hkey rules => ⟨_, rfl, ?_⟩, fun keys =>
    ⟨fun _ => Schema.rules_eq_ok_iff, fun _ => Schema.rules_eq_error_iff⟩⟩
  refine ⟨Schema.rules_setRules s key rules, Schema.hasRules_setRules s key rules, ?_, ?_, rfl,
    Schema.declare_setRules s key rules, ?_, Schema.setRules_setRules s key rules, ?_⟩
  · intro k hk
    exact Schema.get?_setRules_of_ne hk rules
  · cases s
    rfl
  · intro keys hkeys
    exact ⟨Schema.rules_setRules_of_notMem hkeys rules,
      Schema.hasRules_setRules_of_notMem hkeys rules⟩
  · exact (hs.sound.setRules hkey rules).ofJson_toJson

/-- A node with a text where a list of rules is expected. -/
def misruled : Schema :=
  { Schema.empty with types := ["string"], extensions := [("x-old", .str "self")] }

/-- A list is read back beside one that is not readable; together they are told apart. -/
theorem list_is_read_beside_an_unreadable_one :
    misruled.OfDocument ∧ "x-rules" ∉ Schema.keywords ∧
    ∃ t, misruled.setRules "x-rules" [⟨"self != ''", "non-empty"⟩] = t ∧
      t.rules ["x-rules", "x-none"] = .ok [⟨"self != ''", "non-empty"⟩] ∧
      Schema.ofJson t.toJson = .ok t ∧
      t.rules ["x-rules", "x-old", "x-rules"] =
        .error ⟨"x-old", (Json.str "self").mismatch "a sequence"⟩ := by
  have hv : (Json.obj [("type", .str "string"), ("x-old", .str "self")]).Canonical := by
    decide +kernel
  have hdocument : misruled.OfDocument := .json hv rfl
  have hkey : "x-rules" ∉ Schema.keywords := by decide
  obtain ⟨t, rfl, hread, -, -, -, -, -, hothers, -, hwritten⟩ :=
    (attached_rules_are_read_back misruled).1 hdocument "x-rules" hkey
      [⟨"self != ''", "non-empty"⟩]
  refine ⟨hdocument, hkey, _, rfl, ?_, hwritten, ?_⟩
  · have hnone := (hothers ["x-none"] (by decide)).1
    exact (((attached_rules_are_read_back _).2 _).1 _).2
      ⟨[_, []], .cons hread (.cons hnone .nil), rfl⟩
  · have hold := (hothers ["x-old"] (by decide)).1
    exact (((attached_rules_are_read_back _).2 _).2 _).2
      ⟨["x-rules"], "x-old", ["x-rules"], rfl, by simpa using ⟨_, hread⟩, hold⟩

end SchemaRules
