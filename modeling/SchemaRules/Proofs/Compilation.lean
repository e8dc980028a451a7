import SchemaRules.Compilation.OfRules

/-!
# Compiling a list of rules

Each rule of a list is compiled on its own, so what becomes of a list is what becomes of its
rules at their places.

* `getElem?_slots_ofRules`, `mem_errors_ofRules`: the slots and the errors of a list.
* `isSpecified_of_ofText?`: **a text that writes an expression is not blank**, so a rule whose
  text can be read is never passed over as empty.
* `compileRule_of_ofText?`: such a rule is compiled exactly if its trials accept it.
-/

namespace SchemaRules

/-! ## Blank texts -/

/-- A comment begins with a slash. -/
theorem Token.isComment_cons_of_ne {c : Char} (h : c ≠ '/') (cs : List Char) :
    Token.isComment (c :: cs) = false := by
  simp [Token.isComment, Text.beginsWith, Text.after?, h.symm]

/-- Blanks alone are no tokens. -/
theorem Token.scanFrom_of_blank {cs : List Char} (h : cs.all Text.isBlank = true) :
    ∀ fuel, cs.length < fuel → Token.scanFrom fuel cs = some [] := by
  induction cs with
  | nil =>
    intro fuel hf
    obtain ⟨fuel, rfl⟩ : ∃ n, fuel = n + 1 := ⟨fuel - 1, by omega⟩
    rfl
  | cons c rest ih =>
    intro fuel hf
    obtain ⟨fuel, rfl⟩ : ∃ n, fuel = n + 1 := ⟨fuel - 1, by omega⟩
    simp only [List.all_cons, Bool.and_eq_true] at h
    -- a slash is no blank, so no comment begins here
    have hne : c ≠ '/' := by
      rintro rfl; exact absurd h.1 (by decide)
    have hc := Token.isComment_cons_of_ne hne rest
    rw [Token.scanFrom, if_neg (by simp [hc]), if_pos h.1]
    exact ih h.2 fuel (by simp only [List.length_cons] at hf; omega)

/-- **A text that writes an expression is not blank.** -/
theorem isSpecified_of_ofText? {rule : Rule} {e : Expr}
    (h : Expr.ofText? rule.expression = some e) : rule.isSpecified = true := by
  cases hb : Text.isBlankText rule.expression with
  | false => simp [Rule.isSpecified, hb]
  | true =>
    have hscan : Token.scan rule.expression = some [] :=
      Token.scanFrom_of_blank hb _ (Nat.lt_succ_self _)
    have hnone : Expr.ofText? rule.expression = none := by
      rw [Expr.ofText?, hscan]; rfl
    rw [hnone] at h; cases h

/-- A text is read by its tokens. -/
theorem Expr.ofText?_of_scan {text : String} {e : Expr} (tokens : List Token)
    (hscan : Token.scan text = some tokens)
    (he : Expr.takeExpr Expr.depthLimit tokens = some (e, [])) : Expr.ofText? text = some e := by
  rw [Expr.ofText?, hscan, Option.bind_eq_bind, Option.bind_some, he]

/-! ## One rule -/

theorem Environment.build_eq_ok {d : Declaration} {scope : String} {env : Environment}
    (h : Environment.build d scope = .ok env) :
    isIdentifier scope = true ∧ env.scopeVariable = scope ∧ env.root = d := by
  unfold Environment.build at h
  split at h
  · next hs => cases h; exact ⟨hs, rfl, rfl⟩
  · cases h

theorem Environment.build_of_isIdentifier {scope : String} (h : isIdentifier scope = true)
    (d : Declaration) : ∃ env, Environment.build d scope = .ok env ∧ env.scopeVariable = scope ∧
      env.root = d := by
  have hb : Environment.build d scope = .ok _ := if_pos h
  exact ⟨_, hb, rfl, rfl⟩

/-- **A rule whose text can be read** stands or falls with the verdict on its expression. -/
theorem compileRule_of_ofText? {rule : Rule} {e : Expr} (env : Environment)
    (h : Expr.ofText? rule.expression = some e) (index : Nat) (s : Seed) :
    compileRule env rule index s =
      match env.verdict e s with
      | .ok () => .ok ⟨rule, e, env⟩
      | .error diagnostic => .error (.rejected index rule (.diagnosed diagnostic)) := by
  simp only [compileRule, isSpecified_of_ofText? h, h]
  rfl

/-! ## A list of rules -/

namespace Compilation

theorem getElem?_slots_compileFrom (env : Environment) (rules : List Rule) :
    ∀ index i s, (compileFrom env index rules s).slots[i]? =
      rules[i]?.map fun rule => (compileRule env rule (index + i) (s.item i)).toOption := by
  induction rules with
  | nil => intro index i s; simp [compileFrom]
  | cons rule rest ih =>
    intro index i s
    have hadd : (compileFrom env index (rule :: rest) s).slots =
        (compileRule env rule index s.here).toOption ::
          (compileFrom env (index + 1) rest s.next).slots := by
      simp only [compileFrom, add]
      split <;> next hr => rw [hr]; rfl
    rw [hadd]
    cases i with
    | zero => simp
    | succ i =>
      rw [List.getElem?_cons_succ, ih, List.getElem?_cons_succ, Nat.add_right_comm, Nat.add_assoc,
        Seed.item_succ]

theorem mem_errors_compileFrom {env : Environment} {err : CompileError} {rules : List Rule} :
    ∀ index s, err ∈ (compileFrom env index rules s).errors ↔
      ∃ i rule, rules[i]? = some rule ∧
        compileRule env rule (index + i) (s.item i) = .error err := by
  induction rules with
  | nil => intro index s; simp [compileFrom]
  | cons rule rest ih =>
    intro index s
    have hsplit : err ∈ (compileFrom env index (rule :: rest) s).errors ↔
        compileRule env rule index s.here = .error err ∨
          err ∈ (compileFrom env (index + 1) rest s.next).errors := by
      simp only [compileFrom, add]
      split <;> next hr => simp [hr, eq_comm]
    rw [hsplit, ih]
    constructor
    · rintro (h | ⟨i, r, hr, h⟩)
      · exact ⟨0, rule, rfl, h⟩
      · exact ⟨i + 1, r, hr, by rwa [Nat.add_right_comm, Nat.add_assoc] at h⟩
    · rintro ⟨i, r, hr, h⟩
      cases i with
      | zero => cases hr; exact .inl h
      | succ i => exact .inr ⟨i, r, hr, by rwa [Nat.add_right_comm, Nat.add_assoc]⟩

variable {d : Declaration} {scope : String} {env : Environment} {s : Seed}

/-- **The slots of a list**, each by its own rule and its own part of the seed. -/
theorem getElem?_slots_ofRules (h : Environment.build d scope = .ok env) (rules : List Rule)
    (i : Nat) (s : Seed) : (ofRules d rules scope s).slots[i]? =
      rules[i]?.map fun rule => (compileRule env rule i (s.item i)).toOption := by
  rw [ofRules, h, getElem?_slots_compileFrom, Nat.zero_add]

/-- **The errors of a list**, each by its own rule and its own part of the seed. -/
theorem mem_errors_ofRules (h : Environment.build d scope = .ok env) {rules : List Rule}
    {err : CompileError} : err ∈ (ofRules d rules scope s).errors ↔
      ∃ i rule, rules[i]? = some rule ∧ compileRule env rule i (s.item i) = .error err := by
  rw [ofRules, h, mem_errors_compileFrom]
  simp only [Nat.zero_add]

section
variable {rules : List Rule} {i : Nat} {rule : Rule} {e : Expr}

/-- **The slot of a rule whose text can be read** is filled exactly if the verdict accepts it. -/
theorem getElem?_slots_eq_some_iff (h : Environment.build d scope = .ok env)
    (hi : rules[i]? = some rule) (he : Expr.ofText? rule.expression = some e) {r : CompiledRule} :
    (ofRules d rules scope s).slots[i]? = some (some r) ↔
      env.verdict e (s.item i) = .ok () ∧ r = ⟨rule, e, env⟩ := by
  rw [getElem?_slots_ofRules h, hi, Option.map_some, Option.some.injEq,
    compileRule_of_ofText? env he]
  cases env.verdict e (s.item i) with
  | ok _ => simp [Except.toOption, eq_comm]
  | error _ => simp [Except.toOption]

/-- **A rule that the verdict rejects** is an error with its diagnostic. -/
theorem mem_errors_of_verdict (h : Environment.build d scope = .ok env)
    (hi : rules[i]? = some rule) (he : Expr.ofText? rule.expression = some e) {diagnostic : String}
    (hv : env.verdict e (s.item i) = .error diagnostic) :
    CompileError.rejected i rule (.diagnosed diagnostic) ∈ (ofRules d rules scope s).errors := by
  rw [mem_errors_ofRules h]
  exact ⟨i, rule, hi, by rw [compileRule_of_ofText? env he, hv]⟩

end

end Compilation

end SchemaRules
