import SchemaRules.Config.Load
import SchemaRules.Proofs.Cuts
import SchemaRules.Proofs.Names
import SchemaRules.Proofs.Nodes
import SchemaRules.Proofs.RuleLists

/-!
# Settings that are loaded

A configuration is checked when it is loaded, from variables or from a file, so the rules of every
schema have an environment. The keys of a variable stand between commas, with blanks and empty
places among them.

* `Config.fits_iff`: **the configurations that leave no schema without an environment** are those
  whose scope variable is an identifier, and those that look for no key.
* `Text.trim_of_padded`: what stands between blanks is left when they are taken off.
* `Text.cut_glue`: **texts without the separator are cut apart where they were joined**.
* `Config.keysOf_joinWith`: the keys of a list, by induction on its places.
* `loaded_settings_fit`: what this says of configurations that are loaded.
-/

namespace SchemaRules

/-! ## Environments -/

/-- **No schema is left without an environment** under the configuration. -/
def Config.Fits (c : Config) : Prop :=
  ∀ (schema : Schema) (s : Seed), ∀ e ∈ (Validator.ofSchema schema c s).errors,
    ∀ err, e.error ≠ .environment err

section
variable {c : Config} {s : Seed}

/-- Under an identifier every declaration has an environment. -/
theorem Compilation.environment_notMem (h : isIdentifier c.scopeVariable = true)
    (schema : Schema) (err : EnvironmentError) :
    CompileError.environment err ∉ (ofSchema schema c s).errors := by
  intro hmem
  unfold ofSchema at hmem
  split at hmem
  · simp [failed] at hmem
  · split at hmem
    · next d _ =>
      obtain ⟨env, hbuild, -, -⟩ := Environment.build_of_isIdentifier h d
      obtain ⟨i, rule, -, hrule⟩ := (mem_errors_ofRules hbuild).1 hmem
      -- the errors of single rules know their places
      have hindex := (of_compileRule_eq_error hrule).1
      cases hindex
    · simp [failed] at hmem

/-- Without an identifier a node with rules and a declaration has no environment. -/
theorem Compilation.environment_mem (h : isIdentifier c.scopeVariable = false)
    {schema : Schema} {rules : List Rule} {d : Declaration}
    (hrules : schema.rules c.ruleExtensions = .ok rules)
    (hd : schema.declare c.scopeVariable = .ok d) :
    CompileError.environment ⟨c.scopeVariable⟩ ∈ (ofSchema schema c s).errors := by
  have hbuild : Environment.build d c.scopeVariable = .error ⟨c.scopeVariable⟩ := by
    rw [Environment.build, h]
    rfl
  simp only [ofSchema, hrules, hd, ofRules, hbuild, failed, List.mem_singleton]

/-- **The errors of a validator** are those of the nodes with a configured key. -/
theorem Validator.mem_errors_iff {schema : Schema} {e : NodeError} :
    e ∈ (Validator.ofSchema schema c s).errors ↔
      ∃ n ∈ schema.nodes, n.part.hasRules c.ruleExtensions = true ∧
        ∃ err ∈ (RuleTree.nodeCompilation c s n).errors, ⟨Schema.pathOf n.way, err⟩ = e := by
  have herrors : (Validator.ofSchema schema c s).errors =
      schema.nodes.flatMap (RuleTree.nodeErrors c "" s) :=
    RuleTree.errors_ofSchema "" schema s
  simp only [herrors, RuleTree.flatMap_nodeErrors, List.mem_flatMap, List.mem_filter,
    RuleTree.errorsAt, List.mem_map, and_assoc]

/-- A schema with an empty list of rules under a key. -/
def Schema.bare (key : String) : Schema :=
  { Schema.empty with types := ["boolean"] }.setRules key []

theorem Schema.rules_bare (key : String) (keys : List String) :
    (bare key).rules keys = .ok [] := by
  have hunder : ∀ k, (bare key).rulesUnder k = .ok [] := by
    intro k
    by_cases hk : k = key
    · subst hk
      rw [← rules_singleton]
      exact rules_setRules _ k []
    · exact rulesUnder_setRules_of_ne hk []
  induction keys with
  | nil => rfl
  | cons k rest ih =>
    rw [rules, hunder, ih]
    rfl

/-- **A scope variable that is no identifier** leaves a schema without an environment, if a key is
looked for at all. -/
theorem Config.fits_iff :
    c.Fits ↔ isIdentifier c.scopeVariable = true ∨ c.ruleExtensions = [] := by
  constructor
  · intro h
    cases hscope : isIdentifier c.scopeVariable with
    | true => exact .inl rfl
    | false =>
      refine .inr (List.eq_nil_iff_forall_not_mem.2 fun key hkey => ?_)
      have hhas : (Schema.bare key).hasRules c.ruleExtensions = true :=
        List.any_eq_true.2 ⟨key, hkey, Fields.has_iff.2 List.mem_cons_self⟩
      have hmem := Compilation.environment_mem (s := Schema.seedOf .standard []) hscope
        (Schema.rules_bare key _) (d := .bool) rfl
      exact h (.bare key) .standard _ (Validator.mem_errors_iff.2
        ⟨⟨[], .bare key⟩, List.mem_cons_self, hhas, _, hmem, rfl⟩) _ rfl
  · intro h schema s e he err heq
    obtain ⟨n, -, hhas, e', he', rfl⟩ := Validator.mem_errors_iff.1 he
    rcases h with hscope | hnil
    · rw [show e' = .environment err from heq] at he'
      exact Compilation.environment_notMem hscope n.part err he'
    · rw [hnil] at hhas
      cases hhas

/-- **A configuration that passes the check** is the one that was checked. -/
theorem Config.checked_eq_ok_iff {c' : Config} :
    c.checked = .ok c' ↔
      isIdentifier c.scopeVariable = true ∧ c.ruleExtensions ≠ [] ∧ c = c' := by
  unfold checked
  cases isIdentifier c.scopeVariable <;> cases c.ruleExtensions <;> simp

end

/-! ## Blanks -/

namespace Text

/-- **A text with blanks around it.** -/
def Padded (text s : String) : Prop :=
  ∃ before behind : List Char, before.all isBlank = true ∧ behind.all isBlank = true ∧
    s.toList = before ++ text.toList ++ behind

/-- Neither the first nor the last character of a text is blank. -/
def Tight (text : String) : Prop :=
  (∀ c ∈ text.toList.head?, isBlank c = false) ∧ ∀ c ∈ text.toList.getLast?, isBlank c = false

instance (text : String) : Decidable (Tight text) :=
  decidable_of_iff
    (text.toList.head?.all (!isBlank ·) = true ∧ text.toList.getLast?.all (!isBlank ·) = true)
    (by simp [Tight, Option.all_eq_true])

/-- Blanks in front are dropped up to the first character that is none. -/
theorem dropWhile_blanks {blanks rest : List Char} (h : blanks.all isBlank = true)
    (hrest : ∀ c ∈ rest.head?, isBlank c = false) :
    (blanks ++ rest).dropWhile isBlank = rest := by
  rw [List.dropWhile_append_of_pos (List.all_eq_true.1 h)]
  cases rest with
  | nil => rfl
  | cons c cs => exact List.dropWhile_cons_of_neg (by simp [hrest c rfl])

/-- **What stands between blanks** is left when they are taken off. -/
theorem trim_of_padded {text s : String} (h : Padded text s) (htight : Tight text) :
    trim s = text := by
  obtain ⟨before, behind, hbefore, hbehind, hs⟩ := h
  obtain ⟨hfirst, hlast⟩ := htight
  by_cases hnil : text.toList = []
  · -- blanks alone
    have hdrop : s.toList.dropWhile isBlank = [] := by
      rw [hs, hnil, List.append_nil, ← List.append_nil (before ++ behind)]
      exact dropWhile_blanks (by rw [List.all_append, hbefore, hbehind]; rfl) (by simp)
    rw [trim, trimChars, hdrop, ← String.toList_inj, hnil]
    rfl
  · have hfront : s.toList.dropWhile isBlank = text.toList ++ behind := by
      rw [hs, List.append_assoc]
      refine dropWhile_blanks hbefore ?_
      rwa [List.head?_append_of_ne_nil _ hnil]
    have hback : (behind.reverse ++ text.toList.reverse).dropWhile isBlank =
        text.toList.reverse := by
      refine dropWhile_blanks (by rwa [List.all_reverse]) ?_
      rwa [List.head?_reverse]
    rw [trim, trimChars, hfront, List.reverse_append, hback, List.reverse_reverse,
      String.ofList_toList]

theorem tight_empty : Tight "" :=
  ⟨by simp, by simp⟩

/-- An identifier has no blanks around it. -/
theorem tight_of_isIdentifier {name : String} (h : isIdentifier name = true) : Tight name := by
  have hall := List.all_eq_true.1 (of_isNameText (Bool.and_eq_true_iff.1 h).1).1
  exact ⟨fun c hc => isBlank_of_isNamePart (hall c (List.mem_of_mem_head? hc)),
    fun c hc => isBlank_of_isNamePart (hall c (List.mem_of_mem_getLast? hc))⟩

/-! ## Commas -/

variable {c : Char} {p : List Char} {ps : List (List Char)}

theorem cutFrom_append_cons (h : c ∉ p) (s : List Char) :
    cutFrom [c] 0 (p ++ c :: s) = p :: cutFrom [c] 0 s := by
  induction p with
  | nil => simp [cutFrom, beginsWith, after?]
  | cons d p ih =>
    obtain ⟨hd, hp⟩ := not_or.1 (mt List.mem_cons.2 h)
    simp [cutFrom, beginsWith, after?, hd, ih hp, extendHead]

theorem cutFrom_self (h : c ∉ p) : cutFrom [c] 0 p = [p] := by
  induction p with
  | nil => rfl
  | cons d p ih =>
    obtain ⟨hd, hp⟩ := not_or.1 (mt List.mem_cons.2 h)
    simp [cutFrom, beginsWith, after?, hd, ih hp, extendHead]

/-- **Texts without the separator** are cut apart where they were joined. -/
theorem cut_glue (hps : ps ≠ []) (h : ∀ p ∈ ps, c ∉ p) : cut [c] (glue [c] ps) = ps := by
  rw [cut_eq_cutFrom (List.cons_ne_nil c [])]
  induction ps with
  | nil => exact absurd rfl hps
  | cons p rest ih =>
    obtain ⟨hp, hrest⟩ := List.forall_mem_cons.1 h
    by_cases hnil : rest = []
    · subst hnil
      exact cutFrom_self hp
    · rw [glue_cons hnil, List.append_assoc, List.singleton_append, cutFrom_append_cons hp,
        ih hnil hrest]

end Text

namespace Config

open Text

/-- **A key** is not empty, has no comma in it and no blanks around it. -/
def IsKey (key : String) : Prop :=
  key ≠ "" ∧ ',' ∉ key.toList ∧ Tight key

instance (key : String) : Decidable (IsKey key) :=
  inferInstanceAs (Decidable (key ≠ "" ∧ ',' ∉ key.toList ∧ Tight key))

/-- **The places of a list of keys**: there are blanks around the keys, and places of blanks alone
among them. -/
inductive Places : List String → List String → Prop
  | nil : Places [] []
  | blank {place : String} {keys places : List String} :
      Padded "" place → Places keys places → Places keys (place :: places)
  | key {key place : String} {keys places : List String} :
      Padded key place → Places keys places → Places (key :: keys) (place :: places)

/-- **The name that a variable gives**, with blanks around it; without the variable it is that of
the standard. -/
inductive Named : Option String → String → Prop
  | absent : Named none standard.scopeVariable
  | given {name s : String} : isIdentifier name = true → Padded name s → Named (some s) name

theorem comma_notMem_of_padded {key place : String} (h : Padded key place)
    (hkey : ',' ∉ key.toList) : ',' ∉ place.toList := by
  obtain ⟨before, behind, hbefore, hbehind, hs⟩ := h
  -- a comma is no blank
  have hblank : ∀ blanks : List Char, blanks.all isBlank = true → ',' ∉ blanks := by
    intro blanks hall hmem
    exact absurd (List.all_eq_true.1 hall _ hmem) (by decide)
  rw [hs]
  simp [hkey, hblank _ hbefore, hblank _ hbehind]

theorem Places.comma_notMem {keys places : List String} (h : Places keys places)
    (hkeys : ∀ key ∈ keys, IsKey key) : ∀ place ∈ places, ',' ∉ place.toList := by
  induction h with
  | nil => simp
  | blank hplace _ ih =>
    exact List.forall_mem_cons.2
      ⟨comma_notMem_of_padded hplace List.not_mem_nil, ih hkeys⟩
  | key hplace _ ih =>
    obtain ⟨hkey, hrest⟩ := List.forall_mem_cons.1 hkeys
    exact List.forall_mem_cons.2 ⟨comma_notMem_of_padded hplace hkey.2.1, ih hrest⟩

/-- The places that are not empty without their blanks are the keys. -/
theorem Places.filter_trim {keys places : List String} (h : Places keys places)
    (hkeys : ∀ key ∈ keys, IsKey key) : (places.map trim).filter (!·.isEmpty) = keys := by
  induction h with
  | nil => rfl
  | blank hplace _ ih =>
    rw [List.map_cons, trim_of_padded hplace tight_empty]
    exact ih hkeys
  | key hplace _ ih =>
    obtain ⟨⟨hne, -, htight⟩, hrest⟩ := List.forall_mem_cons.1 hkeys
    rw [List.map_cons, trim_of_padded hplace htight, List.filter_cons, ih hrest]
    simp [hne]

/-- **The keys of a list**, for all blanks and all empty places in it. -/
theorem keysOf_joinWith {keys places : List String} (h : Places keys places) (hne : keys ≠ [])
    (hkeys : ∀ key ∈ keys, IsKey key) : keysOf (joinWith "," places) = keys := by
  have hplaces : places.map String.toList ≠ [] := by
    intro hnil
    rw [List.map_eq_nil_iff] at hnil
    subst hnil
    cases h
    exact hne rfl
  have hcut : cut [','] (glue [','] (places.map String.toList)) = places.map String.toList := by
    refine cut_glue hplaces fun p hp => ?_
    obtain ⟨place, hplace, rfl⟩ := List.mem_map.1 hp
    exact h.comma_notMem hkeys place hplace
  calc keysOf (joinWith "," places)
      = ((cut [','] (glue [','] (places.map String.toList))).map
          fun key => String.ofList (trimChars key)).filter (!·.isEmpty) := by
        rw [keysOf, joinWith, String.toList_ofList]
        rfl
    _ = (places.map trim).filter (!·.isEmpty) := by
        rw [hcut, List.map_map]
        rfl
    _ = keys := h.filter_trim hkeys

/-- **The settings of the variables** are those of the configuration. -/
theorem ofVariables_eq_ok {lookup : String → Option String} {name : String}
    {keys places : List String} (hscope : Named (lookup "XVAL_SCOPE_VARIABLE") name)
    (h : lookup "XVAL_RULE_EXTENSIONS" = some (joinWith "," places)) (hplaces : Places keys places)
    (hne : keys ≠ []) (hkeys : ∀ key ∈ keys, IsKey key) :
    ofVariables lookup = .ok ⟨name, keys⟩ := by
  have hname : isIdentifier name = true ∧
      ((lookup "XVAL_SCOPE_VARIABLE").map trim).getD standard.scopeVariable = name := by
    generalize lookup "XVAL_SCOPE_VARIABLE" = setting at hscope
    cases hscope with
    | absent => exact ⟨by decide +kernel, rfl⟩
    | given hid hpadded => exact ⟨hid, trim_of_padded hpadded (tight_of_isIdentifier hid)⟩
  rw [ofVariables, hname.2, h, Option.map_some, Option.getD_some,
    keysOf_joinWith hplaces hne hkeys]
  exact checked_eq_ok_iff.2 ⟨hname.1, hne, rfl⟩

end Config

/-- **A loaded configuration fits every schema.** Whatever variables are set and whatever a file
holds, under the configuration that is loaded no schema is left without an environment. A variable
that lists keys between commas, with any blanks around them and any places of blanks among them,
gives these keys in their order. -/
theorem loaded_settings_fit :
    (∀ lookup c, Config.ofVariables lookup = .ok c → c.Fits) ∧
    (∀ (files : Files) path c, files.loadConfig path = .ok c → c.Fits) ∧
    ∀ (lookup : String → Option String) (name : String) (keys places : List String),
      keys ≠ [] → (∀ key ∈ keys, Config.IsKey key) → Config.Places keys places →
        lookup "XVAL_RULE_EXTENSIONS" = some (Text.joinWith "," places) →
        Config.Named (lookup "XVAL_SCOPE_VARIABLE") name →
          Config.ofVariables lookup = .ok ⟨name, keys⟩ := by
  have hchecked : ∀ c c' : Config, c.checked = .ok c' → c'.Fits := by
    intro c c' h
    obtain ⟨hscope, -, rfl⟩ := Config.checked_eq_ok_iff.1 h
    exact Config.fits_iff.2 (.inl hscope)
  refine ⟨fun lookup c h => hchecked _ c h, fun files path c h => ?_, ?_⟩
  · unfold Files.loadConfig at h
    split at h
    · cases h
    · split at h
      · exact hchecked _ c h
      · cases h
  · intro lookup name keys places hne hkeys hplaces h hscope
    exact Config.ofVariables_eq_ok hscope h hplaces hne hkeys

/-- Two settings with blanks and an empty place. -/
def blankSettings : String → Option String
  | "XVAL_SCOPE_VARIABLE" => some " obj"
  | "XVAL_RULE_EXTENSIONS" => some "x-rules, x-more-rules,"
  | _ => none

/-- Settings with blanks are loaded from variables, and one setting from a file. -/
theorem blank_settings_are_loaded :
    Config.ofVariables blankSettings = .ok ⟨"obj", ["x-rules", "x-more-rules"]⟩ ∧
      Config.Fits ⟨"obj", ["x-rules", "x-more-rules"]⟩ ∧
      Files.loadConfig (fun _ => .ok "scope_variable: object") "settings" =
        .ok ⟨"object", Config.standard.ruleExtensions⟩ ∧
      Config.Fits ⟨"object", Config.standard.ruleExtensions⟩ := by
  obtain ⟨hvariables, hfiles, hlisted⟩ := loaded_settings_fit
  have hkeys : ∀ key ∈ ["x-rules", "x-more-rules"], Config.IsKey key := by decide +kernel
  have hplaces : Config.Places ["x-rules", "x-more-rules"] ["x-rules", " x-more-rules", ""] :=
    .key ⟨[], [], rfl, rfl, rfl⟩
      (.key ⟨[' '], [], rfl, rfl, rfl⟩ (.blank ⟨[], [], rfl, rfl, rfl⟩ .nil))
  have hlist : blankSettings "XVAL_RULE_EXTENSIONS" =
      some (Text.joinWith "," ["x-rules", " x-more-rules", ""]) := by
    decide +kernel
  have hscope : Config.Named (blankSettings "XVAL_SCOPE_VARIABLE") "obj" :=
    .given (by decide +kernel) ⟨[' '], [], rfl, rfl, rfl⟩
  have hload : Config.ofVariables blankSettings = .ok ⟨"obj", ["x-rules", "x-more-rules"]⟩ :=
    hlisted blankSettings "obj" _ _ (by decide) hkeys hplaces hlist hscope
  have hfile : Files.loadConfig (fun _ => .ok "scope_variable: object") "settings" =
      .ok ⟨"object", Config.standard.ruleExtensions⟩ := by
    decide +kernel
  exact ⟨hload, hvariables _ _ hload, hfile, hfiles _ _ _ hfile⟩

end SchemaRules
