import SchemaRules.Proofs.Skeletons
import SchemaRules.Structure.OfJson

/-!
# What checks mean

A check means a condition if, at whatever place it stands, it finds no violation in exactly the
values that meet the condition. The meaning of a check is put together from those of its parts.

* `Check.Means`, `Demand.Means`: what a check and a demand mean.
* `Demand.means_items`, `Demand.means_members`, `Demand.means_others`: **what the demands on parts
  mean**, by the meanings of their checks.
* `violations_eq_nil_iff_keeps`: **a value without violations keeps every keyword** of a node, and
  `keeps_iff` says what that comes to for a keyword whose operands have a meaning.
* `keeps_extension`: an extension demands nothing.
-/

namespace SchemaRules

variable {follow : Follow}

/-! ## Meanings -/

/-- **A check means a condition** on values whose keys ascend. -/
def Check.Means (follow : Follow) (c : Check) (P : Json → Prop) : Prop :=
  ∀ place spot v, v.Canonical → (c.violations follow place spot v = [] ↔ P v)

/-- **A demand means a condition** under a keyword. -/
def Demand.Means (follow : Follow) (d : Demand) (keyword : String) (P : Json → Prop) : Prop :=
  ∀ place spot v, v.Canonical → (d.violations follow keyword place spot v = [] ↔ P v)

theorem Json.get?_eq (key : String) (v : Json) : v.get? key = Fields.get? key (fieldsOf v) := by
  cases v <;> rfl

theorem Json.Canonical.ordered_fieldsOf {v : Json} (h : v.Canonical) :
    Fields.Ordered (fieldsOf v) := by
  cases v with
  | obj fields => exact h.1
  | _ => exact List.Pairwise.nil

theorem Json.Canonical.of_mem_fieldsOf {v : Json} (h : v.Canonical) {e : String × Json}
    (he : e ∈ fieldsOf v) : e.2.Canonical := by
  cases v with
  | obj fields => exact canonicalFields_iff.1 h.2 e he
  | _ => cases he

theorem Json.Canonical.of_get? {v member : Json} (h : v.Canonical) {key : String}
    (hm : v.get? key = some member) : member.Canonical := by
  rw [Json.get?_eq] at hm
  exact h.of_mem_fieldsOf (Fields.mem_of_get? hm)

theorem Json.Canonical.of_mem_itemsOf {v item : Json} (h : v.Canonical) (hi : item ∈ itemsOf v) :
    item.Canonical := by
  cases v with
  | arr items => exact canonicalItems_iff.1 h item hi
  | _ => cases hi

/-- In a value whose keys ascend, an entry is the value of its key. -/
theorem Json.Canonical.mem_fieldsOf_iff {v : Json} (h : v.Canonical) {key : String}
    {member : Json} : (key, member) ∈ fieldsOf v ↔ v.get? key = some member := by
  rw [Json.get?_eq, h.ordered_fieldsOf.get?_eq_some_iff]

/-- The parts of a node are values in it. -/
theorem Structure.Part.canonical {fields : Fields Json} {part : Json}
    (hpart : Structure.Part fields part) (h : (Json.obj fields).Canonical) : part.Canonical := by
  cases hpart with
  | items hget => exact h.of_get? hget
  | additional hget => exact h.of_get? hget
  | property hlisted =>
    obtain ⟨listed, hlisted, hget⟩ := Structure.listedPart?_eq_some_iff.1 hlisted
    have hproperties : (Json.obj listed).Canonical := h.of_get? hlisted
    exact hproperties.of_get? hget

theorem Check.means_never : Check.never.Means follow fun _ => False := by
  intro place spot v _
  rw [Check.violations_never]
  exact iff_of_false (List.cons_ne_nil _ _) not_false

theorem Check.means_always : Check.always.Means follow fun _ => True := by
  intro place spot v _
  rw [Check.always, Check.violations, demandsViolations]
  exact iff_of_true rfl trivial

/-! ## Demands on values -/

theorem Demand.means_kinds (ks : List Kind) (keyword : String) :
    (Demand.kinds ks).Means follow keyword fun v => ks.any (·.accepts v) = true := by
  intro place spot v _
  rw [Demand.violations_kinds, Demand.breach?]
  by_cases h : ks.any (·.accepts v) = true
  · simp [h]
  · simp [h]

theorem Demand.means_required (names : List String) (keyword : String) :
    (Demand.required names).Means follow keyword fun v =>
      ∀ members, v = .obj members → ∀ name ∈ names, Fields.has name members = true := by
  intro place spot v _
  rw [Demand.violations_required, List.map_eq_nil_iff]
  cases v with
  | obj members =>
    simp only [Demand.missing, List.filter_eq_nil_iff, Json.obj.injEq, forall_eq',
      Bool.not_eq_true', Bool.not_eq_false]
  | _ => simp [Demand.missing]

/-! ## Demands on parts -/

/-- **A demand on items** means that of every item which the check means. -/
theorem Demand.means_items {c : Check} {P : Json → Prop} (hc : c.Means follow P)
    (keyword : String) :
    (Demand.items 0 c).Means follow keyword fun v =>
      ∀ items item, v = .arr items → item ∈ items → P item := by
  intro place spot v hv
  rw [Demand.violations, List.drop_zero, List.flatMap_eq_nil_iff]
  have hitem : ∀ x i, x ∈ itemsOf v →
      (c.violations follow (stepToItem place i) (stepTo spot keyword) x = [] ↔ P x) :=
    fun x i hx => hc _ _ x (hv.of_mem_itemsOf hx)
  constructor
  · rintro h items item rfl hmem
    obtain ⟨i, hi, rfl⟩ := List.mem_iff_getElem.1 hmem
    have hzip : (items[i], i) ∈ items.zipIdx := by
      rw [List.mem_iff_getElem]
      exact ⟨i, by simpa using hi, by simp⟩
    exact (hitem _ i hmem).1 (h _ hzip)
  · intro h x hx
    have hmem : x.1 ∈ itemsOf v := List.fst_mem_of_mem_zipIdx hx
    refine (hitem _ _ hmem).2 ?_
    cases v with
    | arr items => exact h items x.1 rfl hmem
    | _ => cases hmem

theorem knownViolations_eq_nil_iff {known : List (String × Check)} {place spot : String}
    {fields : List (String × Json)} :
    knownViolations follow known place spot fields = [] ↔
      ∀ e ∈ known, ∀ member, Fields.get? e.1 fields = some member →
        e.2.violations follow (stepTo place e.1) (stepTo spot e.1) member = [] := by
  induction known with
  | nil => simp [knownViolations]
  | cons e rest ih =>
    obtain ⟨name, c⟩ := e
    rw [knownViolations, List.append_eq_nil_iff, ih, List.forall_mem_cons]
    refine and_congr_left fun _ => ?_
    cases Fields.get? name fields <;> simp

/-- **A demand on known members** means of each what its own check means. -/
theorem Demand.means_members {known : List (String × Check)} (hknown : Fields.Ordered known)
    {P : String → Json → Prop}
    (hP : ∀ key c, Fields.get? key known = some c → c.Means follow (P key)) (keyword : String) :
    (Demand.members known).Means follow keyword fun v =>
      ∀ key member, Fields.has key known = true → v.get? key = some member → P key member := by
  intro place spot v hv
  rw [Demand.violations, knownViolations_eq_nil_iff]
  constructor
  · intro h key member hkey hm
    obtain ⟨c, hc⟩ := Option.isSome_iff_exists.1 hkey
    rw [Json.get?_eq] at hm
    have hnone := h (key, c) (Fields.mem_of_get? hc) member hm
    exact (hP key c hc _ _ member (hv.of_mem_fieldsOf (Fields.mem_of_get? hm))).1 hnone
  · intro h e he member hm
    have hc := hknown.get?_eq_some_iff.2 he
    refine (hP e.1 e.2 hc _ _ member (hv.of_mem_fieldsOf (Fields.mem_of_get? hm))).2 ?_
    refine h e.1 member (Option.isSome_iff_exists.2 ⟨_, hc⟩) ?_
    rw [Json.get?_eq, hm]

theorem memberViolations_eq (known : List (String × Check)) (key place spot : String)
    (x : Json) : memberViolations follow known key place spot x =
      (Fields.get? key known).map fun c => c.violations follow place (stepTo spot key) x := by
  induction known with
  | nil => rfl
  | cons e rest ih =>
    obtain ⟨name, c⟩ := e
    rw [memberViolations]
    by_cases h : name = key
    · subst h; simp
    · rw [if_neg h, ih, Fields.get?_cons_of_ne h]

theorem singleton_unless_eq_nil_iff {α β : Type} {names : List α} {x : β} :
    (if names.isEmpty then [] else [x]) = [] ↔ names = [] := by
  cases names <;> simp

/-- The check of a listed member, if there are listed ones. -/
def listedCheck? (known : Option (List (String × Check))) (key : String) : Option Check :=
  known.bind (Fields.get? key)

theorem listedViolations_eq (known : Option (List (String × Check))) (key place spot : String)
    (x : Json) : listedViolations follow known key place spot x =
      (listedCheck? known key).map fun c => c.violations follow place (stepTo spot key) x := by
  cases known with
  | none => rfl
  | some checks => exact memberViolations_eq ..

/-- **A demand on other members** means of a listed member what its own check means, and of every
other one what the check of the rest means. -/
theorem Demand.means_others {known : Option (List (String × Check))} {P : String → Json → Prop}
    (hP : ∀ key c, listedCheck? known key = some c → c.Means follow (P key)) {rest : Check}
    {Q : Json → Prop} (hQ : rest.Means follow Q) (keyword : String) :
    (Demand.others known [] rest).Means follow keyword fun v =>
      ∀ key member, v.get? key = some member →
        if (listedCheck? known key).isSome then P key member else Q member := by
  intro place spot v hv
  have hmembers : (∀ key member, v.get? key = some member →
        if (listedCheck? known key).isSome then P key member else Q member) ↔
      ∀ e ∈ fieldsOf v, if (listedCheck? known e.1).isSome then P e.1 e.2 else Q e.2 := by
    simp only [← hv.mem_fieldsOf_iff, Prod.forall]
  refine Iff.trans ?_ hmembers.symm
  cases rest with
  | never =>
    have hnever : ∀ e ∈ fieldsOf v, ¬ Q e.2 := by
      intro e he hq
      have hnone := (hQ place spot e.2 (hv.of_mem_fieldsOf he)).2 hq
      exact absurd hnone (by rw [Check.violations]; exact List.cons_ne_nil _ _)
    rw [Demand.violations]
    simp only [listedViolations_eq, matchViolations, Option.isNone_map, Option.isNone_none,
      Bool.and_true, Option.getD_none, List.append_nil, List.isEmpty_nil]
    -- the violations are worded differently with and without listed members
    by_cases hnone : known.isNone = true
    · -- no member is listed, so there may be none at all
      obtain rfl := Option.isNone_iff_eq_none.1 hnone
      rw [if_pos hnone]
      cases hf : fieldsOf v with
      | nil => simp
      | cons e rest =>
        have he : ¬ Q e.2 := hnever e (by rw [hf]; exact List.mem_cons_self)
        simp [listedCheck?, he]
    · rw [if_neg hnone, List.append_eq_nil_iff, List.flatMap_eq_nil_iff,
        singleton_unless_eq_nil_iff, List.map_eq_nil_iff, List.filter_eq_nil_iff, ← forall₂_and]
      refine forall₂_congr fun e he => ?_
      cases hc : listedCheck? known e.1 with
      | none => simpa using hnever e he
      | some c =>
        have hown := hP e.1 c hc (stepTo place e.1) (stepTo (stepTo spot "properties") e.1) e.2
          (hv.of_mem_fieldsOf he)
        simpa using hown
  | all demands =>
    rw [Demand.violations]
    simp only [listedViolations_eq, matchViolations, Option.isNone_map, Option.isNone_none,
      Bool.and_true, Option.getD_none, List.append_nil, List.flatMap_eq_nil_iff]
    refine forall₂_congr fun e he => ?_
    have hmem := hv.of_mem_fieldsOf he
    cases hc : listedCheck? known e.1 with
    | none =>
      have hrest := hQ (stepTo place e.1) (stepTo spot keyword) e.2 hmem
      simpa [Check.violations] using hrest
    | some c =>
      have hown := hP e.1 c hc (stepTo place e.1) (stepTo (stepTo spot "properties") e.1) e.2 hmem
      simpa using hown

/-! ## Keywords of a node -/

/-- The operand of a keyword. -/
def operandOf (key : String) (v : Json) : Operand :=
  match Holding.of? key, v with
  | some .one, v => .check v (Check.ofJson v)
  | some .list, .arr items => .checks (checksOf items)
  | some .map, .obj fields => .named (namedChecksOf fields)
  | _, v => .value v

theorem operandsOf_cons (key : String) (v : Json) (rest : Fields Json) :
    operandsOf ((key, v) :: rest) = (key, operandOf key v) :: operandsOf rest := by
  rw [operandsOf.eq_def]
  rfl

theorem operandsOf_eq_map (fields : Fields Json) :
    operandsOf fields = fields.map fun e => (e.1, operandOf e.1 e.2) := by
  induction fields with
  | nil => rfl
  | cons e rest ih =>
    obtain ⟨key, v⟩ := e
    rw [operandsOf_cons, ih, List.map_cons]

theorem lookup_operandsOf (key : String) (fields : Fields Json) :
    (operandsOf fields).lookup key = (Fields.get? key fields).map (operandOf key) := by
  rw [operandsOf_eq_map]
  induction fields with
  | nil => rfl
  | cons e rest ih =>
    obtain ⟨k, v⟩ := e
    by_cases h : k = key
    · subst h; simp
    · have hne : (key == k) = false := beq_false_of_ne (Ne.symm h)
      rw [List.map_cons, List.lookup_cons, hne, Fields.get?_cons_of_ne h]
      exact ih

theorem namedChecksOf_eq_map (fields : Fields Json) :
    namedChecksOf fields = fields.map fun e => (e.1, Check.ofJson e.2) := by
  induction fields with
  | nil => rfl
  | cons e rest ih => rw [namedChecksOf, ih]; rfl

/-- **An operand means a condition** under its keyword: that of its demand, and none without. -/
def Operands.Means (follow : Follow) (ops : Operands) (key : String) (o : Operand)
    (P : Json → Prop) : Prop :=
  match ops.demand? key o with
  | some d => d.Means follow key P
  | none => ∀ v, P v

/-- **A value keeps a keyword**, if the keyword is there and demands something. -/
def Keeps (follow : Follow) (entries : Fields Json) (key place spot : String) (v : Json) : Prop :=
  ∀ part d, Fields.get? key entries = some part →
    (operandsOf entries).demand? key (operandOf key part) = some d →
    d.violations follow key place spot v = []

theorem demandsViolations_eq_nil_iff {demands : List (String × Demand)} {place spot : String}
    {v : Json} : demandsViolations follow demands place spot v = [] ↔
      ∀ e ∈ demands, e.2.violations follow e.1 place spot v = [] := by
  induction demands with
  | nil => simp [demandsViolations]
  | cons e rest ih =>
    rw [demandsViolations, List.append_eq_nil_iff, ih, List.forall_mem_cons]

/-- **The demands of a node** are those of its keywords. -/
theorem mem_demands_iff {fields : Fields Json} (h : Fields.Ordered fields) {key : String}
    {d : Demand} : (key, d) ∈ (operandsOf fields).demands ↔
      ∃ part, Fields.get? key fields = some part ∧
        (operandsOf fields).demand? key (operandOf key part) = some d := by
  have hops : (operandsOf fields).demands = fields.filterMap fun e =>
      ((operandsOf fields).demand? e.1 (operandOf e.1 e.2)).map fun d => (e.1, d) := by
    rw [Operands.demands]
    conv_lhs => arg 2; rw [operandsOf_eq_map]
    rw [List.filterMap_map]
    rfl
  simp only [hops, List.mem_filterMap, Prod.exists, Option.map_eq_some_iff, Prod.mk.injEq,
    h.get?_eq_some_iff]
  constructor
  · rintro ⟨k, part, hpart, d', hd, rfl, rfl⟩
    exact ⟨part, hpart, hd⟩
  · rintro ⟨part, hpart, hd⟩
    exact ⟨key, part, hpart, d, hd, rfl, rfl⟩

/-- **A value without violations keeps every keyword**, and the other way round. -/
theorem violations_eq_nil_iff_keeps {fields : Fields Json} (h : Fields.Ordered fields)
    (place spot : String) (v : Json) :
    (Check.ofJson (.obj fields)).violations follow place spot v = [] ↔
      ∀ key, Keeps follow fields key place spot v := by
  rw [Check.ofJson, Check.violations, demandsViolations_eq_nil_iff]
  constructor
  · intro hnone key part d hpart hd
    exact hnone (key, d) ((mem_demands_iff h).2 ⟨part, hpart, hd⟩)
  · rintro hkeeps ⟨key, d⟩ he
    obtain ⟨part, hpart, hd⟩ := (mem_demands_iff h).1 he
    exact hkeeps key part d hpart hd

/-- **What keeping a keyword comes to**, where the parts under it are made of others and their
operands mean what is said of those. -/
theorem keeps_iff {fields entries : Fields Json} {key : String} {f : Json → Json}
    (hget : Fields.get? key entries = (Fields.get? key fields).map f) {P : Json → Json → Prop}
    (h : ∀ part, Fields.get? key fields = some part →
      (operandsOf entries).Means follow key (operandOf key (f part)) (P part))
    {v : Json} (hv : v.Canonical) (place spot : String) :
    Keeps follow entries key place spot v ↔
      ∀ part, Fields.get? key fields = some part → P part v := by
  have hsome : ∀ part, Fields.get? key fields = some part →
      Fields.get? key entries = some (f part) := by
    intro part hpart
    rw [hget, hpart]
    rfl
  unfold Operands.Means at h
  constructor
  · intro hkeeps part hpart
    have hmeans := h part hpart
    split at hmeans
    · next d hd => exact (hmeans place spot v hv).1 (hkeeps (f part) d (hsome part hpart) hd)
    · exact hmeans v
  · intro hP part' d hpart' hd
    rw [hget, Option.map_eq_some_iff] at hpart'
    obtain ⟨part, hpart, rfl⟩ := hpart'
    have hmeans := h part hpart
    rw [hd] at hmeans
    exact (hmeans place spot v hv).2 (hP part hpart)

theorem keeps_of_get?_eq_none {entries : Fields Json} {key : String}
    (h : Fields.get? key entries = none) (place spot : String) (v : Json) :
    Keeps follow entries key place spot v := by
  intro part d hpart _
  rw [h] at hpart
  cases hpart

/-- A keyword that holds no schemas and demands nothing of values is kept. -/
theorem keeps_of_ofValue?_eq_none {key : String} (hholding : Holding.of? key = none)
    (hvalue : ∀ part, Demand.ofValue? key part = none) (entries : Fields Json)
    (place spot : String) (v : Json) : Keeps follow entries key place spot v := by
  intro part d _ hd
  have hoperand : operandOf key part = .value part := by
    unfold operandOf
    rw [hholding]
  rw [hoperand, Operands.demand?, hvalue] at hd
  cases hd

/-- **An extension demands nothing**: no keyword that holds schemas or demands something begins
like one. -/
theorem keeps_extension {key : String} (h : Structure.isExtension key = true)
    (entries : Fields Json) (place spot : String) (v : Json) :
    Keeps follow entries key place spot v := by
  have hne : ∀ word, Structure.isExtension word = false → key ≠ word := by
    rintro word hword rfl
    rw [h] at hword
    cases hword
  have hnone : ∀ words : List String, (∀ word ∈ words, Structure.isExtension word = false) →
      ¬ words.contains key = true := by
    intro words hwords hkey
    exact hne key (hwords key (List.contains_iff_mem.1 hkey)) rfl
  refine keeps_of_ofValue?_eq_none ?_ (fun part => ?_) entries place spot v
  · unfold Holding.of?
    rw [if_neg (hnone _ (by decide)), if_neg (hnone _ (by decide)), if_neg (hnone _ (by decide))]
  · unfold Demand.ofValue?
    split
    all_goals first | rfl | exact absurd rfl (hne _ (by decide))

theorem keeps_description (entries : Fields Json) (place spot : String) (v : Json) :
    Keeps follow entries "description" place spot v :=
  keeps_of_ofValue?_eq_none (by decide) (fun _ => rfl) entries place spot v

end SchemaRules
