import SchemaRules.Proofs.Nodes

/-!
# Paths and what they tell apart

Errors name values of an instance, and nodes of a schema, by their paths. A path is plain text: a
key stands in it as it is, with its dots and brackets.

* `Json.follow?`: the value at the end of a way, and `Json.induct`: induction on the parts of data.
* `RuleTree.visits`: **the values that rules are evaluated on**, each with the way to it, which says
  by what seed that is done (`Json.seedOf`).
  `walk_eq_visits`, `follow?_of_mem_visits` and `pairwise_visits` say that they are what the walk
  along an instance comes to.
* `keys_of_pathOf_eq`: **values share a path only if the ways to them part at two keys of one
  object**, of which one is the other one continued by a dot or a bracket.
* `names_of_pathOf_eq`: the same of the nodes of a schema.
* `paths_tell_apart`: both of a validator.
-/

namespace SchemaRules

open Located

namespace Json

/-- **A step from a value to a part of it.** -/
inductive Step where
  | key (k : String)
  | item (i : Nat)
  deriving DecidableEq

namespace Step

/-- What a step adds to the path of a value. -/
def piece : Step → Piece
  | key k => .name k
  | item i => .index (toString i)

/-- The part of a seed by which rules are evaluated on what a step leads to. -/
def seed (s : Seed) : Step → Seed
  | key k => s.next.under k
  | item i => s.next.item i

/-- Keys come in their order, and so do the items of a list. -/
def Before : Step → Step → Prop
  | key a, key b => a < b
  | item i, item j => i < j
  | _, _ => False

theorem not_before_self (a : Step) : ¬ a.Before a := by
  cases a with
  | key k => exact String.lt_irrefl k
  | item i => exact Nat.lt_irrefl i

end Step

/-- **The path of a value.** -/
def pathOf (way : List Step) : String :=
  pathFrom Step.piece "" way

/-- **The seed by which rules are evaluated on a value**, of that of the instance. -/
def seedOf (s : Seed) (way : List Step) : Seed :=
  (way.foldl Step.seed s).here

/-- The part of a value that a step leads to. -/
def part? : Json → Step → Option Json
  | obj fields, .key k => Fields.get? k fields
  | arr items, .item i => items[i]?
  | _, _ => none

/-- **The value at the end of a way.** -/
def follow? (v : Json) : List Step → Option Json
  | [] => some v
  | step :: rest => (v.part? step).bind fun u => u.follow? rest

theorem follow?_append (p q : List Step) : ∀ v : Json,
    v.follow? (p ++ q) = (v.follow? p).bind fun u => u.follow? q := by
  induction p with
  | nil => intro v; rfl
  | cons step rest ih =>
    intro v
    rw [List.cons_append, follow?, follow?, Option.bind_assoc]
    simp only [ih]

mutual
/-- **What holds of data if it holds of its parts** holds of all data. -/
@[elab_as_elim]
theorem induct {P : Json → Prop} (data : ∀ v, (∀ step u, v.part? step = some u → P u) → P v) :
    ∀ v, P v
  | .null | .bool _ | .int _ | .double _ | .str _ => data _ nofun
  | .arr items => data _ fun step u hu =>
      match step with
      | .item _ => induct_items data items u (List.mem_of_getElem? hu)
      | .key _ => nomatch hu
  | .obj fields => data _ fun step u hu =>
      match step with
      | .item _ => nomatch hu
      | .key _ => induct_fields data fields (_, u) (Fields.mem_of_get? hu)
theorem induct_items {P : Json → Prop}
    (data : ∀ v, (∀ step u, v.part? step = some u → P u) → P v) :
    ∀ items : List Json, ∀ u ∈ items, P u
  | [] => List.forall_mem_nil _
  | v :: rest => List.forall_mem_cons.2 ⟨induct data v, induct_items data rest⟩
theorem induct_fields {P : Json → Prop}
    (data : ∀ v, (∀ step u, v.part? step = some u → P u) → P v) :
    ∀ fields : List (String × Json), ∀ e ∈ fields, P e.2
  | [] => List.forall_mem_nil _
  | (_, v) :: rest => List.forall_mem_cons.2 ⟨induct data v, induct_fields data rest⟩
end

/-- Keys lead into objects only. -/
theorem eq_obj_of_follow? {v : Json} {k : String} {rest : List Step}
    (h : (v.follow? (.key k :: rest)).isSome = true) : ∃ fields, v = .obj fields := by
  cases v with
  | obj fields => exact ⟨fields, rfl⟩
  | _ => cases h

/-- Numbers lead into lists only. -/
theorem eq_arr_of_follow? {v : Json} {i : Nat} {rest : List Step}
    (h : (v.follow? (.item i :: rest)).isSome = true) : ∃ items, v = .arr items := by
  cases v with
  | arr items => exact ⟨items, rfl⟩
  | _ => cases h

/-- **Where two ways in one value part**, both go on by keys or both by items. -/
theorem steps_of_partAt {v : Json} {p q common : List Step} {a b : Step}
    (h : PartAt p q common a b) (hp : (v.follow? p).isSome = true)
    (hq : (v.follow? q).isSome = true) :
    (∃ k l, a = .key k ∧ b = .key l) ∨ ∃ i j, a = .item i ∧ b = .item j ∧ i ≠ j := by
  obtain ⟨hne, r, r', rfl, rfl⟩ := h
  rw [follow?_append] at hp hq
  cases hu : v.follow? common with
  | none => rw [hu] at hp; cases hp
  | some u =>
    rw [hu, Option.bind_some] at hp hq
    cases a with
    | key k =>
      obtain ⟨fields, rfl⟩ := eq_obj_of_follow? hp
      cases b with
      | key l => exact .inl ⟨k, l, rfl, rfl⟩
      | item j => cases hq
    | item i =>
      obtain ⟨items, rfl⟩ := eq_arr_of_follow? hp
      cases b with
      | key l => cases hq
      | item j => exact .inr ⟨i, j, rfl, rfl, fun hij => hne (by rw [hij])⟩

end Json

namespace RuleTree

/-! ## Visits -/

/-- **Rules and the value** that they are evaluated on. -/
structure Visit where
  slots : List (Option CompiledRule)
  value : Json

mutual
/-- **The visits of a walk** along a tree. Null is passed over. -/
def visits (t : RuleTree) : Json → List (Located Json.Step Visit)
  | .null => []
  | .arr items =>
    ⟨[], t.slots, .arr items⟩ ::
      match t.items with
      | some child => visitsItems child 0 items
      | none => []
  | .obj fields => ⟨[], t.slots, .obj fields⟩ :: visitsFields t fields
  | v => [⟨[], t.slots, v⟩]
/-- The visits of items, from the item with a number on. -/
def visitsItems (t : RuleTree) : Nat → List Json → List (Located Json.Step Visit)
  | _, [] => []
  | i, v :: rest => under (.item i) (t.visits v) ++ visitsItems t (i + 1) rest
/-- The visits of members. -/
def visitsFields (t : RuleTree) : List (String × Json) → List (Located Json.Step Visit)
  | [] => []
  | (key, v) :: rest =>
    (match t.member? key with
      | some child => under (.key key) (child.visits v)
      | none => []) ++ visitsFields t rest
end

/-- What is said of a visited value, whose way begins at a path. -/
def said (path : String) (s : Seed) (x : Located Json.Step Visit) : List ValidationError :=
  evaluateAll x.part.slots (pathFrom Json.Step.piece path x.way) x.part.value
    (Json.seedOf s x.way)

theorem flatMap_said_under (path : String) (s : Seed) (step : Json.Step)
    (l : List (Located Json.Step Visit)) :
    (under step l).flatMap (said path s) =
      l.flatMap (said (step.piece.onto path) (step.seed s)) := by
  rw [under, List.flatMap_map]
  rfl

mutual
/-- **A walk says what is said at its visits**, in their order. -/
theorem walk_eq_visits (t : RuleTree) (path : String) : ∀ v s,
    t.walk path v s = (t.visits v).flatMap (said path s)
  | .null, _ => rfl
  | .bool _, _ | .int _, _ | .double _, _ | .str _, _ => (List.append_nil _).symm
  | .arr items, s => by
    rw [walk, visits, List.flatMap_cons]
    congr 1
    cases t.items with
    | none => rfl
    | some child => exact walkItems_eq_visits child path 0 items s
  | .obj fields, s => by
    rw [walk, visits, List.flatMap_cons, walkFields_eq_visits t path fields s]
    rfl
theorem walkItems_eq_visits (t : RuleTree) (path : String) : ∀ i items s,
    t.walkItems path i items (s.next.after i) = (t.visitsItems i items).flatMap (said path s)
  | _, [], _ => rfl
  | i, v :: rest, s => by
    rw [walkItems, visitsItems, List.flatMap_append, flatMap_said_under, Seed.next_after,
      walkItems_eq_visits t path (i + 1) rest s, walk_eq_visits t (itemPath path i) v]
    rfl
theorem walkFields_eq_visits (t : RuleTree) (path : String) : ∀ fields s,
    t.walkFields path fields s.next = (t.visitsFields fields).flatMap (said path s)
  | [], _ => rfl
  | (key, v) :: rest, s => by
    rw [walkFields, visitsFields, List.flatMap_append, walkFields_eq_visits t path rest s]
    congr 1
    cases t.member? key with
    | none => rfl
    | some child =>
      simp only
      rw [flatMap_said_under, walk_eq_visits child (joinPath path key) v]
      rfl
end

/-! ## Where the visits are -/

mutual
/-- **A visited value is the one at the end of its way.** -/
theorem follow?_of_mem_visits {t : RuleTree} : ∀ {v : Json}, v.Canonical →
    ∀ x ∈ t.visits v, v.follow? x.way = some x.part.value
  | .null, _, _, hx => by cases hx
  | .bool _, _, _, hx | .int _, _, _, hx | .double _, _, _, hx | .str _, _, _, hx => by
    rw [List.mem_singleton.1 hx]
    rfl
  | .arr items, hv, x, hx => by
    rcases List.mem_cons.1 hx with rfl | hx
    · rfl
    · cases hi : t.items with
      | none => rw [hi] at hx; cases hx
      | some child =>
        rw [hi] at hx
        obtain ⟨j, u, way, hway, hu, hat⟩ := follow?_of_mem_visitsItems hv x hx
        rw [hway, Nat.zero_add, Json.follow?, Json.part?, hu]
        exact hat
  | .obj fields, hv, x, hx => by
    rcases List.mem_cons.1 hx with rfl | hx
    · rfl
    · obtain ⟨key, u, way, hway, hu, hat⟩ := follow?_of_mem_visitsFields hv.2 x hx
      rw [hway, Json.follow?, Json.part?, hv.1.get?_eq_some_iff.2 hu]
      exact hat
theorem follow?_of_mem_visitsItems {t : RuleTree} : ∀ {i : Nat} {items : List Json},
    Json.CanonicalItems items → ∀ x ∈ t.visitsItems i items, ∃ j u way,
      x.way = .item (i + j) :: way ∧ items[j]? = some u ∧ u.follow? way = some x.part.value
  | _, [], _, _, hx => by cases hx
  | i, v :: rest, hv, x, hx => by
    rcases List.mem_append.1 hx with hx | hx
    · obtain ⟨y, hy, rfl⟩ := mem_under hx
      exact ⟨0, v, y.way, rfl, rfl, follow?_of_mem_visits hv.1 y hy⟩
    · obtain ⟨j, u, way, hway, hu, hat⟩ := follow?_of_mem_visitsItems hv.2 x hx
      exact ⟨j + 1, u, way, by rw [hway, Nat.add_right_comm, Nat.add_assoc], hu, hat⟩
theorem follow?_of_mem_visitsFields {t : RuleTree} : ∀ {fields : List (String × Json)},
    Json.CanonicalFields fields → ∀ x ∈ t.visitsFields fields, ∃ key u way,
      x.way = .key key :: way ∧ (key, u) ∈ fields ∧ u.follow? way = some x.part.value
  | [], _, _, hx => by cases hx
  | (key, v) :: rest, hv, x, hx => by
    rcases List.mem_append.1 hx with hx | hx
    · cases hm : t.member? key with
      | none => rw [hm] at hx; cases hx
      | some child =>
        rw [hm] at hx
        obtain ⟨y, hy, rfl⟩ := mem_under hx
        exact ⟨key, v, y.way, rfl, List.mem_cons_self, follow?_of_mem_visits hv.1 y hy⟩
    · obtain ⟨k, u, way, hway, hu, hat⟩ := follow?_of_mem_visitsFields hv.2 x hx
      exact ⟨k, u, way, hway, List.mem_cons_of_mem _ hu, hat⟩
end

theorem startsIn_visitsItems {t : RuleTree} {i : Nat} {items : List Json}
    (h : Json.CanonicalItems items) :
    StartsIn (fun a => ∃ j, i ≤ j ∧ a = .item j) (t.visitsItems i items) := by
  intro x hx
  obtain ⟨j, -, way, hway, -⟩ := follow?_of_mem_visitsItems h x hx
  exact ⟨_, way, hway, i + j, Nat.le_add_right i j, rfl⟩

theorem startsIn_visitsFields {t : RuleTree} {fields : List (String × Json)}
    (h : Json.CanonicalFields fields) :
    StartsIn (fun a => ∃ e ∈ fields, a = .key e.1) (t.visitsFields fields) := by
  intro x hx
  obtain ⟨key, u, way, hway, hu, -⟩ := follow?_of_mem_visitsFields h x hx
  exact ⟨_, way, hway, (key, u), hu, rfl⟩

mutual
/-- **The visits come in the order of their ways**, so no value is visited twice. -/
theorem pairwise_visits {t : RuleTree} : ∀ {v : Json}, v.Canonical →
    (t.visits v).Pairwise (Before Json.Step.Before)
  | .null, _ => .nil
  | .bool _, _ | .int _, _ | .double _, _ | .str _, _ => List.pairwise_singleton _ _
  | .arr items, hv => by
    rw [visits]
    cases t.items with
    | none => exact List.pairwise_singleton _ _
    | some child => exact pairwise_cons_root (pairwise_visitsItems hv) (startsIn_visitsItems hv)
  | .obj fields, hv => by
    rw [visits]
    exact pairwise_cons_root (pairwise_visitsFields hv.1 hv.2) (startsIn_visitsFields hv.2)
theorem pairwise_visitsItems {t : RuleTree} : ∀ {i : Nat} {items : List Json},
    Json.CanonicalItems items → (t.visitsItems i items).Pairwise (Before Json.Step.Before)
  | _, [], _ => .nil
  | i, v :: rest, hv => by
    refine pairwise_append (pairwise_under (pairwise_visits hv.1) (.item i))
      (pairwise_visitsItems hv.2) (startsIn_under (P := (· = .item i)) rfl _)
      (startsIn_visitsItems hv.2) ?_
    rintro a b rfl ⟨j, hj, rfl⟩
    exact hj
theorem pairwise_visitsFields {t : RuleTree} : ∀ {fields : List (String × Json)},
    Fields.Ordered fields → Json.CanonicalFields fields →
      (t.visitsFields fields).Pairwise (Before Json.Step.Before)
  | [], _, _ => .nil
  | (key, v) :: rest, hordered, hv => by
    rw [visitsFields]
    cases t.member? key with
    | none => exact pairwise_visitsFields hordered.tail hv.2
    | some child =>
      refine pairwise_append (pairwise_under (pairwise_visits hv.1) (.key key))
        (pairwise_visitsFields hordered.tail hv.2) (startsIn_under (P := (· = .key key)) rfl _)
        (startsIn_visitsFields hv.2) ?_
      rintro a b rfl ⟨e, he, rfl⟩
      exact (List.pairwise_cons.1 hordered).1 e he
end

end RuleTree

/-! ## Values with the same path -/

namespace Json

/-- The way to a value goes through the empty key of the root. -/
def BehindEmptyKey (way : List Step) : Prop :=
  way.head? = some (.key "")

theorem seen_of_not_behindEmptyKey {way : List Step} (h : ¬ BehindEmptyKey way) :
    Seen Step.piece way := by
  rintro step hstep hlook
  cases step with
  | item i => cases hlook
  | key k =>
    obtain rfl : k = "" := String.toList_inj.1 hlook
    exact h hstep

theorem toList_toString (i : Nat) : (toString i).toList = Nat.toDigits 10 i := by
  rw [Nat.toString_eq_ofList_toDigits, String.toList_ofList]

/-- The number of an item is written with digits. -/
theorem bracket_not_mem_toString (i : Nat) : ']' ∉ (toString i).toList := by
  intro h
  rw [toList_toString] at h
  exact absurd (Nat.isDigit_of_mem_toDigits (by decide) (by decide) h) (by decide)

theorem toString_ne {i j : Nat} (h : i ≠ j) : toString i ≠ toString j := by
  intro hij
  have hdigits := congrArg (fun s => Nat.ofDigitChars 10 s.toList 0) hij
  simp only [toList_toString] at hdigits
  rw [Nat.ofDigitChars_toDigits (by decide) (by decide),
    Nat.ofDigitChars_toDigits (by decide) (by decide)] at hdigits
  exact h hdigits

/-- **Values share a path only if the ways to them part at two keys** of one object, of which one is
the other one continued. -/
theorem keys_of_pathOf_eq {v : Json} {p q : List Step} (hp : (v.follow? p).isSome = true)
    (hq : (v.follow? q).isSome = true) (hne : p ≠ q) (h : pathOf p = pathOf q)
    (hpkey : ¬ BehindEmptyKey p) (hqkey : ¬ BehindEmptyKey q) :
    ∃ common k l, PartAt p q common (.key k) (.key l) ∧ (Continues k l ∨ Continues l k) := by
  obtain ⟨common, a, b, hpart, hruns⟩ := parts_of_pathFrom_eq
    (seen_of_not_behindEmptyKey hpkey) (seen_of_not_behindEmptyKey hqkey) h hne
  -- both ways are in one value, so they part at two keys or at two items
  rcases steps_of_partAt hpart hp hq with ⟨k, l, rfl, rfl⟩ | ⟨i, j, rfl, rfl, hij⟩
  · exact ⟨common, k, l, hpart, hruns.imp Piece.runsInto_name_iff.1 Piece.runsInto_name_iff.1⟩
  · have hno : ∀ i j : Nat, i ≠ j →
        ¬ (Piece.index (toString i)).RunsInto common.isEmpty (.index (toString j)) :=
      fun i j hij => Piece.not_runsInto_index (bracket_not_mem_toString j) (toString_ne hij)
    exact hruns.elim (fun hrun => absurd hrun (hno i j hij))
      fun hrun => absurd hrun (hno j i hij.symm)

end Json

/-! ## Nodes with the same path -/

namespace Schema

/-- The way to a node goes through the property of the empty name at the root. -/
def BehindEmptyName (way : List Step) : Prop :=
  way.head? = some (.property "")

/-- **The name that a path shows** of a step: the values of a map look like a property named `*`,
and, in front of a path only, items like one named `[*]`. -/
def Step.shown? (first : Bool) : Step → Option String
  | property name => some name
  | items => if first then some "[*]" else none
  | values => some "*"

theorem seen_of_not_behindEmptyName {way : List Step} (h : ¬ BehindEmptyName way) :
    Seen Step.piece way := by
  rintro step hstep hlook
  cases step with
  | items => cases hlook
  | values => cases hlook
  | property name =>
    obtain rfl : name = "" := String.toList_inj.1 hlook
    exact h hstep

theorem look_of_shown? {first : Bool} {a : Step} {m : String} (h : a.shown? first = some m) :
    a.piece.look first = (Piece.name m).look first := by
  cases a with
  | property name => cases h; rfl
  | values => cases h; rfl
  | items =>
    cases first with
    | true => cases h; rfl
    | false => cases h

/-- Steps that run into each other are shown by names. -/
theorem continues_of_runsInto {first : Bool} {a b : Step} (hne : a ≠ b)
    (h : a.piece.RunsInto first b.piece) :
    ∃ m n, a.shown? first = some m ∧ b.shown? first = some n ∧ Continues m n := by
  have hshown : ∀ {m n}, a.shown? first = some m → b.shown? first = some n → Continues m n := by
    intro m n hm hn
    obtain ⟨cs, hopens, hlook⟩ := h
    have hruns : (Piece.name m).RunsInto first (.name n) :=
      ⟨cs, hopens, by rw [← look_of_shown? hm, ← look_of_shown? hn, hlook]⟩
    exact Piece.runsInto_name_iff.1 hruns
  cases first with
  | true =>
    obtain ⟨m, hm⟩ : ∃ m, a.shown? true = some m := by cases a <;> exact ⟨_, rfl⟩
    obtain ⟨n, hn⟩ : ∃ n, b.shown? true = some n := by cases b <;> exact ⟨_, rfl⟩
    exact ⟨m, n, hm, hn, hshown hm hn⟩
  | false =>
    -- behind a path a bracket and a name are told apart by their first characters
    cases a with
    | items =>
      cases b with
      | items => exact absurd rfl hne
      | property name => exact absurd h Piece.not_runsInto_index_name
      | values => exact absurd h Piece.not_runsInto_index_name
    | property name =>
      cases b with
      | items => exact absurd h Piece.not_runsInto_name_index
      | property other => exact ⟨_, _, rfl, rfl, hshown rfl rfl⟩
      | values => exact ⟨_, _, rfl, rfl, hshown rfl rfl⟩
    | values =>
      cases b with
      | items => exact absurd h Piece.not_runsInto_name_index
      | property other => exact ⟨_, _, rfl, rfl, hshown rfl rfl⟩
      | values => exact absurd rfl hne

/-- **Nodes share a path only if the ways to them part at two steps**, of which the one is shown by
the name of the other one, continued. -/
theorem names_of_pathOf_eq {p q : List Step} (hne : p ≠ q) (h : pathOf p = pathOf q)
    (hpname : ¬ BehindEmptyName p) (hqname : ¬ BehindEmptyName q) :
    ∃ common a b m n, PartAt p q common a b ∧ a.shown? common.isEmpty = some m ∧
      b.shown? common.isEmpty = some n ∧ (Continues m n ∨ Continues n m) := by
  obtain ⟨common, a, b, hpart, hruns⟩ := parts_of_pathFrom_eq
    (seen_of_not_behindEmptyName hpname) (seen_of_not_behindEmptyName hqname) h hne
  rcases hruns with hrun | hrun
  · obtain ⟨m, n, hm, hn, hcont⟩ := continues_of_runsInto hpart.1 hrun
    exact ⟨common, a, b, m, n, hpart, hm, hn, .inl hcont⟩
  · obtain ⟨n, m, hn, hm, hcont⟩ := continues_of_runsInto (Ne.symm hpart.1) hrun
    exact ⟨common, a, b, m, n, hpart, hm, hn, .inr hcont⟩

end Schema

/-! ## Validators -/

/-- **Paths tell values and nodes apart** unless keys spell a path themselves. Of two values that
rules are evaluated on, neither behind the empty key of the root, the paths are the same only if the
ways to them part at two keys of one object, of which one is the other one continued by a dot or a
bracket; and the empty path is that of the root. Of two nodes, neither behind the empty name, the
paths are the same only if the ways to them part at steps that are shown by such names. -/
theorem paths_tell_apart {schema : Schema} (hschema : schema.Canonical) (config : Config)
    {v : Json} (hv : v.Canonical) (s t : Seed) :
    let validator := Validator.ofSchema schema config s
    let visits := validator.tree.visits v
    (validator.validate v t = visits.flatMap fun x =>
      evaluateAll x.part.slots (Json.pathOf x.way) x.part.value (Json.seedOf t x.way)) ∧
    (∀ x ∈ visits, v.follow? x.way = some x.part.value) ∧
    visits.Pairwise (fun x y => x.way ≠ y.way ∧
      (Json.pathOf x.way = Json.pathOf y.way →
        Json.BehindEmptyKey x.way ∨ Json.BehindEmptyKey y.way ∨
        ∃ common k l, PartAt x.way y.way common (.key k) (.key l) ∧
          (Continues k l ∨ Continues l k))) ∧
    (∀ x ∈ visits, Json.pathOf x.way = "" → x.way = [] ∨ Json.BehindEmptyKey x.way) ∧
    (validator.errors = schema.nodes.flatMap fun n => RuleTree.errorsAt (Schema.pathOf n.way)
      (RuleTree.nodeRules config n.part (Schema.seedOf s n.way)).errors) ∧
    schema.nodes.Pairwise (fun m n => m.way ≠ n.way ∧
      (Schema.pathOf m.way = Schema.pathOf n.way →
        Schema.BehindEmptyName m.way ∨ Schema.BehindEmptyName n.way ∨
        ∃ common a b k l, PartAt m.way n.way common a b ∧
          a.shown? common.isEmpty = some k ∧ b.shown? common.isEmpty = some l ∧
          (Continues k l ∨ Continues l k))) := by
  intro validator visits
  have hfollow := RuleTree.follow?_of_mem_visits (t := validator.tree) hv
  refine ⟨RuleTree.walk_eq_visits validator.tree "" v t, hfollow, ?_, ?_,
    RuleTree.errors_ofSchema "" schema s, ?_⟩
  · refine (RuleTree.pairwise_visits hv).imp_of_mem fun {x y} hx hy hbefore => ?_
    have hne := hbefore.ne Json.Step.not_before_self
    refine ⟨hne, fun hpath => ?_⟩
    by_cases hxkey : Json.BehindEmptyKey x.way
    · exact .inl hxkey
    · by_cases hykey : Json.BehindEmptyKey y.way
      · exact .inr (.inl hykey)
      · refine .inr (.inr (Json.keys_of_pathOf_eq (v := v) ?_ ?_ hne hpath hxkey hykey))
        · rw [hfollow x hx]; rfl
        · rw [hfollow y hy]; rfl
  · intro x _ hpath
    by_cases hkey : Json.BehindEmptyKey x.way
    · exact .inr hkey
    · exact .inl (eq_nil_of_pathFrom_eq (Json.seen_of_not_behindEmptyKey hkey) hpath)
  · refine (Schema.pairwise_nodes hschema).imp fun {m n} hbefore => ?_
    have hne := hbefore.ne Schema.Step.not_before_self
    refine ⟨hne, fun hpath => ?_⟩
    by_cases hmname : Schema.BehindEmptyName m.way
    · exact .inl hmname
    · by_cases hnname : Schema.BehindEmptyName n.way
      · exact .inr (.inl hnname)
      · exact .inr (.inr (Schema.names_of_pathOf_eq hne hpath hmname hnname))

/-- Numbers under a name with a dot in it, and under the same names one by one. -/
def dotted : Schema :=
  { Schema.empty with
    types := ["object"]
    properties :=
      [("a", { Schema.empty with
          types := ["object"]
          properties := [("b", ruled "integer" ["self > 0"])] }),
        ("a.b", ruled "integer" ["self > 0"])] }

/-- A number under the empty name. -/
def nameless : Schema :=
  { Schema.empty with
    types := ["object"]
    properties := [("", ruled "integer" ["self > 0"])] }

/-- Empty rules of properties that are named as the paths show the values of a map and items, and
of those. -/
def starred : Schema :=
  { Schema.empty with
    properties := [("*", ruled "integer" [""]), ("[*]", ruled "integer" [""])]
    items := some (ruled "integer" [""])
    additional := some (.inr (ruled "integer" [""])) }

/-- Of a number under a dotted name alone the path is that of no other value. -/
theorem dotted_name_alone_is_told_apart :
    dotted.Canonical ∧ (Json.obj [("a.b", .int 0)]).Canonical ∧
      (Validator.ofSchema dotted .standard .standard).validate (.obj [("a.b", .int 0)]) .standard =
        [.failed "a.b" "self > 0" "failed rule: self > 0"] ∧
      ∀ x ∈ (Validator.ofSchema dotted .standard .standard).tree.visits (.obj [("a.b", .int 0)]),
        Json.pathOf x.way = "" → x.way = [] ∨ Json.BehindEmptyKey x.way := by
  have hordered : Fields.Ordered dotted.properties := by decide +kernel
  have hs : dotted.Canonical :=
    ⟨hordered, .nil, ⟨⟨List.pairwise_singleton _ _, .nil, ⟨canonical_ruled _ _, trivial⟩, trivial,
      trivial⟩, canonical_ruled _ _, trivial⟩, trivial, trivial⟩
  have hv : (Json.obj [("a.b", .int 0)]).Canonical := by decide +kernel
  obtain ⟨-, -, -, hroot, -⟩ := paths_tell_apart hs .standard hv .standard .standard
  exact ⟨hs, hv, by decide +kernel, hroot⟩

/-- **Paths can be shared.** The number under `b` in `a` and the one under the key `a.b` have the
path `a.b`, and the errors of a rule on both are the same; a number under the empty key has the path
of the root; and the nodes of the values of a map and of items at the root have the paths of
properties that are named like them. -/
theorem paths_can_be_shared :
    ((Validator.ofSchema dotted .standard .standard).tree.visits
          (.obj [("a", .obj [("b", .int 0)]), ("a.b", .int 0)])).map (·.way) =
        [[], [.key "a"], [.key "a", .key "b"], [.key "a.b"]] ∧
      Json.pathOf [.key "a", .key "b"] = Json.pathOf [.key "a.b"] ∧
      (Validator.ofSchema dotted .standard .standard).validate
          (.obj [("a", .obj [("b", .int 0)]), ("a.b", .int 0)]) .standard =
        [.failed "a.b" "self > 0" "failed rule: self > 0",
          .failed "a.b" "self > 0" "failed rule: self > 0"] ∧
      (Validator.ofSchema nameless .standard .standard).validate (.obj [("", .int 0)]) .standard =
        [.failed "" "self > 0" "failed rule: self > 0"] ∧
      starred.nodes.map (·.way) = [[], [.property "*"], [.property "[*]"], [.items], [.values]] ∧
      (Validator.ofSchema starred .standard .standard).errors.map NodeError.path =
        ["*", "[*]", "[*]", "*"] := by
  refine ⟨?_, ?_, ?_, ?_, ?_, ?_⟩
  · decide +kernel
  · decide +kernel
  · decide +kernel
  · decide +kernel
  · rfl
  · decide +kernel

end SchemaRules
