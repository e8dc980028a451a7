import SchemaRules.Proofs.Mappings

/-!
# What JSON does not have

A value is converted unless something in it has no form in JSON: a double that is not finite, or a
key that is no text, number or truth value. Of several such things the first one is told.

* `Value.Offence`: **what JSON does not have**, where it stands in a document, and the way to it.
  `Step.Before` is the order of a document.
* `Value.refusal_toJson`: **a conversion tells the first offence, and succeeds without one**, by
  induction on the value; `toJsonItems_eq_error` and `toJsonEntries_eq_error` are the steps.
* `Value.toJson_ofJson`: what is JSON already is converted to itself.
* `first_offence_is_told`: both of a conversion.
-/

namespace SchemaRules

mutual
/-- **No double in a value is infinite or not a number.** -/
def Json.isFinite : Json → Bool
  | .double x => x.isFinite
  | .arr items => areItemsFinite items
  | .obj fields => areFieldsFinite fields
  | _ => true
/-- The same for items. -/
def Json.areItemsFinite : List Json → Bool
  | [] => true
  | v :: rest => v.isFinite && areItemsFinite rest
/-- The same for the values of entries. -/
def Json.areFieldsFinite : List (String × Json) → Bool
  | [] => true
  | (_, v) :: rest => v.isFinite && areFieldsFinite rest
end

namespace Yaml

/-! ## Places in a document -/

/-- **A step into a document**: to an item, or to the key or the value of an entry, by their
numbers. A tag is passed without a step. -/
inductive Step where
  | item (i : Nat)
  | key (i : Nat)
  | value (i : Nat)

/-- Items and entries come by their numbers, and the key of an entry before its value. -/
def Step.Before : Step → Step → Prop
  | item i, item j => i < j
  | key i, key j => i < j
  | key i, value j => i ≤ j
  | value i, key j => i < j
  | value i, value j => i < j
  | _, _ => False

theorem Step.Before.asymm {a b : Step} (h : a.Before b) : ¬ b.Before a := by
  cases a <;> cases b <;> simp only [Before] at h ⊢ <;> omega

/-- **The place at the end of a way** that begins at a place. -/
def placeFrom (place : String) (way : List Json.Step) : String :=
  way.foldl (fun place step =>
    match step with
    | .key key => s!"{place}.{key}"
    | .item i => s!"{place}[{i}]") place

namespace Value

/-! ## Offences -/

/-- **Whether a value can be a key** of JSON: a text, a number or a truth value. -/
def isKey : Value → Bool
  | scalar .null => false
  | scalar _ => true
  | _ => false

theorem keyText?_eq_none_iff {k : Value} : k.keyText? = none ↔ k.isKey = false := by
  cases k with
  | scalar s => cases s <;> simp [keyText?, isKey]
  | _ => exact iff_of_true rfl rfl

/-- **What JSON does not have**, at whatever depth and under whatever tags: a double that is not
finite, or a value that cannot be a key. It has a spot in the document, a way as JSON, which for a
key is that of its mapping, and a reason. What is behind a key without a text has the empty text in
its way instead, which is never told since the key comes first. -/
inductive Offence : Value → List Step → List Json.Step → String → Prop
  | double {x : Float} : x.isFinite = false →
      Offence (.scalar (.double x)) [] [] s!"non-finite number {Decimal.Layout.plain.write x}"
  | item {items : List Value} {i : Nat} {v : Value} {spot : List Step} {way : List Json.Step}
      {reason : String} : items[i]? = some v → Offence v spot way reason →
      Offence (.seq items) (.item i :: spot) (.item i :: way) reason
  | key {entries : List (Value × Value)} {i : Nat} {k v : Value} :
      entries[i]? = some (k, v) → k.isKey = false →
      Offence (.map entries) [.key i] [] s!"mapping key {k.inspect} is not a scalar"
  | value {entries : List (Value × Value)} {i : Nat} {k v : Value} {spot : List Step}
      {way : List Json.Step} {reason : String} :
      entries[i]? = some (k, v) → Offence v spot way reason →
      Offence (.map entries) (.value i :: spot) (.key (k.keyText?.getD "") :: way) reason
  | tagged {name : String} {v : Value} {spot : List Step} {way : List Json.Step}
      {reason : String} : Offence v spot way reason → Offence (.tagged name v) spot way reason

/-- Whether there is an offence at a spot. -/
def OffendsAt (v : Value) (spot : List Step) : Prop :=
  ∃ way reason, v.Offence spot way reason

/-- What there is at a spot is one thing. -/
theorem Offence.unique {v : Value} {spot : List Step} {way : List Json.Step} {reason : String}
    (h : v.Offence spot way reason) : ∀ {way' : List Json.Step} {reason' : String},
      v.Offence spot way' reason' → way = way' ∧ reason = reason' := by
  induction h with
  | double _ => intro way' reason' h'; cases h'; exact ⟨rfl, rfl⟩
  | item hi _ ih =>
    intro way' reason' h'
    cases h' with
    | item hi' h' =>
      cases hi.symm.trans hi'
      obtain ⟨rfl, rfl⟩ := ih h'
      exact ⟨rfl, rfl⟩
  | key hi _ =>
    intro way' reason' h'
    cases h' with
    | key hi' _ =>
      cases hi.symm.trans hi'
      exact ⟨rfl, rfl⟩
  | value hi _ ih =>
    intro way' reason' h'
    cases h' with
    | value hi' h' =>
      cases hi.symm.trans hi'
      obtain ⟨rfl, rfl⟩ := ih h'
      exact ⟨rfl, rfl⟩
  | tagged _ ih =>
    intro way' reason' h'
    cases h' with
    | tagged h' => exact ih h'

/-! ## Steps of a conversion -/

/-- **The first item that is refused** is told, and all items before it are converted. -/
theorem toJsonItems_eq_error {place : String} {items : List Value} {e : NoJson} :
    ∀ {n : Nat}, toJsonItems place n items = .error e →
      ∃ (i : Nat) (v : Value), items[i]? = some v ∧ v.toJson s!"{place}[{n + i}]" = .error e ∧
        ∀ (j : Nat) (u : Value), j < i → items[j]? = some u →
          ∃ place' w, u.toJson place' = .ok w := by
  induction items with
  | nil => intro n h; cases h
  | cons v rest ih =>
    intro n h
    rw [toJsonItems] at h
    cases hv : v.toJson s!"{place}[{n}]" with
    | error e' =>
      simp only [hv] at h
      cases h
      exact ⟨0, v, rfl, hv, fun j u hj => absurd hj (Nat.not_lt_zero j)⟩
    | ok w =>
      cases hrest : toJsonItems place (n + 1) rest with
      | ok ws => simp only [hv, hrest] at h; cases h
      | error e' =>
        simp only [hv, hrest] at h
        cases h
        obtain ⟨i, u, hu, herror, hbefore⟩ := ih hrest
        refine ⟨i + 1, u, hu, ?_, fun j x hj hx => ?_⟩
        · rwa [Nat.add_right_comm, Nat.add_assoc] at herror
        · cases j with
          | zero => cases hx; exact ⟨_, w, hv⟩
          | succ j => exact hbefore j x (Nat.lt_of_succ_lt_succ hj) hx

/-- **The first entry that is refused** is told, its key before its value, and all entries before it
are converted. -/
theorem toJsonEntries_eq_error {place : String} {entries : List (Value × Value)} {e : NoJson} :
    ∀ {fields : Fields Json}, toJsonEntries place fields entries = .error e →
      ∃ (i : Nat) (k v : Value), entries[i]? = some (k, v) ∧
        (k.isKey = false ∧ e = ⟨place, s!"mapping key {k.inspect} is not a scalar"⟩ ∨
          ∃ key, k.keyText? = some key ∧ v.toJson s!"{place}.{key}" = .error e) ∧
        ∀ (j : Nat) (f : Value × Value), j < i → entries[j]? = some f → ∃ c, Becomes place f c := by
  induction entries with
  | nil => intro fields h; cases h
  | cons f rest ih =>
    obtain ⟨k, v⟩ := f
    intro fields h
    rw [toJsonEntries] at h
    have hfirst : ∀ (j : Nat) (f : Value × Value), j < 0 → ((k, v) :: rest)[j]? = some f →
        ∃ c, Becomes place f c :=
      fun j f hj => absurd hj (Nat.not_lt_zero j)
    cases hk : k.keyText? with
    | none =>
      rw [hk] at h
      cases h
      exact ⟨0, k, v, rfl, .inl ⟨keyText?_eq_none_iff.1 hk, rfl⟩, hfirst⟩
    | some key =>
      rw [hk] at h
      cases hv : v.toJson s!"{place}.{key}" with
      | error e' =>
        simp only [hv] at h
        cases h
        exact ⟨0, k, v, rfl, .inr ⟨key, hk, hv⟩, hfirst⟩
      | ok w =>
        simp only [hv] at h
        obtain ⟨i, k', v', hi, hrefused, hbefore⟩ := ih h
        refine ⟨i + 1, k', v', hi, hrefused, fun j f hj hf => ?_⟩
        cases j with
        | zero => cases hf; exact ⟨(key, w), hk, hv⟩
        | succ j => exact hbefore j f (Nat.lt_of_succ_lt_succ hj) hf

/-! ## Conversions -/

mutual
/-- **What holds of a value if it holds of all items and values in it** holds of every value. -/
@[elab_as_elim]
theorem induct {P : Value → Prop} (scalar : ∀ s, P (.scalar s))
    (seq : ∀ items, (∀ v ∈ items, P v) → P (.seq items))
    (map : ∀ entries, (∀ e ∈ entries, P e.2) → P (.map entries))
    (tagged : ∀ name v, P v → P (.tagged name v)) : ∀ v, P v
  | .scalar s => scalar s
  | .seq items => seq items (induct_items scalar seq map tagged items)
  | .map entries => map entries (induct_entries scalar seq map tagged entries)
  | .tagged name v => tagged name v (induct scalar seq map tagged v)
theorem induct_items {P : Value → Prop} (scalar : ∀ s, P (.scalar s))
    (seq : ∀ items, (∀ v ∈ items, P v) → P (.seq items))
    (map : ∀ entries, (∀ e ∈ entries, P e.2) → P (.map entries))
    (tagged : ∀ name v, P v → P (.tagged name v)) : ∀ items : List Value, ∀ v ∈ items, P v
  | [] => List.forall_mem_nil _
  | v :: rest => List.forall_mem_cons.2
      ⟨induct scalar seq map tagged v, induct_items scalar seq map tagged rest⟩
theorem induct_entries {P : Value → Prop} (scalar : ∀ s, P (.scalar s))
    (seq : ∀ items, (∀ v ∈ items, P v) → P (.seq items))
    (map : ∀ entries, (∀ e ∈ entries, P e.2) → P (.map entries))
    (tagged : ∀ name v, P v → P (.tagged name v)) :
    ∀ entries : List (Value × Value), ∀ e ∈ entries, P e.2
  | [] => List.forall_mem_nil _
  | (_, v) :: rest => List.forall_mem_cons.2
      ⟨induct scalar seq map tagged v, induct_entries scalar seq map tagged rest⟩
end

/-- **What a conversion says about offences**: with a result there are none, and otherwise the first
one is told, with its place and its reason. -/
def Refusal (v : Value) (place : String) : Except NoJson Json → Prop
  | .ok _ => ∀ spot, ¬ v.OffendsAt spot
  | .error e => ∃ spot way, IsFirst Step.Before v.OffendsAt spot ∧ v.Offence spot way e.reason ∧
      e.place = placeFrom place way

theorem toJsonItems_of_toJson_seq {place : String} {items : List Value} {e : NoJson}
    (h : (seq items).toJson place = .error e) : toJsonItems place 0 items = .error e := by
  rw [toJson] at h
  cases hitems : toJsonItems place 0 items with
  | ok r => rw [hitems] at h; cases h
  | error e' => rw [hitems] at h; cases h; rfl

theorem toJsonEntries_of_toJson_map {place : String} {entries : List (Value × Value)} {e : NoJson}
    (h : (map entries).toJson place = .error e) : toJsonEntries place [] entries = .error e := by
  rw [toJson] at h
  cases hfields : toJsonEntries place [] entries with
  | ok r => rw [hfields] at h; cases h
  | error e' => rw [hfields] at h; cases h; rfl

/-- What is converted has no offence. -/
theorem not_offendsAt_of_toJson {v : Value} (h : ∀ place, v.Refusal place (v.toJson place))
    {place : String} {w : Json} (hw : v.toJson place = .ok w) (spot : List Step) :
    ¬ v.OffendsAt spot := by
  have hrefusal := h place
  rw [hw] at hrefusal
  exact hrefusal spot

theorem refusal_scalar (s : Scalar) (place : String) :
    (scalar s).Refusal place ((scalar s).toJson place) := by
  have hnone : (∀ x, s = .double x → x.isFinite = true) → ∀ spot, ¬ (scalar s).OffendsAt spot := by
    rintro hs spot ⟨way, reason, hoffence⟩
    cases hoffence with
    | double hx => exact absurd (hs _ rfl) (by rw [hx]; exact Bool.false_ne_true)
  cases s with
  | double x =>
    rw [toJson, Scalar.toJson]
    split
    · next hx =>
      refine hnone fun y hy => ?_
      cases hy
      exact hx
    · next hx =>
      have hoffence := Offence.double (Bool.eq_false_iff.2 hx)
      exact ⟨[], [], isFirst_nil ⟨_, _, hoffence⟩, hoffence, rfl⟩
  | _ => exact hnone fun x hx => by cases hx

theorem refusal_seq {items : List Value}
    (h : ∀ v ∈ items, ∀ place, v.Refusal place (v.toJson place)) (place : String) :
    (seq items).Refusal place ((seq items).toJson place) := by
  have hconverted : ∀ (i : Nat) (u : Value), items[i]? = some u →
      (∃ place' w, u.toJson place' = .ok w) → ∀ spot, ¬ u.OffendsAt spot := by
    rintro i u hu ⟨place', w, hw⟩
    exact not_offendsAt_of_toJson (h u (List.mem_of_getElem? hu)) hw
  cases hresult : (seq items).toJson place with
  | ok j =>
    obtain ⟨r, hr, -⟩ := toJson_seq hresult
    rintro spot ⟨way, reason, hoffence⟩
    cases hoffence with
    | item hi hoffence =>
      obtain ⟨place', w, hw, -⟩ := toJsonItems_eq_ok hr _ _ hi
      exact hconverted _ _ hi ⟨place', w, hw⟩ _ ⟨_, _, hoffence⟩
  | error e =>
    obtain ⟨i, u, hu, herror, hbefore⟩ := toJsonItems_eq_error (toJsonItems_of_toJson_seq hresult)
    have hrefusal := h u (List.mem_of_getElem? hu) s!"{place}[{0 + i}]"
    rw [herror, Nat.zero_add] at hrefusal
    obtain ⟨spot, way, hfirst, hoffence, hplace⟩ := hrefusal
    refine ⟨.item i :: spot, .item i :: way, hfirst.cons ⟨_, _, .item hu hoffence⟩ ?_,
      .item hu hoffence, hplace⟩
    -- another offence is in an item that is not converted, so in this one or a later one
    rintro other ⟨way', reason', hother⟩
    cases hother with
    | @item _ j u' spot' _ _ hj hother =>
      refine ⟨.item j, spot', rfl, ?_⟩
      rcases Nat.lt_trichotomy j i with hlt | rfl | hgt
      · exact absurd ⟨_, _, hother⟩ (hconverted j u' hj (hbefore j u' hlt hj) spot')
      · cases hu.symm.trans hj
        exact .inl ⟨rfl, _, _, hother⟩
      · exact .inr hgt

theorem refusal_map {entries : List (Value × Value)}
    (h : ∀ e ∈ entries, ∀ place, e.2.Refusal place (e.2.toJson place)) (place : String) :
    (map entries).Refusal place ((map entries).toJson place) := by
  have hconverted : ∀ {i : Nat} {k u : Value} {c : String × Json}, entries[i]? = some (k, u) →
      Becomes place (k, u) c → k.isKey ≠ false ∧ ∀ spot, ¬ u.OffendsAt spot := by
    rintro i k u c hi ⟨hkey, hvalue⟩
    refine ⟨by rw [ne_eq, ← keyText?_eq_none_iff, hkey]; nofun, ?_⟩
    exact not_offendsAt_of_toJson (h (k, u) (List.mem_of_getElem? hi)) hvalue
  cases hresult : (map entries).toJson place with
  | ok j =>
    obtain ⟨cs, hcs, -⟩ := toJson_map hresult
    rintro spot ⟨way, reason, hoffence⟩
    cases hoffence with
    | key hi hkey =>
      obtain ⟨c, -, hc⟩ := exists_becomes hcs (List.mem_of_getElem? hi)
      exact (hconverted hi hc).1 hkey
    | value hi hoffence =>
      obtain ⟨c, -, hc⟩ := exists_becomes hcs (List.mem_of_getElem? hi)
      exact (hconverted hi hc).2 _ ⟨_, _, hoffence⟩
  | error e =>
    obtain ⟨i, k, u, hi, hrefused, hbefore⟩ :=
      toJsonEntries_eq_error (toJsonEntries_of_toJson_map hresult)
    -- an offence is in an entry that is not converted, so in this one or a later one
    have hfrom : ∀ {j : Nat} {k' u' : Value}, entries[j]? = some (k', u') →
        (k'.isKey = false ∨ ∃ spot, u'.OffendsAt spot) → i ≤ j := by
      intro j k' u' hj hoffends
      by_contra hlt
      obtain ⟨c, hc⟩ := hbefore j (k', u') (Nat.lt_of_not_le hlt) hj
      obtain ⟨hkey, hvalue⟩ := hconverted hj hc
      exact hoffends.elim hkey fun ⟨spot, hspot⟩ => hvalue spot hspot
    rcases hrefused with ⟨hkey, rfl⟩ | ⟨key, hkey, herror⟩
    · refine ⟨[.key i], [], ?_, .key hi hkey, rfl⟩
      refine (isFirst_nil (P := (· = [])) rfl).cons ⟨_, _, .key hi hkey⟩ ?_
      rintro other ⟨way', reason', hother⟩
      cases hother with
      | @key _ j _ _ hj hkey' =>
        refine ⟨.key j, [], rfl, ?_⟩
        rcases Nat.lt_or_eq_of_le (hfrom hj (.inl hkey')) with hlt | rfl
        · exact .inr hlt
        · exact .inl ⟨rfl, rfl⟩
      | @value _ j _ _ spot' _ _ hj hother =>
        exact ⟨.value j, spot', rfl, .inr (hfrom hj (.inr ⟨spot', _, _, hother⟩))⟩
    · have hrefusal := h (k, u) (List.mem_of_getElem? hi) s!"{place}.{key}"
      rw [herror] at hrefusal
      obtain ⟨spot, way, hfirst, hoffence, hplace⟩ := hrefusal
      have hway : k.keyText?.getD "" = key := by rw [hkey]; rfl
      refine ⟨.value i :: spot, .key key :: way, hfirst.cons ⟨_, _, .value hi hoffence⟩ ?_,
        hway ▸ .value hi hoffence, hplace⟩
      rintro other ⟨way', reason', hother⟩
      cases hother with
      | @key _ j _ _ hj hkey' =>
        refine ⟨.key j, [], rfl, .inr ?_⟩
        rcases Nat.lt_or_eq_of_le (hfrom hj (.inl hkey')) with hlt | rfl
        · exact hlt
        · cases hi.symm.trans hj
          rw [← keyText?_eq_none_iff, hkey] at hkey'
          cases hkey'
      | @value _ j _ _ spot' _ _ hj hother =>
        refine ⟨.value j, spot', rfl, ?_⟩
        rcases Nat.lt_or_eq_of_le (hfrom hj (.inr ⟨spot', _, _, hother⟩)) with hlt | rfl
        · exact .inr hlt
        · cases hi.symm.trans hj
          exact .inl ⟨rfl, _, _, hother⟩

/-- **A conversion tells the first offence, and succeeds without one.** -/
theorem refusal_toJson (v : Value) : ∀ place, v.Refusal place (v.toJson place) := by
  induction v using induct with
  | scalar s => exact refusal_scalar s
  | seq items ih => exact refusal_seq ih
  | map entries ih => exact refusal_map ih
  | tagged name v ih =>
    -- a tag changes neither the conversion nor the offences
    have hoffends : (tagged name v).OffendsAt = v.OffendsAt := by
      funext spot
      exact propext ⟨fun ⟨_, _, .tagged h⟩ => ⟨_, _, h⟩, fun ⟨_, _, h⟩ => ⟨_, _, .tagged h⟩⟩
    intro place
    have hrefusal := ih place
    rw [toJson]
    cases hresult : v.toJson place with
    | ok j =>
      rw [hresult, Refusal, ← hoffends] at hrefusal
      exact hrefusal
    | error e =>
      rw [hresult, Refusal, ← hoffends] at hrefusal
      obtain ⟨spot, way, hfirst, hoffence, hplace⟩ := hrefusal
      exact ⟨spot, way, hfirst, .tagged hoffence, hplace⟩

/-! ## Values of JSON -/

mutual
/-- **The value that is written like a value of JSON**, with texts as keys and without tags. -/
def ofJson : Json → Value
  | .null => .scalar .null
  | .bool b => .scalar (.bool b)
  | .int n => .scalar (.int n)
  | .double x => .scalar (.double x)
  | .str s => .scalar (.text s)
  | .arr items => .seq (ofJsonItems items)
  | .obj fields => .map (ofJsonFields fields)
/-- The values of items. -/
def ofJsonItems : List Json → List Value
  | [] => []
  | v :: rest => ofJson v :: ofJsonItems rest
/-- The entries of fields. -/
def ofJsonFields : List (String × Json) → List (Value × Value)
  | [] => []
  | (key, v) :: rest => (.scalar (.text key), ofJson v) :: ofJsonFields rest
end

mutual
/-- **What is JSON already is converted to itself.** -/
theorem toJson_ofJson : ∀ {j : Json}, j.Canonical → j.isFinite = true → ∀ place,
    (ofJson j).toJson place = .ok j
  | .null, _, _, _ | .bool _, _, _, _ | .int _, _, _, _ | .str _, _, _, _ => rfl
  | .double x, _, hx, place => by
    rw [Json.isFinite] at hx
    rw [ofJson, toJson, Scalar.toJson, if_pos hx]
  | .arr items, hj, hx, place => by
    rw [ofJson, toJson, toJsonItems_ofJson hj hx place 0]
    rfl
  | .obj fields, hj, hx, place => by
    rw [ofJson, toJson, toJsonEntries_ofJson hj.1 hj.2 hx place [] nofun]
    rfl
theorem toJsonItems_ofJson : ∀ {items : List Json}, Json.CanonicalItems items →
    Json.areItemsFinite items = true → ∀ place n,
      toJsonItems place n (ofJsonItems items) = .ok items
  | [], _, _, _, _ => rfl
  | v :: rest, hj, hx, place, n => by
    rw [Json.areItemsFinite, Bool.and_eq_true] at hx
    rw [ofJsonItems, toJsonItems, toJson_ofJson hj.1 hx.1, toJsonItems_ofJson hj.2 hx.2]
    rfl
theorem toJsonEntries_ofJson : ∀ {fields : Fields Json}, Fields.Ordered fields →
    Json.CanonicalFields fields → Json.areFieldsFinite fields = true →
      ∀ place (before : Fields Json),
      (∀ a ∈ before, ∀ b ∈ fields, a.1 < b.1) →
      toJsonEntries place before (ofJsonFields fields) = .ok (before ++ fields)
  | [], _, _, _, _, before, _ => by rw [List.append_nil]; rfl
  | (key, v) :: rest, hordered, hj, hx, place, before, hbefore => by
    rw [Json.areFieldsFinite, Bool.and_eq_true] at hx
    have hinsert : Fields.insert key v before = before ++ [(key, v)] := by
      refine Fields.insert_of_forall_lt fun name hname => ?_
      obtain ⟨a, ha, rfl⟩ := List.mem_map.1 hname
      exact hbefore a ha _ List.mem_cons_self
    -- what comes next is behind the fields before it and behind this one
    have hnext : ∀ a ∈ before ++ [(key, v)], ∀ b ∈ rest, a.1 < b.1 := by
      intro a ha b hb
      rcases List.mem_append.1 ha with ha | ha
      · exact hbefore a ha b (List.mem_cons_of_mem _ hb)
      · rw [List.mem_singleton.1 ha]
        exact (List.pairwise_cons.1 hordered).1 b hb
    have hrest := toJsonEntries_ofJson hordered.tail hj.2 hx.2 place (before ++ [(key, v)]) hnext
    rw [List.append_assoc] at hrest
    rw [ofJsonFields, toJsonEntries]
    simp only [keyText?, toJson_ofJson hj.1 hx.1]
    show toJsonEntries place (Fields.insert key v before) (ofJsonFields rest) = _
    rw [hinsert]
    exact hrest
end

end Value

/-- **The first thing that JSON does not have is told.** A conversion fails exactly if there is an
offence, at whatever depth and under whatever tags, and what it tells is the place and the reason of
the first one in the order of the document. What is JSON already is converted to itself. -/
theorem first_offence_is_told (v : Value) (root : String) :
    (∀ e, v.toJson root = .error e ↔ ∃ spot way reason,
      IsFirst Step.Before v.OffendsAt spot ∧ v.Offence spot way reason ∧
        e = ⟨placeFrom root way, reason⟩) ∧
    ((∃ e, v.toJson root = .error e) ↔ ∃ spot way reason, v.Offence spot way reason) ∧
    ∀ j : Json, j.Canonical → j.isFinite = true → (Value.ofJson j).toJson root = .ok j := by
  have hrefusal := Value.refusal_toJson v root
  refine ⟨fun e => ⟨fun h => ?_, ?_⟩, ⟨?_, ?_⟩,
    fun j hj hfinite => Value.toJson_ofJson hj hfinite root⟩
  · rw [h] at hrefusal
    obtain ⟨spot, way, hfirst, hoffence, hplace⟩ := hrefusal
    exact ⟨spot, way, e.reason, hfirst, hoffence, congrArg (NoJson.mk · e.reason) hplace⟩
  · rintro ⟨spot, way, reason, hfirst, hoffence, rfl⟩
    cases hresult : v.toJson root with
    | ok j =>
      rw [hresult] at hrefusal
      exact absurd ⟨way, reason, hoffence⟩ (hrefusal spot)
    | error e =>
      rw [hresult] at hrefusal
      obtain ⟨spot', way', hfirst', hoffence', hplace⟩ := hrefusal
      obtain rfl := hfirst.unique Step.Before.asymm hfirst'
      obtain ⟨rfl, rfl⟩ := hoffence.unique hoffence'
      exact congrArg (fun place => Except.error (NoJson.mk place e.reason)) hplace
  · rintro ⟨e, h⟩
    rw [h] at hrefusal
    obtain ⟨spot, way, -, hoffence, -⟩ := hrefusal
    exact ⟨spot, way, e.reason, hoffence⟩
  · rintro ⟨spot, way, reason, hoffence⟩
    cases hresult : v.toJson root with
    | ok j =>
      rw [hresult] at hrefusal
      exact absurd ⟨way, reason, hoffence⟩ (hrefusal spot)
    | error e => exact ⟨e, rfl⟩

/-- A document with two keys that are none in JSON, one of them under a tag. -/
def refusedDoc : Value :=
  .seq [.scalar (.int 1),
    .map [(.scalar (.text "a"), .tagged "t" (.seq [.map [(.scalar .null, .seq [])]])),
      (.seq [], .scalar (.bool true))]]

/-- The one under the tag is told, and a document of JSON comes back. -/
theorem refusedDoc_tells_the_key_under_the_tag :
    (∃ spot way reason, IsFirst Step.Before refusedDoc.OffendsAt spot ∧
      refusedDoc.Offence spot way reason ∧
      (⟨"$[1].a[0]", "mapping key Null is not a scalar"⟩ : NoJson) = ⟨placeFrom "$" way, reason⟩) ∧
    (Json.obj [("a", .arr [.null, .int 5]), ("b", .str "")]).Canonical ∧
    (Value.ofJson (.obj [("a", .arr [.null, .int 5]), ("b", .str "")])).toJson "$" =
      .ok (.obj [("a", .arr [.null, .int 5]), ("b", .str "")]) := by
  obtain ⟨htold, -, hback⟩ := first_offence_is_told refusedDoc "$"
  have hcanonical : (Json.obj [("a", .arr [.null, .int 5]), ("b", .str "")]).Canonical := by
    decide
  exact ⟨(htold _).1 rfl, hcanonical, hback _ hcanonical rfl⟩

end Yaml

end SchemaRules
