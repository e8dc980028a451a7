import SchemaRules.Proofs.KeyTexts
import SchemaRules.Proofs.Paths

/-!
# Mappings as objects

A mapping of YAML becomes an object with the texts of its keys. Different keys of a mapping have
different texts, unless a key that is a text spells another one.

* `Value.Part`: what is inside of a value, with the way to it as JSON.
* `Value.toJson_map`: **an object has the converted entries, of equal texts the last**.
* `Value.pairwise_keyText?_iff`: **the texts of the keys differ unless one spells another**.
* `Value.Part.follow?`: where none does, everything is found at its place.
* `entries_are_kept_unless_respelled`: all of this for a value that is converted.
-/

namespace SchemaRules

namespace Fields

variable {α : Type}

/-- **Of entries with one name the last counts.** -/
theorem get?_ofList_append {key : String} {v : α} {pre post : List (String × α)}
    (h : key ∉ names post) : get? key (ofList (pre ++ (key, v) :: post)) = some v := by
  -- what is inserted afterwards has other names
  suffices hpost : ∀ fields : Fields α, get? key fields = some v →
      get? key (post.foldl (fun fs e => insert e.1 e.2 fs) fields) = some v by
    rw [ofList, List.foldl_append, List.foldl_cons]
    exact hpost _ (by rw [get?_insert, if_pos rfl])
  induction post with
  | nil => exact fun _ hfields => hfields
  | cons e rest ih =>
    intro fields hfields
    rw [names, List.map_cons, List.mem_cons, not_or] at h
    refine ih h.2 _ ?_
    rw [get?_insert, if_neg (Ne.symm h.1)]
    exact hfields

/-- Entries with different names are all kept. -/
theorem get?_ofList_of_nodup {entries : List (String × α)} (h : (names entries).Nodup)
    {e : String × α} (he : e ∈ entries) : get? e.1 (ofList entries) = some e.2 := by
  obtain ⟨pre, post, rfl⟩ := List.append_of_mem he
  refine get?_ofList_append ?_
  rw [names, List.map_append, List.map_cons] at h
  exact (List.nodup_cons.1 h.of_append_right).1

theorem names_ofList_subperm (entries : List (String × α)) :
    (names (ofList entries)).Subperm (names entries) :=
  List.subperm_of_subset (nodup_names (ordered_ofList entries)) fun _ => mem_names_ofList_iff.1

theorem length_ofList_le (entries : List (String × α)) :
    (ofList entries).length ≤ entries.length := by
  have h := (names_ofList_subperm entries).length_le
  rwa [names, names, List.length_map, List.length_map] at h

/-- **There are as many fields as entries exactly if the names differ.** -/
theorem length_ofList_eq_iff (entries : List (String × α)) :
    (ofList entries).length = entries.length ↔ (names entries).Nodup := by
  have hfields : (names (ofList entries)).length = (ofList entries).length := List.length_map _
  have hentries : (names entries).length = entries.length := List.length_map _
  constructor
  · intro h
    -- the names of the fields are as many as those of the entries, so they are the same ones
    refine ((names_ofList_subperm entries).perm_of_length_le ?_).nodup_iff.1
      (nodup_names (ordered_ofList entries))
    omega
  · intro h
    have hle := (names_ofList_subperm entries).length_le
    have hge := (List.subperm_of_subset h fun _ => mem_names_ofList_iff.2 :
      (names entries).Subperm (names (ofList entries))).length_le
    omega

end Fields

namespace Yaml

namespace Value

/-! ## Parts -/

/-- **What is inside of a value**, with the way to it in what the value is converted to. The keys
of a mapping with such a way are scalars, and have nothing inside. -/
inductive Part : Value → List Json.Step → Value → Prop
  | here (v : Value) : Part v [] v
  | item {items : List Value} {i : Nat} {u w : Value} {way : List Json.Step} :
      items[i]? = some u → Part u way w → Part (.seq items) (.item i :: way) w
  | entry {entries : List (Value × Value)} {k u w : Value} {key : String} {way : List Json.Step} :
      (k, u) ∈ entries → k.keyText? = some key → Part u way w →
      Part (.map entries) (.key key :: way) w
  | tagged {name : String} {v w : Value} {way : List Json.Step} :
      Part v way w → Part (.tagged name v) way w

/-! ## Conversion -/

/-- **An entry and what it becomes.** -/
def Becomes (place : String) (e : Value × Value) (c : String × Json) : Prop :=
  e.1.keyText? = some c.1 ∧ e.2.toJson s!"{place}.{c.1}" = .ok c.2

theorem toJsonEntries_eq_ok {place : String} {entries : List (Value × Value)} :
    ∀ {fields r : Fields Json}, toJsonEntries place fields entries = .ok r →
      ∃ cs, List.Forall₂ (Becomes place) entries cs ∧
        r = cs.foldl (fun fs c => Fields.insert c.1 c.2 fs) fields := by
  induction entries with
  | nil =>
    intro fields r h
    cases h
    exact ⟨[], .nil, rfl⟩
  | cons e rest ih =>
    obtain ⟨k, v⟩ := e
    intro fields r h
    rw [toJsonEntries] at h
    cases hk : k.keyText? with
    | none => rw [hk] at h; cases h
    | some key =>
      rw [hk] at h
      cases hv : v.toJson s!"{place}.{key}" with
      | error e => simp only [hv] at h; cases h
      | ok w =>
        simp only [hv] at h
        obtain ⟨cs, hcs, hr⟩ := ih h
        exact ⟨(key, w) :: cs, .cons ⟨hk, hv⟩ hcs, hr⟩

/-- **A mapping becomes the object with its converted entries.** -/
theorem toJson_map {place : String} {entries : List (Value × Value)} {j : Json}
    (h : (map entries).toJson place = .ok j) :
    ∃ cs, List.Forall₂ (Becomes place) entries cs ∧ j = .obj (Fields.ofList cs) := by
  rw [toJson] at h
  cases hfields : toJsonEntries place [] entries with
  | error e => rw [hfields] at h; cases h
  | ok fields =>
    rw [hfields] at h
    cases h
    obtain ⟨cs, hcs, hr⟩ := toJsonEntries_eq_ok hfields
    exact ⟨cs, hcs, by rw [hr]; rfl⟩

/-- The items of a sequence become the items of a list. -/
theorem toJsonItems_eq_ok {place : String} {items : List Value} :
    ∀ {n : ℕ} {r : List Json}, toJsonItems place n items = .ok r →
      ∀ (i : ℕ) (u : Value), items[i]? = some u →
        ∃ place' w, u.toJson place' = .ok w ∧ r[i]? = some w := by
  induction items with
  | nil => intro n r _ i u hu; cases hu
  | cons v rest ih =>
    intro n r h i u hu
    rw [toJsonItems] at h
    cases hv : v.toJson s!"{place}[{n}]" with
    | error e => simp only [hv] at h; cases h
    | ok w =>
      cases hrest : toJsonItems place (n + 1) rest with
      | error e => simp only [hv, hrest] at h; cases h
      | ok ws =>
        simp only [hv, hrest] at h
        cases h
        cases i with
        | zero => cases hu; exact ⟨_, w, hv, rfl⟩
        | succ i => exact ih hrest i u hu

theorem toJson_seq {place : String} {items : List Value} {j : Json}
    (h : (seq items).toJson place = .ok j) :
    ∃ r, toJsonItems place 0 items = .ok r ∧ j = .arr r := by
  rw [toJson] at h
  cases hitems : toJsonItems place 0 items with
  | error e => rw [hitems] at h; cases h
  | ok r =>
    rw [hitems] at h
    cases h
    exact ⟨r, rfl, rfl⟩

/-- What an entry of a converted mapping becomes. -/
theorem exists_becomes {place : String} {entries : List (Value × Value)} {cs : List (String × Json)}
    (h : List.Forall₂ (Becomes place) entries cs) {e : Value × Value} (he : e ∈ entries) :
    ∃ c ∈ cs, Becomes place e c := by
  induction h with
  | nil => cases he
  | cons hfirst _ ih =>
    rcases List.mem_cons.1 he with rfl | he
    · exact ⟨_, List.mem_cons_self, hfirst⟩
    · obtain ⟨c, hc, hbecomes⟩ := ih he
      exact ⟨c, List.mem_cons_of_mem _ hc, hbecomes⟩

/-- **The parts of a value are converted with it.** -/
theorem Part.toJson_eq_ok {v w : Value} {way : List Json.Step} (h : v.Part way w) :
    ∀ {place : String} {j : Json}, v.toJson place = .ok j →
      ∃ place' u, w.toJson place' = .ok u := by
  induction h with
  | here v => intro place j hj; exact ⟨place, j, hj⟩
  | item hi _ ih =>
    intro place j hj
    obtain ⟨r, hr, -⟩ := toJson_seq hj
    obtain ⟨place', w, hw, -⟩ := toJsonItems_eq_ok hr _ _ hi
    exact ih hw
  | entry he hk _ ih =>
    intro place j hj
    obtain ⟨cs, hcs, -⟩ := toJson_map hj
    obtain ⟨c, -, -, hc⟩ := exists_becomes hcs he
    exact ih hc
  | tagged _ ih =>
    intro place j hj
    rw [toJson] at hj
    exact ih hj

/-! ## Keys -/

theorem areDistinct_iff {ks : List Value} :
    areDistinct ks = true ↔ ks.Pairwise fun a b => a.same b = false := by
  induction ks with
  | nil => exact iff_of_true rfl .nil
  | cons k rest ih =>
    rw [areDistinct, Bool.and_eq_true, List.pairwise_cons, ih, Bool.not_eq_true', List.any_eq_false]
    refine and_congr_left fun _ => forall₂_congr fun a _ => ?_
    exact iff_of_eq (Bool.not_eq_true _)

theorem isDistinct_of_mem_items {items : List Value} (h : areItemsDistinct items = true) :
    ∀ v ∈ items, v.isDistinct = true := by
  induction items with
  | nil => exact List.forall_mem_nil _
  | cons v rest ih =>
    rw [areItemsDistinct, Bool.and_eq_true] at h
    exact List.forall_mem_cons.2 ⟨h.1, ih h.2⟩

theorem isDistinct_of_mem_entries {entries : List (Value × Value)}
    (h : areEntriesDistinct entries = true) : ∀ e ∈ entries, e.2.isDistinct = true := by
  induction entries with
  | nil => exact List.forall_mem_nil _
  | cons e rest ih =>
    rw [areEntriesDistinct, Bool.and_eq_true, Bool.and_eq_true] at h
    exact List.forall_mem_cons.2 ⟨h.1.2, ih h.2⟩

/-- **Keys of parts differ too.** -/
theorem Part.isDistinct {v w : Value} {way : List Json.Step} (h : v.Part way w)
    (hv : v.isDistinct = true) : w.isDistinct = true := by
  induction h with
  | here v => exact hv
  | item hi _ ih => exact ih (isDistinct_of_mem_items hv _ (List.mem_of_getElem? hi))
  | entry he _ _ ih =>
    rw [Value.isDistinct, Bool.and_eq_true] at hv
    exact ih (isDistinct_of_mem_entries hv.2 _ he)
  | tagged _ ih => exact ih hv

/-- **A text among the keys of a mapping spells another one**, a number or a truth value. -/
def Respelled (entries : List (Value × Value)) : Prop :=
  ∃ e ∈ entries, ∃ f ∈ entries, e.1.isText = true ∧ f.1.isText = false ∧
    e.1.keyText? = f.1.keyText?

instance (entries : List (Value × Value)) : Decidable (Respelled entries) :=
  inferInstanceAs (Decidable (∃ e ∈ entries, ∃ f ∈ entries, _ ∧ _ ∧ _))

/-- **The texts of different keys differ unless one spells another.** -/
theorem pairwise_keyText?_iff {entries : List (Value × Value)}
    (hdistinct : areDistinct (entries.map Prod.fst) = true)
    (htexts : ∀ e ∈ entries, ∃ s, e.1.keyText? = some s) :
    entries.Pairwise (fun e f => e.1.keyText? ≠ f.1.keyText?) ↔ ¬ Respelled entries := by
  constructor
  · rintro hpairs ⟨e, he, f, hf, hetext, hftext, heq⟩
    have hne : e ≠ f := by
      rintro rfl
      rw [hetext] at hftext
      cases hftext
    have hsymm : Std.Symm fun e f : Value × Value => e.1.keyText? ≠ f.1.keyText? :=
      ⟨fun _ _ hne => hne.symm⟩
    exact hpairs.forall he hf hne heq
  · intro hno
    rw [areDistinct_iff, List.pairwise_map] at hdistinct
    refine hdistinct.imp_of_mem fun {e f} he hf hsame heq => ?_
    obtain ⟨s, hs⟩ := htexts e he
    have hs' : f.1.keyText? = some s := heq ▸ hs
    -- two texts are the same if they are equal, and two that are none by their spelling
    have htrue : e.1.same f.1 = true := by
      cases hetext : e.1.isText with
      | true =>
        cases hftext : f.1.isText with
        | true =>
          rw [keyText?_of_isText hetext hs, keyText?_of_isText hftext hs']
          exact beq_self_eq_true s
        | false => exact absurd ⟨e, he, f, hf, hetext, hftext, heq⟩ hno
      | false =>
        cases hftext : f.1.isText with
        | true => exact absurd ⟨f, hf, e, he, hftext, hetext, heq.symm⟩ hno
        | false => exact same_of_keyText? hetext hftext hs hs'
    rw [htrue] at hsame
    cases hsame

/-- The names of converted entries are the texts of their keys. -/
theorem map_keyText?_eq {place : String} {entries : List (Value × Value)}
    {cs : List (String × Json)} (h : List.Forall₂ (Becomes place) entries cs) :
    entries.map (fun e => e.1.keyText?) = (Fields.names cs).map some := by
  induction h with
  | nil => rfl
  | cons hfirst _ ih =>
    rw [List.map_cons, ih, hfirst.1]
    rfl

theorem mem_names_iff {place : String} {entries : List (Value × Value)}
    {cs : List (String × Json)} (h : List.Forall₂ (Becomes place) entries cs) (key : String) :
    key ∈ Fields.names cs ↔ ∃ e ∈ entries, e.1.keyText? = some key := by
  rw [← List.mem_map_of_injective (Option.some_injective String), ← map_keyText?_eq h,
    List.mem_map]

/-- **The object of a mapping keeps all entries unless one respells another.** -/
theorem nodup_names_iff_not_respelled {place : String} {entries : List (Value × Value)}
    {cs : List (String × Json)} (hdistinct : (map entries).isDistinct = true)
    (h : List.Forall₂ (Becomes place) entries cs) :
    (Fields.names cs).Nodup ↔ ¬ Respelled entries := by
  rw [isDistinct, Bool.and_eq_true] at hdistinct
  rw [← List.nodup_map_iff (Option.some_injective String), ← map_keyText?_eq h, List.Nodup,
    List.pairwise_map]
  refine pairwise_keyText?_iff hdistinct.1 fun e he => ?_
  obtain ⟨c, -, hc, -⟩ := exists_becomes h he
  exact ⟨c.1, hc⟩

/-- **Of entries with one text the last is kept.** -/
theorem get?_of_last {place key : String} {e : Value × Value} {pre post : List (Value × Value)}
    {cs : List (String × Json)} (h : List.Forall₂ (Becomes place) (pre ++ e :: post) cs)
    (hkey : e.1.keyText? = some key) (hlast : ∀ f ∈ post, f.1.keyText? ≠ some key) :
    ∃ w, e.2.toJson s!"{place}.{key}" = .ok w ∧ Fields.get? key (Fields.ofList cs) = some w := by
  -- the converted entries fall apart where the entries do
  have hrest := List.forall₂_drop_append cs pre (e :: post) h.flip
  obtain ⟨c, after, hc, hafter, hsplit⟩ := List.forall₂_cons_right_iff.1 hrest
  obtain rfl : key = c.1 := Option.some.inj (hkey.symm.trans hc.1)
  refine ⟨c.2, hc.2, ?_⟩
  rw [← List.take_append_drop pre.length cs, hsplit]
  refine Fields.get?_ofList_append ?_
  rw [mem_names_iff hafter.flip]
  rintro ⟨f, hf, hftext⟩
  exact hlast f hf hftext

/-- **Where no key respells another, everything is found at its place.** -/
theorem Part.follow? {v w : Value} {way : List Json.Step} (h : v.Part way w) :
    ∀ {place : String} {j : Json}, v.isDistinct = true → v.toJson place = .ok j →
      (∀ way entries, v.Part way (map entries) → ¬ Respelled entries) →
      ∃ place' u, w.toJson place' = .ok u ∧ j.follow? way = some u := by
  induction h with
  | here v => intro place j _ hj _; exact ⟨place, j, hj, rfl⟩
  | item hi _ ih =>
    intro place j hv hj hno
    obtain ⟨r, hr, rfl⟩ := toJson_seq hj
    obtain ⟨place', u, hu, hri⟩ := toJsonItems_eq_ok hr _ _ hi
    obtain ⟨place'', x, hx, hfollow⟩ := ih (Part.isDistinct (.item hi (.here _)) hv) hu
      fun way entries hpart => hno _ entries (.item hi hpart)
    refine ⟨place'', x, hx, ?_⟩
    rw [Json.follow?, Json.part?, hri]
    exact hfollow
  | @entry entries k u w key way he hk _ ih =>
    intro place j hv hj hno
    obtain ⟨cs, hcs, rfl⟩ := toJson_map hj
    -- the mapping itself is a part, and so are all parts of the value of the entry
    have hnodup := (nodup_names_iff_not_respelled hv hcs).2 (hno [] entries (.here _))
    obtain ⟨c, hc, hkc, hu⟩ := exists_becomes hcs he
    obtain rfl : key = c.1 := Option.some.inj (hk.symm.trans hkc)
    have hu' : u.isDistinct = true := Part.isDistinct (.entry he hk (.here u)) hv
    obtain ⟨place', x, hx, hfollow⟩ := ih hu' hu
      fun way entries hpart => hno _ entries (.entry he hk hpart)
    refine ⟨place', x, hx, ?_⟩
    rw [Json.follow?, Json.part?, Fields.get?_ofList_of_nodup hnodup hc]
    exact hfollow
  | tagged _ ih =>
    intro place j hv hj hno
    rw [toJson] at hj
    exact ih hv hj fun way entries hpart => hno way entries (.tagged hpart)

end Value

/-- **A mapping becomes an object that keeps all entries, unless one of its keys respells another.**
In a value that is converted, every mapping becomes an object with the texts of its keys; of entries
with one text the last is kept. There are as many entries as in the mapping exactly if no key that
is a text spells another key, a number or a truth value. Where this is so of every mapping, all that
the value has inside is found at its place. -/
theorem entries_are_kept_unless_respelled {v : Value} (hdistinct : v.isDistinct = true)
    {root : String} {j : Json} (h : v.toJson root = .ok j) :
    (∀ way entries, v.Part way (.map entries) → ∃ place fields,
      (Value.map entries).toJson place = .ok (.obj fields) ∧
      (∀ key, key ∈ Fields.names fields ↔ ∃ e ∈ entries, e.1.keyText? = some key) ∧
      (∀ pre e post key, entries = pre ++ e :: post → e.1.keyText? = some key →
        (∀ f ∈ post, f.1.keyText? ≠ some key) →
        ∃ w, e.2.toJson s!"{place}.{key}" = .ok w ∧ Fields.get? key fields = some w) ∧
      fields.length ≤ entries.length ∧
      (fields.length = entries.length ↔ ¬ Value.Respelled entries)) ∧
    ((∀ way entries, v.Part way (.map entries) → ¬ Value.Respelled entries) →
      ∀ way w, v.Part way w → ∃ place u, w.toJson place = .ok u ∧ j.follow? way = some u) := by
  refine ⟨fun way entries hpart => ?_, fun hno way w hpart => hpart.follow? hdistinct h hno⟩
  obtain ⟨place, o, ho⟩ := hpart.toJson_eq_ok h
  obtain ⟨cs, hcs, rfl⟩ := Value.toJson_map ho
  have hlength : cs.length = entries.length := hcs.length_eq.symm
  refine ⟨place, _, ho, fun key => ?_, ?_, ?_, ?_⟩
  · rw [Fields.mem_names_ofList_iff, Value.mem_names_iff hcs]
  · rintro pre e post key rfl hkey hlast
    exact Value.get?_of_last hcs hkey hlast
  · rw [← hlength]
    exact Fields.length_ofList_le cs
  · rw [← hlength, Fields.length_ofList_eq_iff]
    exact Value.nodup_names_iff_not_respelled (hpart.isDistinct hdistinct) hcs

/-- A number and a text that spells it are different keys, and the object has one name for both. The
entry of the number is gone. -/
theorem number_is_lost_to_its_text :
    let entries : List (Value × Value) :=
      [(.scalar (.int 1), .scalar (.text "a")), (.scalar (.text "1"), .scalar (.text "b"))]
    (Value.map entries).isDistinct = true ∧
      ∃ fields, (Value.map entries).toJson "$" = .ok (.obj fields) ∧
        fields = [("1", .str "b")] ∧ fields.length ≠ entries.length := by
  refine ⟨by decide +kernel, _, rfl, rfl, by decide⟩

/-- A mapping with keys of all kinds. -/
def kinds : List (Value × Value) :=
  [(.scalar (.int 2), .scalar (.text "two")), (.scalar (.double 0.5), .scalar .null),
    (.scalar (.bool true), .scalar (.double 0.5)), (.scalar (.text "2.0"), .seq [])]

/-- The mapping is the only one in its place. -/
theorem eq_kinds_of_part {way : List Json.Step} {entries : List (Value × Value)}
    (h : Value.Part (.seq [.tagged "kinds" (.map kinds)]) way (.map entries)) :
    entries = kinds := by
  rcases h with _ | ⟨hi, hitem⟩
  obtain rfl := List.mem_singleton.1 (List.mem_of_getElem? hi)
  rcases hitem with _ | _ | _ | hmap
  rcases hmap with _ | _ | ⟨he, -, hvalue⟩
  · rfl
  · -- the values are scalars but for an empty sequence, and have nothing inside
    simp only [kinds, List.mem_cons, Prod.mk.injEq, List.not_mem_nil, or_false] at he
    rcases he with ⟨-, rfl⟩ | ⟨-, rfl⟩ | ⟨-, rfl⟩ | ⟨-, rfl⟩ <;> rcases hvalue with _ | ⟨hi, -⟩
    cases hi

/-- Keys of all kinds are kept, in a sequence and with a tag. -/
theorem keys_of_all_kinds_are_kept :
    let v : Value := .seq [.tagged "kinds" (.map kinds)]
    v.isDistinct = true ∧ ∃ j, v.toJson "$" = .ok j ∧
      (∃ place fields, (Value.map kinds).toJson place = .ok (.obj fields) ∧
        fields.length = kinds.length) ∧
      ∃ place u, (Value.map kinds).toJson place = .ok u ∧ j.follow? [.item 0] = some u := by
  intro v
  have hdistinct : v.isDistinct = true := by decide +kernel
  have hj : v.toJson "$" = .ok _ := rfl
  have hkinds : ¬ Value.Respelled kinds := by decide +kernel
  have hpart : v.Part [.item 0] (.map kinds) := .item rfl (.tagged (.here _))
  obtain ⟨hmaps, hplaces⟩ := entries_are_kept_unless_respelled hdistinct hj
  obtain ⟨place, fields, hfields, -, -, -, hlength⟩ := hmaps _ kinds hpart
  refine ⟨hdistinct, _, hj, ⟨place, fields, hfields, hlength.2 hkinds⟩, hplaces ?_ _ _ hpart⟩
  intro way entries hpart
  rw [eq_kinds_of_part hpart]
  exact hkinds

end Yaml

end SchemaRules
