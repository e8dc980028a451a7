/-!
# Fields in key order

A finite map from names to values is the list of its entries in ascending order of
the names, compared code point by code point, each name at most once.

* `get?` looks a name up.
* `insert` puts an entry in its place, over an entry of the same name.
* `ofList` inserts entries one after the other, so of equal names the last wins.
-/

namespace SchemaRules

/-- **Entries in ascending order of their names.** -/
abbrev Fields (α : Type) := List (String × α)

namespace Fields

variable {α β : Type}

/-- The value under a name. -/
def get? (name : String) : Fields α → Option α
  | [] => none
  | (k, v) :: rest => if k = name then some v else get? name rest

/-- Whether a name has a value. -/
def has (name : String) (fields : Fields α) : Bool :=
  (get? name fields).isSome

/-- **The fields with one more entry**, which replaces an entry of its name. -/
def insert (name : String) (value : α) : Fields α → Fields α
  | [] => [(name, value)]
  | (k, v) :: rest =>
    if name < k then (name, value) :: (k, v) :: rest
    else if name = k then (name, value) :: rest
    else (k, v) :: insert name value rest

/-- The fields that hold the given entries, of equal names the last. -/
def ofList (entries : List (String × α)) : Fields α :=
  entries.foldl (fun fields e => insert e.1 e.2 fields) []

/-- The names, in order. -/
def names (fields : Fields α) : List String :=
  fields.map Prod.fst

/-- The names ascend strictly. -/
def Ordered (fields : Fields α) : Prop :=
  fields.Pairwise fun a b => a.1 < b.1

instance (fields : Fields α) : Decidable (Ordered fields) :=
  inferInstanceAs (Decidable (List.Pairwise (fun a b => a.1 < b.1) fields))

theorem ordered_iff_names {fields : Fields α} :
    Ordered fields ↔ (names fields).Pairwise (· < ·) := by
  rw [names, List.pairwise_map]; rfl

theorem nodup_names {fields : Fields α} (h : Ordered fields) : (names fields).Nodup :=
  (ordered_iff_names.1 h).imp fun {a b} (hlt : a < b) (heq : a = b) =>
    String.lt_irrefl b (heq ▸ hlt)

@[simp] theorem get?_nil (name : String) : get? name ([] : Fields α) = none := rfl

@[simp] theorem get?_cons_self (name : String) (v : α) (rest : Fields α) :
    get? name ((name, v) :: rest) = some v := by
  simp [get?]

theorem get?_cons_of_ne {name k : String} (h : k ≠ name) (v : α) (rest : Fields α) :
    get? name ((k, v) :: rest) = get? name rest := by
  simp [get?, h]

/-- Exactly the names have values. -/
theorem get?_eq_none_iff {name : String} {fields : Fields α} :
    get? name fields = none ↔ name ∉ names fields := by
  induction fields with
  | nil => simp [names]
  | cons e rest ih =>
    obtain ⟨k, v⟩ := e
    by_cases h : k = name
    · subst h; simp [names]
    · rw [get?_cons_of_ne h, ih]
      simp [names, Ne.symm h]

theorem has_iff {name : String} {fields : Fields α} : has name fields ↔ name ∈ names fields := by
  rw [has, Option.isSome_iff_ne_none, ne_eq, get?_eq_none_iff, Classical.not_not]

theorem mem_of_get? {name : String} {v : α} {fields : Fields α} (h : get? name fields = some v) :
    (name, v) ∈ fields := by
  induction fields with
  | nil => simp at h
  | cons e rest ih =>
    obtain ⟨k, w⟩ := e
    by_cases hk : k = name
    · subst hk
      rw [get?_cons_self] at h
      cases h; exact List.mem_cons_self
    · rw [get?_cons_of_ne hk] at h
      exact List.mem_cons_of_mem _ (ih h)

theorem mem_names_of_get? {name : String} {v : α} {fields : Fields α}
    (h : get? name fields = some v) : name ∈ names fields :=
  List.mem_map_of_mem (mem_of_get? h)

/-- **In ordered fields an entry is the value of its name.** -/
theorem Ordered.get?_eq_some_iff {name : String} {v : α} {fields : Fields α}
    (h : Ordered fields) : get? name fields = some v ↔ (name, v) ∈ fields := by
  refine ⟨mem_of_get?, fun hv => ?_⟩
  induction fields with
  | nil => cases hv
  | cons e rest ih =>
    obtain ⟨k, w⟩ := e
    obtain ⟨hlt, hrest⟩ := List.pairwise_cons.1 h
    rcases List.mem_cons.1 hv with he | hv
    · cases he; exact get?_cons_self name v rest
    · have hne : k ≠ name := fun hk => String.lt_irrefl k (hk ▸ hlt _ hv)
      rw [get?_cons_of_ne hne]
      exact ih hrest hv

/-- Changing the values keeps the names. -/
theorem get?_map (f : α → β) (name : String) (fields : Fields α) :
    get? name (fields.map fun e => (e.1, f e.2)) = (get? name fields).map f := by
  induction fields with
  | nil => rfl
  | cons e rest ih =>
    obtain ⟨k, w⟩ := e
    by_cases hk : k = name
    · subst hk; simp
    · rw [List.map_cons, get?_cons_of_ne hk, get?_cons_of_ne hk, ih]

/-- Of the entries with some names, one is found if its name is among them. -/
theorem get?_filter (p : String → Bool) (name : String) (fields : Fields α) :
    get? name (fields.filter fun e => p e.1) = if p name then get? name fields else none := by
  induction fields with
  | nil => simp
  | cons e rest ih =>
    obtain ⟨k, w⟩ := e
    simp only [List.filter_cons]
    by_cases hk : k = name
    · subst hk
      by_cases hp : p k = true
      · simp [hp]
      · simp [hp, ih]
    · by_cases hp : p k = true
      · rw [if_pos hp, get?_cons_of_ne hk, get?_cons_of_ne hk, ih]
      · rw [if_neg hp, get?_cons_of_ne hk, ih]

theorem Ordered.tail {e : String × α} {rest : Fields α} (h : Ordered (e :: rest)) : Ordered rest :=
  (List.pairwise_cons.1 h).2

/-- The first name does not come again. -/
theorem Ordered.get?_tail {k : String} {v : α} {rest : Fields α} (h : Ordered ((k, v) :: rest)) :
    get? k rest = none := by
  rw [get?_eq_none_iff]
  intro hk
  obtain ⟨e, he, hek⟩ := List.mem_map.1 hk
  have hlt := (List.pairwise_cons.1 h).1 e he
  rw [hek] at hlt
  exact String.lt_irrefl k hlt

/-- **An inserted entry is found**, and no other one is lost or hidden. -/
theorem get?_insert (key name : String) (v : α) (fields : Fields α) :
    get? key (insert name v fields) = if name = key then some v else get? key fields := by
  induction fields with
  | nil => simp [insert, get?]
  | cons e rest ih =>
    obtain ⟨k, w⟩ := e
    simp only [insert]
    split
    · simp [get?]
    · split
      · next hk => subst hk; by_cases h : name = key <;> simp [get?, h]
      · next hk =>
        by_cases h : k = key
        · subst h; simp [get?, hk]
        · rw [get?_cons_of_ne h, ih, get?_cons_of_ne h]

theorem mem_insert {name : String} {v : α} {e : String × α} {fields : Fields α}
    (h : e ∈ insert name v fields) : e = (name, v) ∨ e ∈ fields := by
  induction fields with
  | nil => exact .inl (List.mem_singleton.1 h)
  | cons f rest ih =>
    simp only [insert] at h
    split at h
    · exact List.mem_cons.1 h
    · split at h
      · exact (List.mem_cons.1 h).imp_right (List.mem_cons_of_mem _)
      · rcases List.mem_cons.1 h with rfl | h
        · exact .inr List.mem_cons_self
        · exact (ih h).imp_right (List.mem_cons_of_mem _)

theorem lt_of_not_lt_of_ne {a b : String} (h : ¬ a < b) (hne : a ≠ b) : b < a :=
  Classical.byContradiction fun hn =>
    hne (String.le_antisymm (String.not_lt.1 hn) (String.not_lt.1 h))

/-- **An entry is put in its place.** -/
theorem Ordered.insert {fields : Fields α} (h : Ordered fields) (name : String) (v : α) :
    Ordered (insert name v fields) := by
  induction fields with
  | nil => exact List.pairwise_singleton _ _
  | cons e rest ih =>
    obtain ⟨k, w⟩ := e
    have hrest := (List.pairwise_cons.1 h).1
    simp only [Fields.insert]
    split
    · next hlt =>
      refine List.pairwise_cons.2 ⟨fun e he => ?_, h⟩
      rcases List.mem_cons.1 he with rfl | he
      · exact hlt
      · exact String.lt_trans hlt (hrest e he)
    · next hlt =>
      split
      · next hk =>
        subst hk
        exact List.pairwise_cons.2 ⟨hrest, h.tail⟩
      · next hne =>
        refine List.pairwise_cons.2 ⟨fun e he => ?_, ih h.tail⟩
        rcases mem_insert he with rfl | he
        · exact lt_of_not_lt_of_ne hlt hne
        · exact hrest e he

/-- An entry whose name comes after all others is put at the end. -/
theorem insert_of_forall_lt {name : String} {v : α} {fields : Fields α}
    (h : ∀ k ∈ names fields, k < name) : insert name v fields = fields ++ [(name, v)] := by
  induction fields with
  | nil => rfl
  | cons e rest ih =>
    obtain ⟨k, w⟩ := e
    have hk : k < name := h k List.mem_cons_self
    have hne : name ≠ k := fun he => String.lt_irrefl k (he ▸ hk)
    rw [insert, if_neg (String.lt_asymm hk), if_neg hne,
      ih fun k hk => h k (List.mem_cons_of_mem _ hk), List.cons_append]

/-- **The names are those that were there and the inserted one.** -/
theorem mem_names_insert_iff {key name : String} {v : α} {fields : Fields α} :
    key ∈ names (insert name v fields) ↔ key = name ∨ key ∈ names fields := by
  rw [← has_iff, ← has_iff, has, has, get?_insert]
  by_cases h : name = key
  · simp [h]
  · simp [h, Ne.symm h]

/-- An entry of a name that is there already leaves the names as they are. -/
theorem Ordered.names_insert {fields : Fields α} (h : Ordered fields) {name : String}
    (hname : name ∈ names fields) (v : α) : names (Fields.insert name v fields) = names fields := by
  induction fields with
  | nil => cases hname
  | cons e rest ih =>
    obtain ⟨k, w⟩ := e
    rw [Fields.insert]
    rcases List.mem_cons.1 hname with rfl | hname
    · rw [if_neg (String.lt_irrefl name), if_pos rfl]
      rfl
    · obtain ⟨f, hf, hfname⟩ := List.mem_map.1 hname
      have hlt : k < name := hfname ▸ (List.pairwise_cons.1 h).1 f hf
      have hne : name ≠ k := fun he => String.lt_irrefl k (he ▸ hlt)
      rw [if_neg (String.lt_asymm hlt), if_neg hne]
      exact congrArg (k :: ·) (ih h.tail hname)

/-- Of two entries that are put in under one name the second stays. -/
theorem insert_insert (name : String) (v w : α) (fields : Fields α) :
    insert name w (insert name v fields) = insert name w fields := by
  have hself : ∀ rest : Fields α,
      insert name w ((name, v) :: rest) = (name, w) :: rest := fun rest => by
    rw [insert, if_neg (String.lt_irrefl name), if_pos rfl]
  induction fields with
  | nil => exact hself []
  | cons e rest ih =>
    obtain ⟨k, u⟩ := e
    rw [insert, insert]
    split
    · exact hself _
    · next hlt =>
      split
      · exact hself _
      · next hne => rw [insert, if_neg hlt, if_neg hne, ih]

/-- **Given entries are put in order.** -/
theorem ordered_ofList (entries : List (String × α)) : Ordered (ofList entries) := by
  suffices h : ∀ fields : Fields α, Ordered fields →
      Ordered (entries.foldl (fun fs e => insert e.1 e.2 fs) fields) from h [] .nil
  induction entries with
  | nil => exact fun _ h => h
  | cons e rest ih => exact fun fields h => ih _ (h.insert e.1 e.2)

/-- No other entries come in. -/
theorem mem_of_mem_ofList {e : String × α} {entries : List (String × α)}
    (h : e ∈ ofList entries) : e ∈ entries := by
  suffices hs : ∀ fields : Fields α,
      e ∈ entries.foldl (fun fs e => insert e.1 e.2 fs) fields → e ∈ entries ∨ e ∈ fields from
    (hs [] h).resolve_right List.not_mem_nil
  clear h
  induction entries with
  | nil => exact fun _ h => .inr h
  | cons f rest ih =>
    intro fields h
    rcases ih _ h with h | h
    · exact .inl (List.mem_cons_of_mem _ h)
    · rcases mem_insert h with rfl | h
      · exact .inl List.mem_cons_self
      · exact .inr h

/-- **No name is lost.** -/
theorem mem_names_ofList_iff {key : String} {entries : List (String × α)} :
    key ∈ names (ofList entries) ↔ key ∈ names entries := by
  suffices h : ∀ fields : Fields α,
      key ∈ names (entries.foldl (fun fs e => insert e.1 e.2 fs) fields) ↔
        key ∈ names entries ∨ key ∈ names fields from
    (h []).trans (or_iff_left List.not_mem_nil)
  induction entries with
  | nil => simp [names]
  | cons e rest ih =>
    intro fields
    rw [List.foldl_cons, ih, mem_names_insert_iff, or_left_comm, ← or_assoc]
    exact or_congr_left List.mem_cons.symm

/-- **Ordered fields are known by their entries.** -/
theorem Ordered.eq_of_mem_iff {a b : Fields α} (ha : Ordered a) (hb : Ordered b)
    (h : ∀ e, e ∈ a ↔ e ∈ b) : a = b := by
  have hne : ∀ {e f : String × α}, e.1 < f.1 → e ≠ f :=
    fun hlt he => String.lt_irrefl _ (he ▸ hlt)
  refine List.Perm.eq_of_pairwise (fun e f _ _ hef hfe => ?_) ha hb
    ((List.perm_ext_iff_of_nodup (ha.imp hne) (hb.imp hne)).2 h)
  exact absurd hfe (String.lt_asymm hef)

/-- Entries that all have the same value. -/
theorem get?_ofList_const (key : String) (names : List String) (v : α) :
    get? key (ofList (names.map fun name => (name, v))) = if key ∈ names then some v else none := by
  suffices h : ∀ fields : Fields α,
      get? key ((names.map fun name => (name, v)).foldl (fun fs e => insert e.1 e.2 fs) fields) =
        if key ∈ names then some v else get? key fields from h []
  induction names with
  | nil => simp
  | cons name rest ih =>
    intro fields
    rw [List.map_cons, List.foldl_cons, ih, get?_insert]
    by_cases h : name = key
    · subst h; simp
    · simp [h, Ne.symm h]

/-- **The entries under given names that all have the same value.** -/
theorem mem_ofList_const_iff {names : List String} {v : α} {e : String × α} :
    e ∈ ofList (names.map fun name => (name, v)) ↔ e.1 ∈ names ∧ e.2 = v := by
  rw [← (ordered_ofList _).get?_eq_some_iff, get?_ofList_const, Option.ite_none_right_eq_some,
    Option.some.injEq, eq_comm (a := v)]

end Fields

end SchemaRules
