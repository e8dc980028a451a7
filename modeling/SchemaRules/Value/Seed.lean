import SchemaRules.Value.Basic

/-!
# Seeds

Nothing prescribes the order in which the entries of a map stand. Every map that is built has
an order of its own, and what goes through the entries or shows them meets them in this order.

A seed decides the orders of all maps that a run builds. It is split as the run goes on, so
that no two maps have to agree in their order.

* `Seed.arrange` brings entries into an order. Each of them is found as before.
* `Seed.here` and `Seed.next` are for the first of several things and for those behind it,
  `Seed.under` for what stands under a name, `Seed.apart` for what is built beside.
* `Seed.spread` hands out a seed to each item of a list.
* `Seed.join` is the seed with given parts.
-/

namespace SchemaRules

/-- A part of a run. -/
inductive Seed.Part where
  | here
  | next
  | under (name : String)
  | apart
  deriving DecidableEq

/-- **A seed**: whether a key is put in front of another one, for the map that is built in a part
of a part of a run. Nothing is asked of it. -/
structure Seed where
  first : List Seed.Part → Key → Key → Bool

namespace Seed

/-- Keys ascend, but for what is built apart, where they descend, as nothing makes the two agree. -/
def standard : Seed :=
  ⟨fun place k l => if place.contains .apart then l.before k else k.before l⟩

/-- **The seed of a part.** -/
def part (s : Seed) (p : Part) : Seed :=
  ⟨fun place => s.first (p :: place)⟩

/-- The seed of the first of several things. -/
abbrev here (s : Seed) : Seed := s.part .here

/-- The seed of all things but the first. -/
abbrev next (s : Seed) : Seed := s.part .next

/-- The seed of what stands under a name. -/
abbrev under (s : Seed) (name : String) : Seed := s.part (.under name)

/-- The seed of what is built beside. -/
abbrev apart (s : Seed) : Seed := s.part .apart

/-- The seed of the things from a number on. -/
def after (s : Seed) : Nat → Seed
  | 0 => s
  | n + 1 => s.next.after n

/-- **The seed of the thing with a number.** -/
def item (s : Seed) (n : Nat) : Seed :=
  (s.after n).here

/-- The seed with given parts, and an order for the map that is built there. -/
def join (first : Key → Key → Bool) (parts : Part → Seed) : Seed :=
  ⟨fun
    | [] => first
    | p :: place => (parts p).first place⟩

/-- **A list with a seed for each item.** -/
def spread {α : Type} : Seed → List α → List (Seed × α)
  | _, [] => []
  | s, v :: rest => (s.here, v) :: spread s.next rest

/-- Entries with one more, in front of the first one that it is put in front of. An entry is never
moved behind one of its key. -/
def place (first : Key → Key → Bool) (e : Key × Value) : List (Key × Value) → List (Key × Value)
  | [] => [e]
  | f :: rest => if e.1 = f.1 || first e.1 f.1 then e :: f :: rest else f :: place first e rest

/-- **Entries in the order of a map that is built.** -/
def arrange (s : Seed) (entries : List (Key × Value)) : List (Key × Value) :=
  entries.foldr (place (s.first [])) []

theorem arrange_cons (s : Seed) (e : Key × Value) (entries : List (Key × Value)) :
    s.arrange (e :: entries) = place (s.first []) e (s.arrange entries) := rfl

theorem place_perm (first : Key → Key → Bool) (e : Key × Value) (entries : List (Key × Value)) :
    (place first e entries).Perm (e :: entries) := by
  induction entries with
  | nil => exact .refl _
  | cons f rest ih =>
    rw [place]
    split
    · exact .refl _
    · exact (ih.cons f).trans (.swap e f rest)

/-- **The entries are the same.** -/
theorem arrange_perm (s : Seed) (entries : List (Key × Value)) :
    (s.arrange entries).Perm entries := by
  induction entries with
  | nil => exact .refl _
  | cons e rest ih => exact (place_perm _ e _).trans (ih.cons e)

/-- A map with one entry has one order. -/
theorem arrange_of_length_le_one (s : Seed) {entries : List (Key × Value)}
    (h : entries.length ≤ 1) : s.arrange entries = entries :=
  match entries with
  | [] => rfl
  | [_] => rfl
  | _ :: _ :: _ => absurd h (by simp)

theorem perm_keys_arrange (s : Seed) (entries : List (Key × Value)) :
    ((s.arrange entries).map Prod.fst).Perm (entries.map Prod.fst) :=
  (s.arrange_perm entries).map Prod.fst

@[simp] theorem mem_arrange {s : Seed} {entries : List (Key × Value)} {e : Key × Value} :
    e ∈ s.arrange entries ↔ e ∈ entries :=
  (s.arrange_perm entries).mem_iff

theorem lookup?_place (first : Key → Key → Bool) (key : Key) (e : Key × Value)
    (entries : List (Key × Value)) :
    Value.lookup? key (place first e entries) = Value.lookup? key (e :: entries) := by
  induction entries with
  | nil => rfl
  | cons f rest ih =>
    rw [place]
    split
    · rfl
    · next h =>
      have hne : e.1 ≠ f.1 := fun heq => h (by simp [heq])
      rw [Value.lookup?, ih]
      simp only [Value.lookup?]
      by_cases hf : f.1 = key
      · rw [if_pos hf, if_neg (fun he => hne (he.trans hf.symm)), if_pos hf]
      · rw [if_neg hf, if_neg hf]

/-- **Each entry is found as before.** -/
@[simp] theorem lookup?_arrange (s : Seed) (key : Key) (entries : List (Key × Value)) :
    Value.lookup? key (s.arrange entries) = Value.lookup? key entries := by
  induction entries with
  | nil => rfl
  | cons e rest ih =>
    rw [arrange_cons, lookup?_place, Value.lookup?, Value.lookup?, ih]

theorem after_succ (s : Seed) (n : Nat) : s.after (n + 1) = s.next.after n := rfl

theorem next_after (s : Seed) (n : Nat) : (s.after n).next = s.after (n + 1) := by
  induction n generalizing s with
  | zero => rfl
  | succ n ih => rw [after_succ, ih, after_succ s (n + 1)]

@[simp] theorem item_zero (s : Seed) : s.item 0 = s.here := rfl

theorem item_succ (s : Seed) (n : Nat) : s.item (n + 1) = s.next.item n := rfl

section

variable {α : Type}

@[simp] theorem length_spread (s : Seed) (items : List α) :
    (s.spread items).length = items.length := by
  induction items generalizing s with
  | nil => rfl
  | cons v rest ih => rw [spread, List.length_cons, ih, List.length_cons]

@[simp] theorem map_snd_spread (s : Seed) (items : List α) :
    (s.spread items).map Prod.snd = items := by
  induction items generalizing s with
  | nil => rfl
  | cons v rest ih => rw [spread, List.map_cons, ih]

theorem mem_of_mem_spread {s : Seed} {items : List α} {e : Seed × α} (h : e ∈ s.spread items) :
    e.2 ∈ items := by
  rw [← map_snd_spread s items]
  exact List.mem_map_of_mem h

theorem getElem?_spread (s : Seed) (items : List α) (i : Nat) :
    (s.spread items)[i]? = items[i]?.map fun v => (s.item i, v) := by
  induction items generalizing s i with
  | nil => rfl
  | cons v rest ih =>
    cases i with
    | zero => rfl
    | succ i => rw [spread, List.getElem?_cons_succ, ih, List.getElem?_cons_succ, item_succ]

theorem spread_append (s : Seed) (a b : List α) :
    s.spread (a ++ b) = s.spread a ++ (s.after a.length).spread b := by
  induction a generalizing s with
  | nil => rfl
  | cons v rest ih =>
    rw [List.cons_append, spread, ih, spread, List.cons_append, List.length_cons, after_succ]

end

end Seed

end SchemaRules
