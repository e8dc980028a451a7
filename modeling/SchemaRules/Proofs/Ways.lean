import SchemaRules.RuleTree

/-!
# Ways and their paths

A part of a tree is known by the way to it, step by step from the root. Its path is a text: every
step adds a piece to the path of the part above it.

* `Located`, `Located.under`: parts of a tree with the ways to them.
* `Located.Before`, `pairwise_under`, `pairwise_append`: parts in the order of their ways.
* `IsFirst`: **the first way of some**, of which there is only one.
* `pathFrom`: **the path at the end of a way**.
* `PartAt`, `Continues`: where two ways part, and names of which one begins with the other.
* `parts_of_pathFrom_eq`: **two ways have the same path only if they part at pieces of which one is
  the other one, continued** by a dot or a bracket.
-/

namespace SchemaRules

/-! ## Parts of a tree -/

/-- **A part of a tree** with the way to it. -/
structure Located (σ α : Type) where
  way : List σ
  part : α

namespace Located

variable {σ α : Type}

/-- The parts of a subtree, as parts of the tree that has it at a step. -/
def under (step : σ) (parts : List (Located σ α)) : List (Located σ α) :=
  parts.map fun x => ⟨step :: x.way, x.part⟩

theorem mem_under {step : σ} {parts : List (Located σ α)} {x : Located σ α}
    (h : x ∈ under step parts) : ∃ y ∈ parts, x = ⟨step :: y.way, y.part⟩ := by
  obtain ⟨y, hy, rfl⟩ := List.mem_map.1 h
  exact ⟨y, hy, rfl⟩

/-- **One part comes before another one**: it is on the way to it, or the ways part at two steps the
first of which comes before the second. -/
def Before (r : σ → σ → Prop) (x y : Located σ α) : Prop :=
  List.Lex r x.way y.way

variable {r : σ → σ → Prop}

theorem Before.ne (hr : ∀ a, ¬ r a a) {x y : Located σ α} (h : Before r x y) : x.way ≠ y.way := by
  intro hway
  rw [Before, hway] at h
  exact List.lex_irrefl hr y.way h

theorem pairwise_under {parts : List (Located σ α)} (h : parts.Pairwise (Before r)) (step : σ) :
    (under step parts).Pairwise (Before r) :=
  List.pairwise_map.2 (h.imp List.Lex.cons)

/-- All parts of a list are reached over steps of a kind. -/
def StartsIn (P : σ → Prop) (parts : List (Located σ α)) : Prop :=
  ∀ x ∈ parts, ∃ a rest, x.way = a :: rest ∧ P a

variable {P Q : σ → Prop}

theorem startsIn_nil : StartsIn P ([] : List (Located σ α)) :=
  List.forall_mem_nil _

theorem startsIn_under {step : σ} (h : P step) (parts : List (Located σ α)) :
    StartsIn P (under step parts) := by
  intro x hx
  obtain ⟨y, -, rfl⟩ := mem_under hx
  exact ⟨step, y.way, rfl, h⟩

theorem StartsIn.append {parts rest : List (Located σ α)} (h : StartsIn P parts)
    (hrest : StartsIn P rest) : StartsIn P (parts ++ rest) :=
  fun x hx => (List.mem_append.1 hx).elim (h x) (hrest x)

theorem StartsIn.mono {parts : List (Located σ α)} (h : StartsIn P parts) (hPQ : ∀ a, P a → Q a) :
    StartsIn Q parts := by
  intro x hx
  obtain ⟨a, rest, hway, ha⟩ := h x hx
  exact ⟨a, rest, hway, hPQ a ha⟩

/-- **Parts come before those that are reached over later steps.** -/
theorem pairwise_append {parts rest : List (Located σ α)} (hparts : parts.Pairwise (Before r))
    (hrest : rest.Pairwise (Before r)) (hP : StartsIn P parts) (hQ : StartsIn Q rest)
    (hr : ∀ a b, P a → Q b → r a b) : (parts ++ rest).Pairwise (Before r) := by
  refine List.pairwise_append.2 ⟨hparts, hrest, fun x hx y hy => ?_⟩
  obtain ⟨a, way, hx, ha⟩ := hP x hx
  obtain ⟨b, way', hy, hb⟩ := hQ y hy
  rw [Before, hx, hy]
  exact .rel (hr a b ha hb)

/-- **The root comes before all parts that a step leads to.** -/
theorem pairwise_cons_root {root : α} {rest : List (Located σ α)} (hrest : rest.Pairwise (Before r))
    (hP : StartsIn P rest) : (⟨[], root⟩ :: rest).Pairwise (Before r) := by
  refine List.pairwise_cons.2 ⟨fun x hx => ?_, hrest⟩
  obtain ⟨a, way, hway, -⟩ := hP x hx
  rw [Before, hway]
  exact .nil

end Located

/-! ## First ways -/

section First

variable {σ : Type} {r : σ → σ → Prop} {P Q : List σ → Prop} {p q : List σ}

/-- **The first way of some**: it is one of them, and comes before all others. -/
def IsFirst (r : σ → σ → Prop) (P : List σ → Prop) (way : List σ) : Prop :=
  P way ∧ ∀ other, P other → other = way ∨ List.Lex r way other

/-- There is only one first way. -/
theorem IsFirst.unique (hr : ∀ {a b}, r a b → ¬ r b a) (hp : IsFirst r P p) (hq : IsFirst r P q) :
    p = q := by
  rcases hp.2 q hq.1 with h | h
  · exact h.symm
  · rcases hq.2 p hp.1 with h' | h'
    · exact h'
    · exact absurd h' (List.lex_asymm hr h)

/-- The root is the first way if it is one of them. -/
theorem isFirst_nil (h : P []) : IsFirst r P [] := by
  refine ⟨h, fun other _ => ?_⟩
  cases other with
  | nil => exact .inl rfl
  | cons a rest => exact .inr .nil

/-- **What comes first behind a step comes first at all**, if the other ways go over later steps. -/
theorem IsFirst.cons {step : σ} (h : IsFirst r Q q) (hP : P (step :: q))
    (hlater : ∀ other, P other → ∃ a rest, other = a :: rest ∧ (a = step ∧ Q rest ∨ r step a)) :
    IsFirst r P (step :: q) := by
  refine ⟨hP, fun other hother => ?_⟩
  obtain ⟨a, rest, rfl, ⟨rfl, hrest⟩ | ha⟩ := hlater other hother
  · rcases h.2 rest hrest with rfl | hbefore
    · exact .inl rfl
    · exact .inr (.cons hbefore)
  · exact .inr (.rel ha)

end First

/-! ## Paths -/

/-- **A piece of a path**: the name of a member, or what stands in brackets. -/
inductive Piece where
  | name (s : String)
  | index (s : String)

namespace Piece

/-- The path with a piece more. -/
def onto (path : String) : Piece → String
  | name s => joinPath path s
  | index s => s!"{path}[{s}]"

/-- What a piece looks like; only in front of a path there is no dot before a name. -/
def look (first : Bool) : Piece → List Char
  | name s => if first then s.toList else '.' :: s.toList
  | index s => '[' :: (s.toList ++ [']'])

theorem toList_onto (path : String) (p : Piece) :
    (p.onto path).toList = path.toList ++ p.look path.isEmpty := by
  cases p with
  | name s =>
    cases h : path.isEmpty with
    | true => simp [onto, joinPath, look, String.isEmpty_iff.1 h]
    | false => simp [onto, joinPath, look, h, ToString.toString]
  | index s => simp [onto, look, ToString.toString]

end Piece

/-- **The path at the end of a way** that begins at a path. -/
def pathFrom {σ : Type} (piece : σ → Piece) (path : String) (way : List σ) : String :=
  way.foldl (fun path step => (piece step).onto path) path

/-- A text that goes on behind a name: with a dot or a bracket, if there is any. -/
def Opens (cs : List Char) : Prop :=
  ∀ c ∈ cs.head?, c = '.' ∨ c = '['

/-- **A name is another one, continued** by nothing or by a text that begins with a dot or a
bracket. -/
def Continues (m n : String) : Prop :=
  ∃ cs, Opens cs ∧ n.toList = m.toList ++ cs

/-- **Two ways part** behind a common part, the one with the step `a` and the other with `b`. -/
def PartAt {σ : Type} (p q common : List σ) (a b : σ) : Prop :=
  a ≠ b ∧ ∃ r r', p = common ++ a :: r ∧ q = common ++ b :: r'

/-- A piece runs into another one that is the same text, continued. -/
def Piece.RunsInto (first : Bool) (p q : Piece) : Prop :=
  ∃ cs, Opens cs ∧ q.look first = p.look first ++ cs

section Paths

variable {σ : Type} {piece : σ → Piece}

theorem PartAt.cons {p q common : List σ} {a b : σ} (h : PartAt p q common a b) (step : σ) :
    PartAt (step :: p) (step :: q) (step :: common) a b := by
  obtain ⟨hne, r, r', rfl, rfl⟩ := h
  exact ⟨hne, r, r', rfl, rfl⟩

/-- What a way adds to a path that is not empty. -/
def tailText (piece : σ → Piece) (way : List σ) : List Char :=
  way.flatMap fun step => (piece step).look false

theorem opens_look (p : Piece) (rest : List Char) : Opens (p.look false ++ rest) := by
  intro c hc
  cases p with
  | name s => cases hc; exact .inl rfl
  | index s => cases hc; exact .inr rfl

theorem opens_tailText (way : List σ) : Opens (tailText piece way) := by
  cases way with
  | nil => intro c hc; cases hc
  | cons step rest => exact opens_look (piece step) _

theorem look_ne_nil (p : Piece) : p.look false ≠ [] := by
  cases p <;> simp [Piece.look]

theorem onto_ne_empty (path : String) (p : Piece) (h : path ≠ "" ∨ p.look true ≠ []) :
    p.onto path ≠ "" := by
  intro he
  have hlist : path.toList ++ p.look path.isEmpty = [] := by rw [← p.toList_onto path, he]; rfl
  obtain ⟨hpath, hlook⟩ := List.append_eq_nil_iff.1 hlist
  have hempty : path = "" := String.toList_inj.1 (hpath.trans rfl)
  subst hempty
  exact h.elim (· rfl) (· hlook)

/-- **Behind a path** every step adds what it looks like there. -/
theorem toList_pathFrom {path : String} (h : path ≠ "") (way : List σ) :
    (pathFrom piece path way).toList = path.toList ++ tailText piece way := by
  induction way generalizing path with
  | nil => simp [pathFrom, tailText]
  | cons step rest ih =>
    have hempty : path.isEmpty = false := by simpa using h
    have hstep := ih (onto_ne_empty path (piece step) (.inl h))
    rw [pathFrom, List.foldl_cons, ← pathFrom, hstep, Piece.toList_onto, hempty, tailText, tailText,
      List.flatMap_cons, List.append_assoc]

/-- In front of a path the first step adds what it looks like there, if that is something. -/
theorem toList_pathFrom_cons {step : σ} (h : (piece step).look true ≠ []) (way : List σ) :
    (pathFrom piece "" (step :: way)).toList = (piece step).look true ++ tailText piece way := by
  have hne : (piece step).onto "" ≠ "" := onto_ne_empty "" (piece step) (.inr h)
  rw [pathFrom, List.foldl_cons, ← pathFrom, toList_pathFrom hne way, Piece.toList_onto]
  rfl

/-- Of two texts with the same continuation one is the other one, continued. -/
theorem runsInto_of_append_eq {first : Bool} {p q : Piece} {cs ds : List Char} (hc : Opens cs)
    (hd : Opens ds) (h : p.look first ++ cs = q.look first ++ ds) :
    p.RunsInto first q ∨ q.RunsInto first p := by
  have hprefix : ∀ {es fs : List Char}, Opens (es ++ fs) → Opens es := by
    intro es fs hopens c hc
    cases es with
    | nil => cases hc
    | cons e rest => exact hopens c hc
  rcases List.append_eq_append_iff.1 h with ⟨es, hq, hcs⟩ | ⟨es, hp, hds⟩
  · exact .inl ⟨es, hprefix (hcs ▸ hc), hq⟩
  · exact .inr ⟨es, hprefix (hds ▸ hd), hp⟩

/-- **Behind a path** two ways add the same text only where they part at pieces of which one runs
into the other. -/
theorem parts_of_tailText_eq : ∀ {p q : List σ}, tailText piece p = tailText piece q → p ≠ q →
    ∃ common a b, PartAt p q common a b ∧
      ((piece a).RunsInto false (piece b) ∨ (piece b).RunsInto false (piece a))
  | [], [], _, hne => absurd rfl hne
  | [], b :: q, h, _ => absurd (List.append_eq_nil_iff.1 h.symm).1 (look_ne_nil (piece b))
  | a :: p, [], h, _ => absurd (List.append_eq_nil_iff.1 h).1 (look_ne_nil (piece a))
  | a :: p, b :: q, h, hne => by
    simp only [tailText, List.flatMap_cons] at h
    -- equal steps add equal texts and can be dropped; at the first two that differ the ways part
    by_cases hab : a = b
    · subst hab
      have hrest : tailText piece p = tailText piece q := List.append_cancel_left h
      obtain ⟨common, c, d, hpart, hruns⟩ :=
        parts_of_tailText_eq hrest fun hpq => hne (by rw [hpq])
      exact ⟨a :: common, c, d, hpart.cons a, hruns⟩
    · exact ⟨[], a, b, ⟨hab, p, q, rfl, rfl⟩,
        runsInto_of_append_eq (opens_tailText p) (opens_tailText q) h⟩

/-- A way whose first step, if there is any, can be seen in the path. -/
def Seen (piece : σ → Piece) (way : List σ) : Prop :=
  ∀ step ∈ way.head?, (piece step).look true ≠ []

/-- **The empty path is that of the root**, where the first step can be seen. -/
theorem eq_nil_of_pathFrom_eq {way : List σ} (hseen : Seen piece way)
    (h : pathFrom piece "" way = "") : way = [] := by
  cases way with
  | nil => rfl
  | cons step rest =>
    have hlist := toList_pathFrom_cons (hseen step rfl) rest
    rw [h] at hlist
    exact absurd (List.append_eq_nil_iff.1 hlist.symm).1 (hseen step rfl)

/-- **Two ways have the same path only where they part** at pieces of which one runs into the
other. -/
theorem parts_of_pathFrom_eq {p q : List σ} (hp : Seen piece p) (hq : Seen piece q)
    (h : pathFrom piece "" p = pathFrom piece "" q) (hne : p ≠ q) :
    ∃ common a b, PartAt p q common a b ∧
      ((piece a).RunsInto common.isEmpty (piece b) ∨
        (piece b).RunsInto common.isEmpty (piece a)) := by
  cases p with
  | nil => exact absurd (eq_nil_of_pathFrom_eq hq h.symm).symm hne
  | cons a p =>
    cases q with
    | nil => exact absurd (eq_nil_of_pathFrom_eq hp h) hne
    | cons b q =>
      have hlist := congrArg String.toList h
      rw [toList_pathFrom_cons (hp a rfl), toList_pathFrom_cons (hq b rfl)] at hlist
      -- the first steps alone stand in front of a path, all others behind one
      by_cases hab : a = b
      · subst hab
        obtain ⟨common, c, d, hpart, hruns⟩ :=
          parts_of_tailText_eq (List.append_cancel_left hlist) fun hpq => hne (by rw [hpq])
        exact ⟨a :: common, c, d, hpart.cons a, hruns⟩
      · exact ⟨[], a, b, ⟨hab, p, q, rfl, rfl⟩,
          runsInto_of_append_eq (opens_tailText p) (opens_tailText q) hlist⟩

end Paths

/-! ## Pieces that run into each other -/

namespace Piece

variable {first : Bool} {s t : String}

/-- **Names run into each other** as texts do. -/
theorem runsInto_name_iff : (name s).RunsInto first (name t) ↔ Continues s t := by
  have hlook : ∀ cs, (name t).look first = (name s).look first ++ cs ↔
      t.toList = s.toList ++ cs := by
    intro cs
    cases first <;> simp [look]
  simp only [RunsInto, Continues, hlook]

/-- Two texts in brackets do not run into each other: the bracket that ends them stands once. -/
theorem not_runsInto_index (ht : ']' ∉ t.toList) (hne : s ≠ t) :
    ¬ (index s).RunsInto first (index t) := by
  rintro ⟨cs, -, h⟩
  have hinside : t.toList ++ [']'] = s.toList ++ ']' :: cs := by simpa [look] using h
  refine hne (String.toList_inj.1 ?_)
  -- the texts have the same length, or else the longer one has the bracket inside
  rcases List.append_eq_append_iff.1 hinside with ⟨es, hs, hes⟩ | ⟨es, hs, hes⟩
  · cases es with
    | nil => simpa using hs
    | cons e rest => simp at hes
  · cases es with
    | nil => simpa using hs.symm
    | cons e rest =>
      cases hes
      exact absurd (hs ▸ List.mem_append_right _ List.mem_cons_self) ht

/-- Behind a path a name and a bracket do not run into each other. -/
theorem not_runsInto_name_index : ¬ (name s).RunsInto false (index t) := by
  rintro ⟨cs, -, h⟩
  simp [look] at h

theorem not_runsInto_index_name : ¬ (index s).RunsInto false (name t) := by
  rintro ⟨cs, -, h⟩
  simp [look] at h

end Piece

end SchemaRules
