import Mathlib.Data.List.Infix
import Mathlib.Order.Bounds.Basic
import SchemaRules.Text.Search

/-!
# Where a text occurs

A text occurs at a place of another one if it is the part that begins there.

* `Text.after?_eq_some_iff`, `Text.beginsWith_iff`: what stands in front of a text.
* `Text.isLeast_iff_find?`, `Text.isGreatest_iff_findLast?`: **the place that is found is the least
  of all places, or the greatest one**.
* `Text.find?_eq_none_iff`, `Text.findLast?_eq_none_iff`: **none is found only if there is none**.
-/

namespace SchemaRules.Text

variable {sub s : List Char} {i : Nat}

theorem after?_eq_some_iff {p s r : List Char} : after? p s = some r ↔ s = p ++ r := by
  induction p generalizing s with
  | nil => rw [after?, Option.some.injEq, List.nil_append]
  | cons a p ih =>
    cases s with
    | nil => simp [after?]
    | cons c cs =>
      rw [after?, List.cons_append, List.cons.injEq]
      by_cases hac : a = c
      · rw [if_pos hac, ih, and_iff_right hac.symm]
      · rw [if_neg hac]
        simp [Ne.symm hac]

theorem beginsWith_iff {p s : List Char} : beginsWith p s = true ↔ p <+: s := by
  rw [beginsWith, Option.isSome_iff_exists]
  simp only [after?_eq_some_iff]
  exact exists_congr fun r => eq_comm

/-! ## Places -/

/-- **A text occurs at a place** of another one, in which it ends. -/
def OccursAt (sub s : List Char) (i : Nat) : Prop :=
  i + sub.length ≤ s.length ∧ (s.drop i).take sub.length = sub

theorem occursAt_iff : OccursAt sub s i ↔ i ≤ s.length ∧ sub <+: s.drop i := by
  constructor
  · rintro ⟨hle, htake⟩
    exact ⟨by omega, htake ▸ List.take_prefix _ _⟩
  · rintro ⟨hle, hprefix⟩
    have hlength := hprefix.length_le
    rw [List.length_drop] at hlength
    exact ⟨by omega, (List.prefix_iff_eq_take.1 hprefix).symm⟩

theorem occursAt_zero_iff : OccursAt sub s 0 ↔ beginsWith sub s = true := by
  rw [occursAt_iff, beginsWith_iff, List.drop_zero, and_iff_right (Nat.zero_le _)]

theorem occursAt_succ_iff (c : Char) : OccursAt sub (c :: s) (i + 1) ↔ OccursAt sub s i := by
  rw [occursAt_iff, occursAt_iff, List.length_cons, List.drop_succ_cons, Nat.add_le_add_iff_right]

/-- In the empty text there is one place. -/
theorem OccursAt.eq_zero (h : OccursAt sub [] i) : i = 0 := by
  have hle := h.1
  rw [List.length_nil] at hle
  omega

theorem not_occursAt_nil (h : ¬ beginsWith sub [] = true) : ¬ OccursAt sub [] i := by
  intro hi
  obtain rfl := hi.eq_zero
  exact h (occursAt_zero_iff.1 hi)

theorem forall_not_occursAt_cons_iff (c : Char) :
    (∀ i, ¬ OccursAt sub (c :: s) i) ↔
      ¬ beginsWith sub (c :: s) = true ∧ ∀ i, ¬ OccursAt sub s i := by
  rw [← occursAt_zero_iff]
  constructor
  · intro h
    exact ⟨h 0, fun i hi => h (i + 1) ((occursAt_succ_iff c).2 hi)⟩
  · rintro ⟨hzero, hrest⟩ i hi
    cases i with
    | zero => exact hzero hi
    | succ i => exact hrest i ((occursAt_succ_iff c).1 hi)

/-- **A text occurs somewhere** exactly if it is a part of the other one. -/
theorem isInfix_iff : sub <:+: s ↔ ∃ i, OccursAt sub s i := by
  constructor
  · rintro ⟨x, y, rfl⟩
    refine ⟨x.length, occursAt_iff.2 ⟨by simp, ?_⟩⟩
    rw [List.append_assoc, List.drop_left]
    exact List.prefix_append _ _
  · rintro ⟨i, hi⟩
    exact (occursAt_iff.1 hi).2.isInfix.trans (List.drop_suffix i s).isInfix

/-- What occurs in the front of a text occurs in the text, and ends in the front. -/
theorem OccursAt.of_take {n : Nat} (h : OccursAt sub (s.take n) i) :
    OccursAt sub s i ∧ i + sub.length ≤ n := by
  have hle := h.1
  rw [List.length_take] at hle
  have hprefix := (occursAt_iff.1 h).2
  rw [List.drop_take] at hprefix
  exact ⟨occursAt_iff.2 ⟨by omega, hprefix.trans (List.take_prefix _ _)⟩, by omega⟩

/-! ## The first place -/

theorem isLeast_zero (h : beginsWith sub s = true) : IsLeast {j | OccursAt sub s j} 0 :=
  ⟨occursAt_zero_iff.2 h, fun _ _ => Nat.zero_le _⟩

/-- Where a text does not begin with the other one, all places are behind the first character. -/
theorem isLeast_cons_iff {c : Char} (h : ¬ beginsWith sub (c :: s) = true) :
    IsLeast {j | OccursAt sub (c :: s) j} i ↔
      ∃ k, IsLeast {j | OccursAt sub s j} k ∧ k + 1 = i := by
  constructor
  · rintro ⟨hi, hle⟩
    cases i with
    | zero => exact absurd (occursAt_zero_iff.1 hi) h
    | succ k =>
      refine ⟨k, ⟨(occursAt_succ_iff c).1 hi, fun j hj => ?_⟩, rfl⟩
      exact Nat.le_of_succ_le_succ (hle ((occursAt_succ_iff c).2 hj))
  · rintro ⟨k, ⟨hk, hle⟩, rfl⟩
    refine ⟨(occursAt_succ_iff c).2 hk, fun j hj => ?_⟩
    cases j with
    | zero => exact absurd (occursAt_zero_iff.1 hj) h
    | succ j => exact Nat.succ_le_succ (hle ((occursAt_succ_iff c).1 hj))

theorem isLeast_iff_of_beginsWith (h : beginsWith sub s = true) :
    IsLeast {j | OccursAt sub s j} i ↔ find? sub s = some i := by
  have hfound : find? sub s = some 0 := by cases s <;> rw [find?, if_pos h]
  rw [hfound, Option.some.injEq]
  exact ⟨(isLeast_zero h).unique, fun hi => hi ▸ isLeast_zero h⟩

/-- **The first place is the least one.** -/
theorem isLeast_iff_find? : IsLeast {j | OccursAt sub s j} i ↔ find? sub s = some i := by
  induction s generalizing i with
  | nil =>
    by_cases hbegins : beginsWith sub [] = true
    · exact isLeast_iff_of_beginsWith hbegins
    · rw [find?, if_neg hbegins]
      exact ⟨fun h => absurd h.1 (not_occursAt_nil hbegins), nofun⟩
  | cons c cs ih =>
    by_cases hbegins : beginsWith sub (c :: cs) = true
    · exact isLeast_iff_of_beginsWith hbegins
    · rw [find?, if_neg hbegins, Option.map_eq_some_iff, isLeast_cons_iff hbegins]
      exact exists_congr fun k => and_congr_left fun _ => ih

/-- **A place is found unless the text does not occur.** -/
theorem find?_eq_none_iff : find? sub s = none ↔ ∀ i, ¬ OccursAt sub s i := by
  induction s with
  | nil =>
    by_cases hbegins : beginsWith sub [] = true
    · simpa [find?, hbegins] using ⟨0, occursAt_zero_iff.2 hbegins⟩
    · simpa [find?, hbegins] using fun i => not_occursAt_nil hbegins
  | cons c cs ih =>
    rw [find?, forall_not_occursAt_cons_iff, ← ih]
    split <;> simp [*]

/-! ## The last place -/

/-- **A place is found unless the text does not occur.** -/
theorem findLast?_eq_none_iff : findLast? sub s = none ↔ ∀ i, ¬ OccursAt sub s i := by
  induction s with
  | nil =>
    by_cases hbegins : beginsWith sub [] = true
    · simpa [findLast?, hbegins] using ⟨0, occursAt_zero_iff.2 hbegins⟩
    · simpa [findLast?, hbegins] using fun i => not_occursAt_nil hbegins
  | cons c cs ih =>
    rw [forall_not_occursAt_cons_iff, ← ih, findLast?]
    cases findLast? sub cs with
    | some k => simp
    | none => simp

/-- Where a text occurs in the rest, the last place there is the last one. -/
theorem isGreatest_succ (c : Char) (h : IsGreatest {j | OccursAt sub s j} i) :
    IsGreatest {j | OccursAt sub (c :: s) j} (i + 1) := by
  refine ⟨(occursAt_succ_iff c).2 h.1, fun j hj => ?_⟩
  cases j with
  | zero => exact Nat.zero_le _
  | succ j => exact Nat.succ_le_succ (h.2 ((occursAt_succ_iff c).1 hj))

/-- Where it does not, it may still stand in front. -/
theorem isGreatest_zero {c : Char} (h : ∀ i, ¬ OccursAt sub s i)
    (hbegins : beginsWith sub (c :: s) = true) :
    IsGreatest {j | OccursAt sub (c :: s) j} 0 := by
  refine ⟨occursAt_zero_iff.2 hbegins, fun j hj => ?_⟩
  cases j with
  | zero => exact Nat.le_refl 0
  | succ j => exact absurd ((occursAt_succ_iff c).1 hj) (h j)

theorem isGreatest_iff_some {k : Nat} (hk : IsGreatest {j | OccursAt sub s j} k) :
    IsGreatest {j | OccursAt sub s j} i ↔ some k = some i := by
  rw [Option.some.injEq]
  exact ⟨hk.unique, fun h => h ▸ hk⟩

/-- **The last place is the greatest one.** -/
theorem isGreatest_iff_findLast? :
    IsGreatest {j | OccursAt sub s j} i ↔ findLast? sub s = some i := by
  induction s generalizing i with
  | nil =>
    rw [findLast?]
    by_cases hbegins : beginsWith sub [] = true
    · rw [if_pos hbegins]
      exact isGreatest_iff_some ⟨occursAt_zero_iff.2 hbegins, fun j hj => (OccursAt.eq_zero hj).le⟩
    · rw [if_neg hbegins]
      exact ⟨fun h => absurd h.1 (not_occursAt_nil hbegins), nofun⟩
  | cons c cs ih =>
    rw [findLast?]
    cases hlast : findLast? sub cs with
    | some k => exact isGreatest_iff_some (isGreatest_succ c (ih.2 hlast))
    | none =>
      have hno := findLast?_eq_none_iff.1 hlast
      by_cases hbegins : beginsWith sub (c :: cs) = true
      · simp only [if_pos hbegins]
        exact isGreatest_iff_some (isGreatest_zero hno hbegins)
      · simp only [if_neg hbegins]
        refine ⟨fun h => ?_, nofun⟩
        exact absurd h.1 ((forall_not_occursAt_cons_iff c).2 ⟨hbegins, hno⟩ i)

end SchemaRules.Text
