import Mathlib
import SchemaRules.Decimal.Shortest

/-!
# Shortest decimals tell doubles apart

A finite double is `m · 2 ^ q`, and the numbers that round to it lie around it. Those around two
doubles of different sizes have no number in common, so a decimal in either belongs to one of them.

* `Parts.Legal`: what the bits of a double encode; `legal_partsOf`.
* `Parts.Rounds`: **the numbers that round to a size**; `eq_of_rounds`: to no two sizes.
* `Scientific.rounds_ofFloat`: **the shortest decimal of a double rounds to its size**. The search
  for it ends: the grid of seventeen digits is finer than the gaps between doubles.
* `eq_of_value_ofFloat`: **doubles of one sign with the same decimal are the same**.
-/

namespace SchemaRules.Decimal

/-! ## Numbers -/

/-- The number that a decimal writes. -/
def Scientific.value (d : Scientific) : ℚ :=
  d.coefficient * 10 ^ d.exponent

/-- A power is a quotient of powers with exponents that are natural numbers. -/
theorem zpow_eq_div {b : ℚ} (hb : b ≠ 0) (z : ℤ) : b ^ z = b ^ z.toNat / b ^ (-z).toNat := by
  have hz : z = (z.toNat : ℤ) - ((-z).toNat : ℤ) := by omega
  conv_lhs => rw [hz]
  rw [zpow_sub₀ hb, zpow_natCast, zpow_natCast]

namespace Parts

/-- The size of a double. -/
def size (p : Parts) : ℚ :=
  p.mantissa * 2 ^ p.exponent

/-- The end of the numbers that round to a size, below it. -/
def lower (p : Parts) : ℚ :=
  (p.mantissa - (if p.narrow then 1 else 2) / 4) * 2 ^ p.exponent

/-- The end of the numbers that round to a size, above it. -/
def upper (p : Parts) : ℚ :=
  (p.mantissa + 1 / 2) * 2 ^ p.exponent

/-- **The numbers that round to a size**, with the ends if the mantissa is even. -/
def Rounds (p : Parts) (r : ℚ) : Prop :=
  if p.mantissa % 2 = 0 then p.lower ≤ r ∧ r ≤ p.upper else p.lower < r ∧ r < p.upper

/-- **What the bits of a double encode.** -/
structure Legal (p : Parts) : Prop where
  mantissa_lt : p.mantissa < 2 ^ 53
  le_exponent : -1074 ≤ p.exponent
  exponent_le : p.exponent ≤ 972
  normal : -1074 < p.exponent → 2 ^ 52 ≤ p.mantissa
  narrow_iff : p.narrow = true ↔ p.mantissa = 2 ^ 52 ∧ -1074 < p.exponent

theorem legal_partsOf (x : Float) : (partsOf x).Legal := by
  have hbits : x.toBits.toNat < 2 ^ 64 := x.toBits.toNat_lt
  unfold partsOf
  simp only [Nat.pow_eq]
  split
  · exact ⟨by simp only; omega, by simp, by simp, by simp, by simp⟩
  · refine ⟨by simp only; omega, by simp only; omega, by simp only; omega, by simp only; omega, ?_⟩
    simp only [Bool.and_eq_true, decide_eq_true_eq]
    omega

/-- The bits of a double, put together from its parts. -/
theorem toNat_toBits (x : Float) : x.toBits.toNat =
    (if (partsOf x).negative then 2 ^ 63 else 0) +
      (if (partsOf x).mantissa < 2 ^ 52 then (partsOf x).mantissa
        else ((partsOf x).exponent + 1075).toNat * 2 ^ 52 + ((partsOf x).mantissa - 2 ^ 52)) := by
  have hbits : x.toBits.toNat < 2 ^ 64 := x.toBits.toNat_lt
  unfold partsOf
  simp only [Nat.pow_eq]
  split <;> simp only [beq_iff_eq] <;> split <;> split <;> omega

/-- **Doubles of the same parts are the same.** -/
theorem eq_of_partsOf {x y : Float} (hnegative : (partsOf x).negative = (partsOf y).negative)
    (hmantissa : (partsOf x).mantissa = (partsOf y).mantissa)
    (hexponent : (partsOf x).exponent = (partsOf y).exponent) : x = y := by
  have hbits : x.toBits.toNat = y.toBits.toNat := by
    rw [toNat_toBits, toNat_toBits, hnegative, hmantissa, hexponent]
  obtain ⟨⟨b, hb⟩⟩ := x
  obtain ⟨⟨c, hc⟩⟩ := y
  obtain rfl : b = c := UInt64.toNat_inj.1 hbits
  rfl

/-! ## No number rounds to two sizes -/

variable {p p' : Parts} {r : ℚ}

theorem Rounds.le (h : p.Rounds r) : p.lower ≤ r ∧ r ≤ p.upper := by
  unfold Rounds at h
  split at h
  · exact h
  · exact ⟨h.1.le, h.2.le⟩

theorem Rounds.lt_of_odd (h : p.Rounds r) (hodd : p.mantissa % 2 = 1) :
    p.lower < r ∧ r < p.upper := by
  rwa [Rounds, if_neg (by omega)] at h

/-- **The numbers that round to a size lie below those that round to another one.** If they meet,
one of the two does not have its end. -/
def Below (p p' : Parts) : Prop :=
  p.upper ≤ p'.lower ∧ (p.upper = p'.lower → p.mantissa % 2 = 1 ∨ p'.mantissa % 2 = 1)

theorem Below.not_rounds (hbelow : p.Below p') (h : p.Rounds r) : ¬ p'.Rounds r := by
  intro h'
  have hmeet : p.upper = p'.lower := le_antisymm hbelow.1 (h'.le.1.trans h.le.2)
  rcases hbelow.2 hmeet with hm | hm
  · exact absurd (h.lt_of_odd hm).2 (not_lt.2 (hbelow.1.trans h'.le.1))
  · exact absurd (h'.lt_of_odd hm).1 (not_lt.2 (h.le.2.trans hbelow.1))

/-- Numbers with a mantissa of the full length are not far below it. -/
theorem le_lower (hp : p.Legal) (h : -1074 < p.exponent) :
    ((2 : ℚ) ^ 52 - 1 / 4) * 2 ^ p.exponent ≤ p.lower := by
  have hm : 2 ^ 52 ≤ p.mantissa := hp.normal h
  refine mul_le_mul_of_nonneg_right ?_ (by positivity)
  cases hnarrow : p.narrow with
  | true =>
    have hm : (2 : ℚ) ^ 52 ≤ p.mantissa := by exact_mod_cast hm
    rw [if_pos rfl]
    linarith
  | false =>
    have hne : p.mantissa ≠ 2 ^ 52 := fun heq => by
      rw [hp.narrow_iff.2 ⟨heq, h⟩] at hnarrow
      cases hnarrow
    have hnext : 2 ^ 52 + 1 ≤ p.mantissa := by omega
    have hm : (2 : ℚ) ^ 52 + 1 ≤ p.mantissa := by exact_mod_cast hnext
    rw [if_neg Bool.false_ne_true]
    linarith

/-- Numbers meet above the greatest mantissa only, which is odd. -/
theorem below_of_exponent_lt (hp : p.Legal) (hp' : p'.Legal) (h : p.exponent < p'.exponent) :
    p.Below p' := by
  have hpos : (0 : ℚ) < 2 ^ p.exponent := by positivity
  have hm : (p.mantissa : ℚ) + 1 ≤ 2 ^ 53 := by exact_mod_cast hp.mantissa_lt
  have hdouble : 2 * (2 : ℚ) ^ p.exponent ≤ 2 ^ p'.exponent := by
    rw [← zpow_one_add₀ (by norm_num)]
    exact zpow_le_zpow_right₀ (by norm_num) (by omega)
  have hlower := le_lower hp' (lt_of_le_of_lt hp.le_exponent h)
  -- between the two lies the end above the greatest mantissa
  have hfar : ((2 : ℚ) ^ 53 - 1 / 2) * 2 ^ p.exponent ≤ p'.lower := by linarith
  have hnear : p.upper ≤ ((2 : ℚ) ^ 53 - 1 / 2) * 2 ^ p.exponent :=
    mul_le_mul_of_nonneg_right (by linarith) hpos.le
  refine ⟨hnear.trans hfar, fun heq => ?_⟩
  have hgreatest := mul_right_cancel₀ hpos.ne' (le_antisymm hnear (hfar.trans heq.ge))
  have hm : p.mantissa + 1 = 2 ^ 53 := by
    exact_mod_cast (by linarith : (p.mantissa : ℚ) + 1 = 2 ^ 53)
  omega

/-- Numbers meet between neighbours only, of which one has an odd mantissa. -/
theorem below_of_mantissa_lt (hp : p.Legal) (hp' : p'.Legal) (he : p.exponent = p'.exponent)
    (h : p.mantissa < p'.mantissa) : p.Below p' := by
  have hpos : (0 : ℚ) < 2 ^ p'.exponent := by positivity
  have hwide : p'.narrow = false := Bool.eq_false_iff.2 fun hnarrow => by
    obtain ⟨hm', hnormal⟩ := hp'.narrow_iff.1 hnarrow
    have := hp.normal (he ▸ hnormal)
    omega
  have hm : (p.mantissa : ℚ) + 1 ≤ p'.mantissa := by exact_mod_cast h
  simp only [Below, upper, lower, hwide, he, Bool.false_eq_true, if_false]
  refine ⟨mul_le_mul_of_nonneg_right (by linarith) hpos.le, fun heq => ?_⟩
  have hnext := mul_right_cancel₀ hpos.ne' heq
  have hm : p.mantissa + 1 = p'.mantissa := by
    exact_mod_cast (by linarith : (p.mantissa : ℚ) + 1 = p'.mantissa)
  omega

theorem below_or_eq_or_below (hp : p.Legal) (hp' : p'.Legal) :
    p.Below p' ∨ (p.mantissa = p'.mantissa ∧ p.exponent = p'.exponent) ∨ p'.Below p := by
  rcases lt_trichotomy p.exponent p'.exponent with he | he | he
  · exact .inl (below_of_exponent_lt hp hp' he)
  · rcases lt_trichotomy p.mantissa p'.mantissa with hm | hm | hm
    · exact .inl (below_of_mantissa_lt hp hp' he hm)
    · exact .inr (.inl ⟨hm, he⟩)
    · exact .inr (.inr (below_of_mantissa_lt hp' hp he.symm hm))
  · exact .inr (.inr (below_of_exponent_lt hp' hp he))

/-- **No number rounds to two sizes.** -/
theorem eq_of_rounds (hp : p.Legal) (hp' : p'.Legal) (h : p.Rounds r) (h' : p'.Rounds r) :
    p.mantissa = p'.mantissa ∧ p.exponent = p'.exponent := by
  rcases below_or_eq_or_below hp hp' with hbelow | heq | hbelow
  · exact absurd h' (hbelow.not_rounds h)
  · exact heq
  · exact absurd h (hbelow.not_rounds h')

end Parts

/-! ## The interval in whole numbers -/

section Search

variable {p : Parts}

theorem unit_intervalOf_pos (p : Parts) : 0 < (intervalOf p).unit := by
  have := Nat.pow_pos (n := (-p.exponent).toNat) (show 0 < 2 by decide)
  simp only [intervalOf, Nat.pow_eq]
  omega

/-- A scale is a power of two with the unit below it. -/
theorem scale_intervalOf (p : Parts) :
    ((2 ^ p.exponent.toNat : ℕ) : ℚ) * 4 = 2 ^ p.exponent * (intervalOf p).unit := by
  simp only [intervalOf, Nat.pow_eq]
  rw [zpow_eq_div two_ne_zero]
  push_cast
  field_simp

theorem value_intervalOf (p : Parts) :
    ((intervalOf p).value : ℚ) = p.size * (intervalOf p).unit := by
  rw [Parts.size, mul_assoc, ← scale_intervalOf]
  simp only [intervalOf, Nat.pow_eq]
  push_cast
  ring

theorem high_intervalOf (p : Parts) :
    ((intervalOf p).high : ℚ) = p.upper * (intervalOf p).unit := by
  rw [Parts.upper, mul_assoc, ← scale_intervalOf]
  simp only [intervalOf, Nat.pow_eq]
  push_cast
  ring

theorem low_intervalOf (h : p.mantissa ≠ 0) :
    ((intervalOf p).low : ℚ) = p.lower * (intervalOf p).unit := by
  rw [Parts.lower, mul_assoc, ← scale_intervalOf]
  simp only [intervalOf, Nat.pow_eq]
  -- the end below zero would be cut off
  have hle : (if p.narrow then 1 else 2) ≤ 4 * p.mantissa := by split <;> omega
  push_cast [Nat.cast_sub hle]
  ring

/-! ## Grids -/

/-- A point of a grid and the numbers of an interval, with both multiplied by the same. -/
theorem point_eq (u : ℕ) (g : ℕ) (t : ℤ) :
    ((g * (u * 10 ^ t.toNat) : ℕ) : ℚ) = g * 10 ^ t * (u * 10 ^ (-t).toNat : ℕ) := by
  rw [zpow_eq_div (by norm_num) t]
  push_cast
  field_simp

theorem cast_mul_wide {n u : ℕ} {r : ℚ} (h : (n : ℚ) = r * u) (t : ℤ) :
    ((n * 10 ^ (-t).toNat : ℕ) : ℚ) = r * (u * 10 ^ (-t).toNat : ℕ) := by
  push_cast
  rw [h]
  ring

theorem scaled_unit_pos (p : Parts) (t : ℤ) :
    (0 : ℚ) < ((intervalOf p).unit * 10 ^ (-t).toNat : ℕ) := by
  exact_mod_cast Nat.mul_pos (unit_intervalOf_pos p) (by positivity)

/-- What is tested of a point of a grid. -/
def inside (i : Interval) (t : ℤ) (g : ℕ) : Bool :=
  let step := i.unit * Nat.pow 10 t.toNat
  let wide := Nat.pow 10 (-t).toNat
  if i.closed then decide (i.low * wide ≤ g * step) && decide (g * step ≤ i.high * wide)
  else decide (i.low * wide < g * step) && decide (g * step < i.high * wide)

/-- The point of a grid below a size, or the size itself. -/
def pointBelow (i : Interval) (t : ℤ) : ℕ :=
  i.value * Nat.pow 10 (-t).toNat / (i.unit * Nat.pow 10 t.toNat)

/-- **A point is found on a grid** if the one below the size or the next one passes the test; if
both do, the choice is free here. -/
theorem onGrid?_eq (i : Interval) (t : ℤ) : ∃ nearer : Bool, onGrid? i t =
    match inside i t (pointBelow i t), inside i t (pointBelow i t + 1) with
    | true, true => if nearer then some (pointBelow i t) else some (pointBelow i t + 1)
    | true, false => some (pointBelow i t)
    | false, true => some (pointBelow i t + 1)
    | false, false => none :=
  ⟨_, rfl⟩

theorem inside_iff (hm : p.mantissa ≠ 0) (t : ℤ) (g : ℕ) :
    inside (intervalOf p) t g = true ↔ p.Rounds (g * 10 ^ t) := by
  have hpos := scaled_unit_pos p t
  have hpoint := point_eq (intervalOf p).unit g t
  have hlow := cast_mul_wide (low_intervalOf hm) t
  have hhigh := cast_mul_wide (high_intervalOf p) t
  have hclosed : (intervalOf p).closed = true ↔ p.mantissa % 2 = 0 := decide_eq_true_iff
  unfold Parts.Rounds inside
  simp only [Nat.pow_eq, hclosed]
  split <;> simp only [Bool.and_eq_true, decide_eq_true_eq]
  · rw [← Nat.cast_le (α := ℚ), ← Nat.cast_le (α := ℚ), hpoint, hlow, hhigh,
      mul_le_mul_iff_left₀ hpos, mul_le_mul_iff_left₀ hpos]
  · rw [← Nat.cast_lt (α := ℚ), ← Nat.cast_lt (α := ℚ), hpoint, hlow, hhigh,
      mul_lt_mul_iff_left₀ hpos, mul_lt_mul_iff_left₀ hpos]

/-- The two points of a grid around a size. -/
theorem size_between (p : Parts) (t : ℤ) :
    pointBelow (intervalOf p) t * 10 ^ t ≤ p.size ∧
      p.size < (pointBelow (intervalOf p) t + 1 : ℕ) * 10 ^ t := by
  have hpos := scaled_unit_pos p t
  have hstep : 0 < (intervalOf p).unit * 10 ^ t.toNat :=
    Nat.mul_pos (unit_intervalOf_pos p) (by positivity)
  have hvalue := cast_mul_wide (value_intervalOf p) t
  constructor
  · rw [← mul_le_mul_iff_left₀ hpos, ← point_eq, ← hvalue]
    exact_mod_cast Nat.div_mul_le_self _ _
  · rw [← mul_lt_mul_iff_left₀ hpos, ← point_eq, ← hvalue]
    exact_mod_cast Nat.lt_mul_of_div_lt (Nat.lt_succ_self (pointBelow (intervalOf p) t)) hstep

/-- A number near enough to a size rounds to it. -/
theorem rounds_of_lt {r : ℚ} (hlow : p.lower < r) (hhigh : r < p.upper) : p.Rounds r := by
  unfold Parts.Rounds
  split
  · exact ⟨hlow.le, hhigh.le⟩
  · exact ⟨hlow, hhigh⟩

theorem lower_lt_size (p : Parts) : p.lower < p.size := by
  refine mul_lt_mul_of_pos_right ?_ (by positivity)
  split <;> linarith

theorem size_lt_upper (p : Parts) : p.size < p.upper :=
  mul_lt_mul_of_pos_right (by linarith) (by positivity)

/-- **A grid that is finer than the gap between doubles has a point that rounds to the size.** -/
theorem rounds_of_fine {t : ℤ} (hwide : (10 : ℚ) ^ t < 2 ^ p.exponent)
    (hnarrow : p.narrow = true → (10 : ℚ) ^ t < 2 ^ p.exponent / 2) :
    p.Rounds (pointBelow (intervalOf p) t * 10 ^ t) ∨
      p.Rounds ((pointBelow (intervalOf p) t + 1 : ℕ) * 10 ^ t) := by
  obtain ⟨hbelow, habove⟩ := size_between p t
  have hstep : ((pointBelow (intervalOf p) t + 1 : ℕ) : ℚ) * 10 ^ t =
      pointBelow (intervalOf p) t * 10 ^ t + 10 ^ t := by push_cast; ring
  have hupper : p.upper = p.size + 2 ^ p.exponent / 2 := by rw [Parts.upper, Parts.size]; ring
  cases h : p.narrow with
  | true =>
    refine .inr (rounds_of_lt ((lower_lt_size p).trans habove) ?_)
    linarith [hnarrow h]
  | false =>
    have hlower : p.lower = p.size - 2 ^ p.exponent / 2 := by
      rw [Parts.lower, Parts.size, h, if_neg Bool.false_ne_true]; ring
    -- the two points are nearer to each other than the ends of the interval
    by_cases hnear : p.size - 2 ^ p.exponent / 2 < pointBelow (intervalOf p) t * 10 ^ t
    · exact .inl (rounds_of_lt (hlower ▸ hnear) (hbelow.trans_lt (size_lt_upper p)))
    · refine .inr (rounds_of_lt ((lower_lt_size p).trans habove) ?_)
      linarith

/-- **What is found on a grid rounds to the size.** -/
theorem rounds_of_onGrid? (hm : p.mantissa ≠ 0) {t : ℤ} {g : ℕ}
    (h : onGrid? (intervalOf p) t = some g) : p.Rounds (g * 10 ^ t) := by
  obtain ⟨nearer, heq⟩ := onGrid?_eq (intervalOf p) t
  rw [heq] at h
  rw [← inside_iff hm]
  split at h
  · split at h <;> cases h <;> assumption
  · cases h; assumption
  · cases h; assumption
  · cases h

/-- **Something is found on a grid that is fine enough.** -/
theorem isSome_onGrid? (hm : p.mantissa ≠ 0) {t : ℤ} (hwide : (10 : ℚ) ^ t < 2 ^ p.exponent)
    (hnarrow : p.narrow = true → (10 : ℚ) ^ t < 2 ^ p.exponent / 2) :
    (onGrid? (intervalOf p) t).isSome = true := by
  obtain ⟨nearer, heq⟩ := onGrid?_eq (intervalOf p) t
  have hfound := rounds_of_fine hwide hnarrow
  rw [← inside_iff hm, ← inside_iff hm] at hfound
  rw [heq]
  split
  · split <;> rfl
  · rfl
  · rfl
  · next hbelow habove => rw [hbelow, habove] at hfound; simp at hfound

/-! ## The leading exponent -/

/-- The decimal exponent of a power of two, guessed. -/
def guess (e : ℤ) : ℤ :=
  Int.fdiv (e * 30103) 100000

theorem ten_pow_le_two_pow : ∀ n ≤ 1024, 10 ^ (n * 30103 / 100000) ≤ 10 * 2 ^ n := by
  decide +kernel

theorem two_pow_le_ten_pow : ∀ n ≤ 1074, 2 ^ n ≤ 10 ^ ((n * 30103 + 99999) / 100000) := by
  decide +kernel

/-- **The guess is too great by one at most**, of all powers of two that doubles are as great as. -/
theorem pow_guess_le {e : ℤ} (hlow : -1074 ≤ e) (hhigh : e ≤ 1024) :
    (10 : ℚ) ^ (guess e - 1) ≤ 2 ^ e := by
  rcases Int.eq_nat_or_neg e with ⟨n, rfl | rfl⟩
  -- for a negative power the guess is rounded down, which rounds up what it divides by
  · have h : ((10 : ℚ) ^ (n * 30103 / 100000)) ≤ 10 * 2 ^ n := by
      exact_mod_cast ten_pow_le_two_pow n (by omega)
    have hguess : guess n = (n * 30103 / 100000 : ℕ) := by
      rw [guess, Int.fdiv_eq_ediv_of_nonneg _ (by decide)]
      omega
    rw [hguess, zpow_sub_one₀ (by norm_num), zpow_natCast, zpow_natCast]
    linarith
  · have h : ((2 : ℚ) ^ n) ≤ 10 ^ ((n * 30103 + 99999) / 100000) := by
      exact_mod_cast two_pow_le_ten_pow n (by omega)
    have hguess : guess (-n) - 1 ≤ -((n * 30103 + 99999) / 100000 : ℕ) := by
      rw [guess, Int.fdiv_eq_ediv_of_nonneg _ (by decide)]
      omega
    refine (zpow_le_zpow_right₀ (by norm_num) hguess).trans ?_
    rw [zpow_neg, zpow_neg, zpow_natCast, zpow_natCast]
    exact inv_anti₀ (by positivity) h

/-- What is tested of a decimal exponent. -/
theorem reaches_iff (p : Parts) (k : ℤ) :
    (intervalOf p).unit * Nat.pow 10 k.toNat ≤ (intervalOf p).value * Nat.pow 10 (-k).toNat ↔
      (10 : ℚ) ^ k ≤ p.size := by
  have hpoint := point_eq (intervalOf p).unit 1 k
  rw [one_mul, Nat.cast_one, one_mul] at hpoint
  rw [Nat.pow_eq, Nat.pow_eq, ← Nat.cast_le (α := ℚ), hpoint, cast_mul_wide (value_intervalOf p) k]
  exact mul_le_mul_iff_left₀ (scaled_unit_pos p k)

/-- **The decimal exponent of a size is not too great.** -/
theorem pow_leadingExponent_le (hp : p.Legal) (hm : p.mantissa ≠ 0) :
    (10 : ℚ) ^ leadingExponent p (intervalOf p) ≤ p.size := by
  have hlog : Nat.log2 p.mantissa < 53 := (Nat.log2_lt hm).2 hp.mantissa_lt
  have hlow := hp.le_exponent
  have hhigh := hp.exponent_le
  unfold leadingExponent
  simp only [decide_eq_true_eq, reaches_iff]
  split
  · next h => exact h
  · split
    · next h => exact h
    · refine (pow_guess_le (e := Nat.log2 p.mantissa + p.exponent) (by omega) (by omega)).trans ?_
      rw [zpow_add₀ two_ne_zero, Parts.size, zpow_natCast]
      refine mul_le_mul_of_nonneg_right ?_ (by positivity)
      exact_mod_cast Nat.log2_self_le hm

/-! ## The search -/

theorem value_stripZeros (fuel : ℕ) : ∀ d, (stripZeros fuel d).value = d.value := by
  induction fuel with
  | zero => intro d; rfl
  | succ fuel ih =>
    intro d
    rw [stripZeros]
    split
    · next h =>
      have hten : (d.coefficient : ℚ) = (d.coefficient / 10 : ℕ) * 10 := by
        exact_mod_cast (Nat.div_mul_cancel (Nat.dvd_of_mod_eq_zero h.2)).symm
      rw [ih, Scientific.value, Scientific.value, zpow_add_one₀ (by norm_num), hten]
      ring
    · rfl

/-- The first grid with a point gives the decimal. -/
theorem rounds_searchGrids (hm : p.mantissa ≠ 0) (k : ℤ) {ns : List ℕ}
    (h : ∃ n ∈ ns, (onGrid? (intervalOf p) (k + 1 - n)).isSome = true) :
    p.Rounds (searchGrids (intervalOf p) k ns).value := by
  induction ns with
  | nil => obtain ⟨n, hn, -⟩ := h; cases hn
  | cons n rest ih =>
    rw [searchGrids]
    cases hgrid : onGrid? (intervalOf p) (k + 1 - n) with
    | some g =>
      simp only
      rw [value_stripZeros]
      exact rounds_of_onGrid? hm hgrid
    | none =>
      refine ih ?_
      obtain ⟨m, hmem, hm⟩ := h
      rcases List.mem_cons.1 hmem with rfl | hmem
      · rw [hgrid] at hm; cases hm
      · exact ⟨m, hmem, hm⟩

/-- **Seventeen digits are enough**: their grid is finer than the gaps around a size. -/
theorem isSome_onGrid?_seventeen (hp : p.Legal) (hm : p.mantissa ≠ 0) :
    (onGrid? (intervalOf p) (leadingExponent p (intervalOf p) + 1 - (17 : ℕ))).isSome = true := by
  have hlead := pow_leadingExponent_le hp hm
  generalize leadingExponent p (intervalOf p) = k at hlead ⊢
  have hgrid : (10 : ℚ) ^ (k + 1 - (17 : ℕ)) = 10 ^ k / 10 ^ 16 := by
    rw [show k + 1 - (17 : ℕ) = k - (16 : ℕ) by push_cast; ring, zpow_sub₀ (by norm_num),
      zpow_natCast]
  have hstep : (10 : ℚ) ^ (k + 1 - (17 : ℕ)) ≤ p.size / 10 ^ 16 := by
    rw [hgrid]
    exact div_le_div_of_nonneg_right hlead (by norm_num)
  have hpos : (0 : ℚ) < 2 ^ p.exponent := by positivity
  refine isSome_onGrid? hm ?_ fun hnarrow => ?_
  -- a mantissa is below `10 ^ 16`, and where the gap is half as wide it is `2 ^ 52`
  · have hlt : (p.mantissa : ℚ) < 10 ^ 16 := by
      exact_mod_cast hp.mantissa_lt.trans (by decide)
    calc (10 : ℚ) ^ (k + 1 - (17 : ℕ)) ≤ p.size / 10 ^ 16 := hstep
      _ = p.mantissa / 10 ^ 16 * 2 ^ p.exponent := by rw [Parts.size]; ring
      _ < 1 * 2 ^ p.exponent :=
        mul_lt_mul_of_pos_right ((div_lt_one (by norm_num)).2 hlt) hpos
      _ = 2 ^ p.exponent := one_mul _
  · calc (10 : ℚ) ^ (k + 1 - (17 : ℕ)) ≤ p.size / 10 ^ 16 := hstep
      _ = 2 ^ 52 / 10 ^ 16 * 2 ^ p.exponent := by
        rw [Parts.size, (hp.narrow_iff.1 hnarrow).1]; push_cast; ring
      _ < 1 / 2 * 2 ^ p.exponent := mul_lt_mul_of_pos_right (by norm_num) hpos
      _ = 2 ^ p.exponent / 2 := by ring

/-- **The shortest decimal of a double rounds to its size.** -/
theorem Scientific.rounds_ofFloat {x : Float} (hm : (partsOf x).mantissa ≠ 0) :
    (partsOf x).Rounds (ofFloat x).value := by
  rw [ofFloat, if_neg hm]
  exact rounds_searchGrids hm _ ⟨17, by decide, isSome_onGrid?_seventeen (Parts.legal_partsOf x) hm⟩

end Search

/-! ## Doubles and their decimals -/

/-- The decimal of zero alone is zero. -/
theorem Scientific.value_ofFloat_eq_zero_iff (x : Float) :
    (ofFloat x).value = 0 ↔ (partsOf x).mantissa = 0 := by
  constructor
  · intro h
    by_contra hm
    have hone : (1 : ℚ) ≤ (partsOf x).mantissa := by exact_mod_cast Nat.pos_of_ne_zero hm
    have hlower : 0 < (partsOf x).lower := by
      refine mul_pos ?_ (by positivity)
      split <;> linarith
    have hle := (rounds_ofFloat hm).le.1
    linarith
  · intro hm
    rw [ofFloat, if_pos hm]
    exact zero_mul _

/-- **Doubles of one sign with the same decimal are the same.** -/
theorem eq_of_value_ofFloat {x y : Float} (hnegative : (partsOf x).negative = (partsOf y).negative)
    (h : (Scientific.ofFloat x).value = (Scientific.ofFloat y).value) : x = y := by
  have hx := Parts.legal_partsOf x
  have hy := Parts.legal_partsOf y
  have hzero : (partsOf x).mantissa = 0 ↔ (partsOf y).mantissa = 0 := by
    rw [← Scientific.value_ofFloat_eq_zero_iff, ← Scientific.value_ofFloat_eq_zero_iff, h]
  by_cases hm : (partsOf x).mantissa = 0
  · -- a mantissa of zero goes with the least exponent
    have hexponent : ∀ {p : Parts}, p.Legal → p.mantissa = 0 → p.exponent = -1074 :=
      fun {p} hp hm => by
        have := hp.normal
        have := hp.le_exponent
        omega
    exact Parts.eq_of_partsOf hnegative (hm.trans (hzero.1 hm).symm)
      ((hexponent hx hm).trans (hexponent hy (hzero.1 hm)).symm)
  · obtain ⟨hmantissa, hexponent⟩ := Parts.eq_of_rounds hx hy (Scientific.rounds_ofFloat hm)
      (h ▸ Scientific.rounds_ofFloat (mt hzero.2 hm))
    exact Parts.eq_of_partsOf hnegative hmantissa hexponent

end SchemaRules.Decimal
