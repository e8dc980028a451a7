import Mathlib.Algebra.Ring.Nat
import Mathlib.Data.List.Basic
import SchemaRules.Text.Base64

/-!
# The bits of bytes in symbols

Bytes are written with sixty-four symbols: their bits are cut into sixes, and each six is a symbol.

* `Base64.bits`: the bits of a number. `Base64.bits_append`: **bits of neighbours make up the bits
  of both**.
* `Base64.Canonical`: the text that has to be written for bytes, told by bits and not by the writer.
* `Base64.canonical_iff`: **there is one such text, and it is written**, by induction on the groups
  of three bytes.
-/

namespace SchemaRules.Base64

/-! ## Bits -/

/-- **The bits of a number** below a power of two, the highest one in front. -/
def bits : Nat → Nat → List Bool
  | 0, _ => []
  | n + 1, x => x.testBit n :: bits n x

theorem length_bits (n x : Nat) : (bits n x).length = n := by
  induction n with
  | zero => rfl
  | succ n ih => rw [bits, List.length_cons, ih]

theorem bits_zero (n : Nat) : bits n 0 = List.replicate n false := by
  induction n with
  | zero => rfl
  | succ n ih => rw [bits, ih, Nat.zero_testBit, List.replicate_succ]

/-- Bits beyond the lowest ones do not count. -/
theorem bits_mul_add (n x : Nat) {y : Nat} (hy : y < 2 ^ n) :
    bits n (x * 2 ^ n + y) = bits n y := by
  have hlow : ∀ m, m ≤ n → bits m (x * 2 ^ n + y) = bits m y := by
    intro m hm
    induction m with
    | zero => rfl
    | succ m ih =>
      rw [bits, bits, ih (by omega), Nat.mul_comm, Nat.testBit_two_pow_mul_add x hy,
        if_pos (by omega)]
  exact hlow n (Nat.le_refl n)

/-- **Bits of neighbours make up the bits of both.** -/
theorem bits_append (m n x : Nat) {y : Nat} (hy : y < 2 ^ n) :
    bits (m + n) (x * 2 ^ n + y) = bits m x ++ bits n y := by
  induction m with
  | zero => rw [Nat.zero_add, bits_mul_add n x hy]; rfl
  | succ m ih =>
    have hbit : (x * 2 ^ n + y).testBit (m + n) = x.testBit m := by
      rw [Nat.mul_comm, Nat.testBit_two_pow_mul_add x hy, if_neg (by omega), Nat.add_sub_cancel]
    rw [Nat.add_right_comm, bits, ih, hbit, bits, List.cons_append]

theorem bits_split (m n x : Nat) : bits (m + n) x = bits m (x / 2 ^ n) ++ bits n (x % 2 ^ n) := by
  have hlow : x % 2 ^ n < 2 ^ n := Nat.mod_lt x (Nat.two_pow_pos n)
  rw [← bits_append m n _ hlow, Nat.div_add_mod']

/-- **A number is known by its bits.** -/
theorem eq_of_bits_eq {n x y : Nat} (hx : x < 2 ^ n) (hy : y < 2 ^ n) (h : bits n x = bits n y) :
    x = y := by
  have hlow : ∀ m, bits m x = bits m y → ∀ i, i < m → x.testBit i = y.testBit i := by
    intro m
    induction m with
    | zero => intro _ i hi; omega
    | succ m ih =>
      intro hm i hi
      obtain ⟨hhead, htail⟩ := List.cons.inj hm
      rcases Nat.lt_succ_iff_lt_or_eq.1 hi with hi | rfl
      · exact ih htail i hi
      · exact hhead
  apply Nat.eq_of_testBit_eq
  intro i
  rcases Nat.lt_or_ge i n with hi | hi
  · exact hlow n h i hi
  · have hpow : 2 ^ n ≤ 2 ^ i := Nat.pow_le_pow_right (by omega) hi
    rw [Nat.testBit_lt_two_pow (by omega), Nat.testBit_lt_two_pow (by omega)]

/-- Numbers in a row are known by their bits. -/
theorem eq_of_flatMap_bits_eq {n : Nat} {xs : List Nat} : ∀ {ys : List Nat},
    xs.length = ys.length → (∀ x ∈ xs, x < 2 ^ n) → (∀ y ∈ ys, y < 2 ^ n) →
      xs.flatMap (bits n) = ys.flatMap (bits n) → xs = ys := by
  induction xs with
  | nil => intro ys hlen _ _ _; exact (List.length_eq_zero_iff.1 hlen.symm).symm
  | cons x xs ih =>
    intro ys hlen hxs hys h
    obtain ⟨y, ys, rfl⟩ : ∃ y ys', ys = y :: ys' := by
      cases ys with
      | nil => simp at hlen
      | cons y ys => exact ⟨y, ys, rfl⟩
    rw [List.flatMap_cons, List.flatMap_cons] at h
    have hboth : (bits n x).length = (bits n y).length := by rw [length_bits, length_bits]
    obtain ⟨hx, hrest⟩ := List.append_inj h hboth
    have hxy := eq_of_bits_eq (hxs x List.mem_cons_self) (hys y List.mem_cons_self) hx
    have hlen : xs.length = ys.length := by simpa using hlen
    rw [hxy, ih hlen (fun z hz => hxs z (List.mem_cons_of_mem _ hz))
      (fun z hz => hys z (List.mem_cons_of_mem _ hz)) hrest]

/-! ## Canonical text -/

/-- The bits of bytes. -/
def bitsOf (b : List UInt8) : List Bool :=
  b.flatMap fun a => bits 8 a.toNat

/-- **The canonical text of bytes**, symbols with padding behind them: the values of the symbols
have the bits of the bytes, zeros being put behind these for the last symbol, and padding fills the
last group of four characters. -/
def Canonical (text : List Char) (b : List UInt8) : Prop :=
  ∃ (values : List Nat) (padding : Nat), text = values.map symbol ++ List.replicate padding '=' ∧
    (∀ v ∈ values, v < 2 ^ 6) ∧ padding ≤ 2 ∧ (values.length + padding) % 4 = 0 ∧
    values.flatMap (bits 6) = bitsOf b ++ List.replicate (2 * padding) false

theorem length_bitsOf (b : List UInt8) : (bitsOf b).length = 8 * b.length := by
  induction b with
  | nil => rfl
  | cons a b ih =>
    rw [bitsOf, List.flatMap_cons, List.length_append, length_bits]
    rw [bitsOf] at ih
    rw [ih, List.length_cons]
    omega

theorem length_flatMap_bits (n : Nat) (xs : List Nat) :
    (xs.flatMap (bits n)).length = n * xs.length := by
  induction xs with
  | nil => rfl
  | cons x xs ih => rw [List.flatMap_cons, List.length_append, length_bits, ih, List.length_cons,
      Nat.mul_add, Nat.mul_one, Nat.add_comm]

/-- **There is one canonical text** at most: the number of bits leaves no choice of the padding. -/
theorem Canonical.unique {text text' : List Char} {b : List UInt8} (h : Canonical text b)
    (h' : Canonical text' b) : text = text' := by
  obtain ⟨values, padding, rfl, hvalues, hpadding, hfull, hbits⟩ := h
  obtain ⟨values', padding', rfl, hvalues', hpadding', hfull', hbits'⟩ := h'
  have hlen := congrArg List.length hbits
  have hlen' := congrArg List.length hbits'
  rw [length_flatMap_bits, List.length_append, length_bitsOf, List.length_replicate] at hlen hlen'
  have hp : padding = padding' := by omega
  subst hp
  have hsame : values = values' :=
    eq_of_flatMap_bits_eq (by omega) hvalues hvalues' (hbits.trans hbits'.symm)
  rw [hsame]

theorem bitsOf_cons (a : UInt8) (b : List UInt8) : bitsOf (a :: b) = bits 8 a.toNat ++ bitsOf b :=
  List.flatMap_cons

section
variable (a b c : UInt8)

/-- The symbols of one byte. -/
theorem bits_one : bits 6 (a.toNat / 4) ++ bits 6 (a.toNat % 4 * 16) =
    bits 8 a.toNat ++ List.replicate 4 false := by
  have ha : bits 8 a.toNat = bits 6 (a.toNat / 4) ++ bits 2 (a.toNat % 4) := bits_split 6 2 _
  have hlast : bits 6 (a.toNat % 4 * 16 + 0) = bits 2 (a.toNat % 4) ++ bits 4 0 :=
    bits_append 2 4 _ (by decide)
  rw [ha, ← Nat.add_zero (_ * 16), hlast, bits_zero, List.append_assoc]

/-- The symbols of two bytes. -/
theorem bits_two : bits 6 (a.toNat / 4) ++ (bits 6 (a.toNat % 4 * 16 + b.toNat / 16) ++
    bits 6 (b.toNat % 16 * 4)) = bits 8 a.toNat ++ bits 8 b.toNat ++ List.replicate 2 false := by
  have hlt := b.toNat_lt
  have ha : bits 8 a.toNat = bits 6 (a.toNat / 4) ++ bits 2 (a.toNat % 4) := bits_split 6 2 _
  have hb : bits 8 b.toNat = bits 4 (b.toNat / 16) ++ bits 4 (b.toNat % 16) := bits_split 4 4 _
  have hab : bits 6 (a.toNat % 4 * 16 + b.toNat / 16) =
      bits 2 (a.toNat % 4) ++ bits 4 (b.toNat / 16) := bits_append 2 4 _ (by omega)
  have hlast : bits 6 (b.toNat % 16 * 4 + 0) = bits 4 (b.toNat % 16) ++ bits 2 0 :=
    bits_append 4 2 _ (by decide)
  rw [ha, hb, hab, ← Nat.add_zero (_ * 4), hlast, bits_zero]
  simp only [List.append_assoc]

/-- The symbols of three bytes. -/
theorem bits_three : bits 6 (a.toNat / 4) ++ (bits 6 (a.toNat % 4 * 16 + b.toNat / 16) ++
    (bits 6 (b.toNat % 16 * 4 + c.toNat / 64) ++ bits 6 (c.toNat % 64))) =
      bits 8 a.toNat ++ bits 8 b.toNat ++ bits 8 c.toNat := by
  have hlt := b.toNat_lt
  have hlt' := c.toNat_lt
  have ha : bits 8 a.toNat = bits 6 (a.toNat / 4) ++ bits 2 (a.toNat % 4) := bits_split 6 2 _
  have hb : bits 8 b.toNat = bits 4 (b.toNat / 16) ++ bits 4 (b.toNat % 16) := bits_split 4 4 _
  have hc : bits 8 c.toNat = bits 2 (c.toNat / 64) ++ bits 6 (c.toNat % 64) := bits_split 2 6 _
  have hab : bits 6 (a.toNat % 4 * 16 + b.toNat / 16) =
      bits 2 (a.toNat % 4) ++ bits 4 (b.toNat / 16) := bits_append 2 4 _ (by omega)
  have hbc : bits 6 (b.toNat % 16 * 4 + c.toNat / 64) =
      bits 4 (b.toNat % 16) ++ bits 2 (c.toNat / 64) := bits_append 4 2 _ (by omega)
  rw [ha, hb, hc, hab, hbc]
  simp only [List.append_assoc]

/-! The values of symbols have six bits. -/

theorem values_lt_one : ∀ v ∈ [a.toNat / 4, a.toNat % 4 * 16], v < 64 := by
  have ha := a.toNat_lt
  simp only [List.forall_mem_cons, List.not_mem_nil, false_implies, implies_true, and_true]
  omega

theorem values_lt_two :
    ∀ v ∈ [a.toNat / 4, a.toNat % 4 * 16 + b.toNat / 16, b.toNat % 16 * 4], v < 64 := by
  have ha := a.toNat_lt
  have hb := b.toNat_lt
  simp only [List.forall_mem_cons, List.not_mem_nil, false_implies, implies_true, and_true]
  omega

theorem values_lt_three :
    ∀ v ∈ [a.toNat / 4, a.toNat % 4 * 16 + b.toNat / 16, b.toNat % 16 * 4 + c.toNat / 64,
      c.toNat % 64], v < 64 := by
  have ha := a.toNat_lt
  have hb := b.toNat_lt
  have hc := c.toNat_lt
  simp only [List.forall_mem_cons, List.not_mem_nil, false_implies, implies_true, and_true]
  omega

end

/-- **What is written is canonical.** -/
theorem canonical_encode (b : List UInt8) : Canonical (encode b) b := by
  induction b using encode.induct with
  | case1 => exact ⟨[], 0, rfl, by simp, by omega, rfl, rfl⟩
  | case2 a =>
    refine ⟨[a.toNat / 4, a.toNat % 4 * 16], 2, rfl, values_lt_one a, by omega, by simp, ?_⟩
    simpa [bitsOf] using bits_one a
  | case3 a b =>
    refine ⟨[a.toNat / 4, a.toNat % 4 * 16 + b.toNat / 16, b.toNat % 16 * 4], 1, rfl,
      values_lt_two a b, by omega, by simp, ?_⟩
    simpa [bitsOf] using bits_two a b
  | case4 a b c rest ih =>
    obtain ⟨values, padding, htext, hvalues, hpadding, hfull, hbits⟩ := ih
    refine ⟨[a.toNat / 4, a.toNat % 4 * 16 + b.toNat / 16, b.toNat % 16 * 4 + c.toNat / 64,
      c.toNat % 64] ++ values, padding, ?_, ?_, hpadding, ?_, ?_⟩
    · rw [encode, htext]
      rfl
    · intro v hv
      rcases List.mem_append.1 hv with hv | hv
      · exact values_lt_three a b c v hv
      · exact hvalues v hv
    · rw [List.length_append, List.length_cons, List.length_cons, List.length_cons,
        List.length_singleton]
      omega
    · simp only [List.cons_append, List.nil_append, List.flatMap_cons, bitsOf_cons, hbits]
      simpa [List.append_assoc] using
        congrArg (· ++ (bitsOf rest ++ List.replicate (2 * padding) false)) (bits_three a b c)

/-- **There is one canonical text, and it is written.** -/
theorem canonical_iff {text : List Char} {b : List UInt8} : Canonical text b ↔ text = encode b := by
  constructor
  · intro h
    exact h.unique (canonical_encode b)
  · rintro rfl
    exact canonical_encode b

end SchemaRules.Base64
