import Mathlib
import SchemaRules.Value.Compare

/-!
# The order of doubles

* `isNaN_unpack_pack`: packing makes no number into what is not one; what does not fit
  becomes infinite.
* `Value.isNaN_toDouble`: **a whole number as a double is a number**, however large.
* `Value.isSome_compareDoubles`: two doubles have an order exactly if both are numbers.
-/

namespace SchemaRules

open Float.Model UnpackedFloat

/-! ## Packing -/

theorem isNaN_unpack_packComponents {spec : Format} {sign : Sign}
    {exponent : BitVec spec.exponentBits} {mantissa : BitVec spec.mantissaBitsWithoutImplicit}
    (h : exponent = -1#_ → mantissa = 0#_) :
    (unpack spec (packComponents spec sign exponent mantissa)).isNaN = false := by
  simp only [UnpackedFloat.unpack, unpackExponent_packComponents, unpackMantissa_packComponents]
  split
  · next he => rw [if_pos (h he)]; rfl
  · split
    · split <;> rfl
    · rfl

/-- **Packing keeps numbers.** A finite number whose exponent would read as that of an infinite one
becomes infinite before it is packed. -/
theorem isNaN_unpack_pack (spec : Format) {x : UnpackedFloat} (h : x.isNaN = false) :
    (unpack spec (UnpackedFloat.pack spec x)).isNaN = false := by
  cases x with
  | notANumber => cases h
  | infinity s => exact isNaN_unpack_packComponents fun _ => rfl
  | zero s => exact isNaN_unpack_packComponents fun _ => rfl
  | finite s m e hm =>
    simp only [UnpackedFloat.pack]
    split
    · exact isNaN_unpack_packComponents fun _ => rfl
    · next hfit =>
      -- the exponent that is packed is not all ones, of a normal number and of a subnormal one
      split
      · refine isNaN_unpack_packComponents fun he => ?_
        have hbits := congrArg BitVec.toNat he
        rw [BitVec.neg_one_eq_allOnes, BitVec.toNat_allOnes, BitVec.toNat_ofNat,
          Nat.mod_eq_of_lt (by omega)] at hbits
        omega
      · refine isNaN_unpack_packComponents fun he => ?_
        have hbits := congrArg BitVec.toNat he
        have hpos := Nat.one_lt_two_pow (Nat.pos_iff_ne_zero.1 spec.he)
        rw [BitVec.neg_one_eq_allOnes, BitVec.toNat_allOnes, BitVec.toNat_zero] at hbits
        omega

theorem isNaN_pack {x : UnpackedFloat} (h : x.isNaN = false) :
    (Float.ofModel (.pack x)).isNaN = false :=
  isNaN_unpack_pack Format.binary64 h

/-! ## Operations -/

theorem isNaN_roundWithAccuracy (spec : Format) (s : Sign) (m : Nat) (e : Int) (a : Accuracy) :
    (roundWithAccuracy spec s m e a).isNaN = false := by
  unfold roundWithAccuracy
  dsimp only
  split <;> rfl

theorem isNaN_normalize (spec : Format) (m e : Int) (s : Sign) :
    (UnpackedFloat.normalize spec m e s).isNaN = false := by
  unfold UnpackedFloat.normalize
  split
  · exact isNaN_roundWithAccuracy ..
  · rfl
  · exact isNaN_roundWithAccuracy ..

/-- A product with a finite number other than zero. -/
theorem isNaN_mul_finite (spec : Format) {x : UnpackedFloat} (h : x.isNaN = false) (s : Sign)
    (m : Nat) (e : Int) (hm : 0 < m) :
    (UnpackedFloat.mul spec x (.finite s m e hm)).isNaN = false := by
  cases x with
  | notANumber => cases h
  | infinity _ => rfl
  | zero _ => rfl
  | finite _ _ _ _ => exact isNaN_roundWithAccuracy ..

theorem isNaN_neg {x : Float} (h : x.isNaN = false) : x.neg.isNaN = false := by
  refine isNaN_pack ?_
  change x.toModel.unpack.isNaN = false at h
  cases hx : x.toModel.unpack with
  | notANumber => rw [hx] at h; cases h
  | _ => rfl

/-- Small numbers are converted as such and multiplied by one, large ones are rounded. -/
theorem isNaN_ofNat (n : Nat) : (Float.ofNat n).isNaN = false := by
  change (Float.ofScientific n false 0).isNaN = false
  unfold Float.ofScientific
  split
  · obtain ⟨s, m, e, hm, hone⟩ : ∃ s m e hm,
        (Float.ofBits 0x3FF0000000000000).toModel.unpack = .finite s m e hm := ⟨_, _, _, _, rfl⟩
    refine isNaN_pack ?_
    change (UnpackedFloat.mul Format.binary64 _
      (Float.ofBits 0x3FF0000000000000).toModel.unpack).isNaN = false
    rw [hone]
    exact isNaN_mul_finite _ (isNaN_unpack_pack _ (isNaN_normalize ..)) s m e hm
  · refine isNaN_pack ?_
    change (UnpackedFloat.ofScientific Format.binary64 n 0).isNaN = false
    unfold UnpackedFloat.ofScientific
    split
    · rfl
    · have hlow : ¬ (0 : Int) < -((2 ^ Format.binary64.exponentBits : Int) + n.log2) := by
        have : (0 : Int) < 2 ^ Format.binary64.exponentBits := by decide
        omega
      rw [if_neg (by decide), if_neg hlow, if_pos (Int.le_refl 0)]
      exact isNaN_mul_finite _ rfl _ _ _ _

namespace Value

/-- **A whole number as a double is a number.** -/
theorem isNaN_toDouble (n : Int) : (toDouble n).isNaN = false := by
  cases n with
  | ofNat n => exact isNaN_ofNat n
  | negSucc n => exact isNaN_neg (isNaN_ofNat (n + 1))

end Value

/-! ## The order -/

theorem compare_eq_none {x y : UnpackedFloat} (h : x.isNaN = true ∨ y.isNaN = true) :
    x.compare y = none := by
  cases x <;> cases y <;> simp_all [UnpackedFloat.isNaN, UnpackedFloat.compare]

theorem isSome_compare {x y : UnpackedFloat} (hx : x.isNaN = false) (hy : y.isNaN = false) :
    (x.compare y).isSome = true := by
  unfold UnpackedFloat.compare
  split <;> first | rfl | cases hx | cases hy

theorem swap_compare_finite (m n : Nat) (e f : Int) :
    ((compare e f).then (compare m n)).swap = (compare f e).then (compare n m) := by
  rw [Ordering.swap_then, ← Std.OrientedCmp.eq_swap, ← Std.OrientedCmp.eq_swap]

/-- Comparing the other way round turns the order. -/
theorem swap_compare (x y : UnpackedFloat) : (x.compare y).map Ordering.swap = y.compare x := by
  rcases x with (_ | _) | _ | (_ | _) | ⟨_ | _, m, e, _⟩ <;>
    rcases y with (_ | _) | _ | (_ | _) | ⟨_ | _, n, f, _⟩ <;> try rfl
  -- what is left are two finite numbers of one sign
  · exact congrArg (fun o => some (Ordering.swap o)) (swap_compare_finite m n e f)
  · exact congrArg some (swap_compare_finite m n e f)

theorem lt_iff {a b : Float} : a < b ↔ a.toModel.unpack.compare b.toModel.unpack = some .lt := by
  change decide (a.toModel.lt b.toModel = true) = true ↔ _
  rw [decide_eq_true_iff]
  exact beq_iff_eq

theorem beq_iff {a b : Float} :
    (a == b) = true ↔ a.toModel.unpack.compare b.toModel.unpack = some .eq := by
  change (a.toModel.unpack.compare b.toModel.unpack == some .eq) = true ↔ _
  exact beq_iff_eq

/-- **Two doubles have an order exactly if both are numbers.** -/
theorem Value.isSome_compareDoubles (a b : Float) :
    (Value.compareDoubles a b).isSome = true ↔ a.isNaN = false ∧ b.isNaN = false := by
  have hswap := swap_compare a.toModel.unpack b.toModel.unpack
  simp only [compareDoubles, lt_iff, beq_iff, ← hswap]
  constructor
  · intro h
    cases ha : a.isNaN with
    | true => rw [compare_eq_none (.inl ha)] at h; cases h
    | false =>
      cases hb : b.isNaN with
      | true => rw [compare_eq_none (.inr hb)] at h; cases h
      | false => exact ⟨rfl, rfl⟩
  · rintro ⟨ha, hb⟩
    obtain ⟨o, ho⟩ := Option.isSome_iff_exists.1 (isSome_compare ha hb)
    rw [ho]
    cases o <;> rfl

end SchemaRules
