import SchemaRules.Proofs.Doubles
import SchemaRules.Proofs.Layouts
import SchemaRules.Yaml.Value

/-!
# The texts of keys

The keys of a mapping are texts, numbers and truth values, and as JSON they are texts. A number or a
truth value has a text of its own.

* `Value.same_of_keyText?`: **two keys with one text are the same, unless one of them is a text**.
-/

namespace SchemaRules

open Float.Model UnpackedFloat

/-! ## Equal doubles -/

/-- A number is equal to itself. -/
theorem beq_self {x : Float} (h : x.isNaN = false) : (x == x) = true := by
  rw [beq_iff]
  have hswap := swap_compare x.toModel.unpack x.toModel.unpack
  obtain ⟨o, ho⟩ := Option.isSome_iff_exists.1 (isSome_compare h h)
  rw [ho] at hswap ⊢
  cases o with
  | eq => rfl
  | lt => cases hswap
  | gt => cases hswap

/-- An infinite number is below a finite one if it is negative. -/
theorem compare_infinity {z : UnpackedFloat} (hz : z.isFinite = true) (s : Sign) :
    (infinity s).compare z = some .lt ↔ s = .negative := by
  cases z with
  | infinity _ => cases hz
  | notANumber => cases hz
  | zero _ | finite _ _ _ _ => cases s <;> simp [UnpackedFloat.compare]

/-- Infinite doubles are equal if they have the same sign. -/
theorem beq_of_isInf {x y : Float} (hx : x.isInf = true) (hy : y.isInf = true)
    (h : x < 0 ↔ y < 0) : (x == y) = true := by
  have hzero : (0 : Float).toModel.unpack.isFinite = true := by decide +kernel
  have hinfinity : ∀ {x : Float}, x.isInf = true → ∃ s, x.toModel.unpack = .infinity s :=
    fun {x} hx => by
      change x.toModel.unpack.isInf = true at hx
      cases hu : x.toModel.unpack with
      | infinity s => exact ⟨s, rfl⟩
      | _ => rw [hu] at hx; cases hx
  obtain ⟨s, hs⟩ := hinfinity hx
  obtain ⟨t, ht⟩ := hinfinity hy
  rw [lt_iff, lt_iff, hs, ht, compare_infinity hzero, compare_infinity hzero] at h
  obtain rfl : s = t := by cases s <;> cases t <;> simp_all
  rw [beq_iff, hs, ht]
  cases s <;> rfl

namespace Yaml

open Decimal

/-! ## Doubles -/

/-- Whether a text is read as a number, once its sign is taken off. -/
def isNumeral (s : String) : Bool :=
  (takeDecimal? (takeSign s.toList).2).isSome

namespace Value

/-- **The kinds of doubles**, by what they are and by their texts. -/
theorem doubleText_cases (x : Float) :
    x.isNaN = true ∧ doubleText x = ".nan" ∨
    (x.isNaN = false ∧ x.isInf = true) ∧ doubleText x = (if x < 0 then "-.inf" else ".inf") ∨
    (x.isNaN = false ∧ x.isInf = false) ∧ doubleText x = Layout.document.write x := by
  unfold doubleText
  cases x.isNaN with
  | true => exact .inl ⟨rfl, rfl⟩
  | false =>
    cases x.isInf with
    | true => exact .inr (.inl ⟨⟨rfl, rfl⟩, rfl⟩)
    | false => exact .inr (.inr ⟨⟨rfl, rfl⟩, rfl⟩)

/-- The text of a finite double is a numeral. -/
theorem isNumeral_write {x : Float} (hx : x.isNaN = false ∧ x.isInf = false) :
    isNumeral (Layout.document.write x) = true := by
  obtain ⟨d, hd, -⟩ := Layout.writes_size Layout.document x
  rw [isNumeral, Layout.takeSign_write _ hx.1 hx.2, hd]
  rfl

theorem isNumeral_infinity (x : Float) :
    isNumeral (if x < 0 then "-.inf" else ".inf") = false := by
  split <;> decide +kernel

theorem infinity_ne_nan (x : Float) : (if x < 0 then "-.inf" else ".inf") ≠ ".nan" := by
  split <;> decide

/-- Infinite doubles with one text have one sign. -/
theorem lt_zero_iff_of_infinity_eq {x y : Float}
    (h : (if x < 0 then "-.inf" else ".inf") = if y < 0 then "-.inf" else ".inf") :
    x < 0 ↔ y < 0 := by
  split at h <;> split at h
  · next hx hy => exact iff_of_true hx hy
  · exact absurd h (by decide)
  · exact absurd h (by decide)
  · next hx hy => exact iff_of_false hx hy

/-- **Doubles with the same text are the same**, what is not a number included. -/
theorem same_of_doubleText_eq {x y : Float} (h : doubleText x = doubleText y) :
    (Scalar.double x).same (.double y) = true := by
  have hnan : isNumeral ".nan" = false := by decide +kernel
  rw [Scalar.same, Bool.or_eq_true, Bool.and_eq_true]
  -- one text belongs to doubles of one kind
  rcases doubleText_cases x with ⟨hx, htext⟩ | ⟨hx, htext⟩ | ⟨hx, htext⟩ <;>
    rcases doubleText_cases y with ⟨hy, htext'⟩ | ⟨hy, htext'⟩ | ⟨hy, htext'⟩ <;>
    rw [htext, htext'] at h
  · exact .inr ⟨hx, hy⟩
  · exact absurd h.symm (infinity_ne_nan y)
  · exact absurd (hnan.symm.trans (h ▸ isNumeral_write hy)) Bool.false_ne_true
  · exact absurd h (infinity_ne_nan x)
  · exact .inl (beq_of_isInf hx.2 hy.2 (lt_zero_iff_of_infinity_eq h))
  · exact absurd ((isNumeral_infinity x).symm.trans (h ▸ isNumeral_write hy)) Bool.false_ne_true
  · exact absurd (hnan.symm.trans (h ▸ isNumeral_write hx)) Bool.false_ne_true
  · exact absurd ((isNumeral_infinity y).symm.trans (h ▸ isNumeral_write hx)) Bool.false_ne_true
  · obtain rfl := Layout.write_injective _ hx hy h
    exact .inl (beq_self hx.1)

/-! ## Scalars -/

/-- The text of a whole number has digits and a sign only. -/
theorem not_mem_toString {n : ℤ} {c : Char} (hc : isDigit c = false) (hsign : c ≠ '-') :
    c ∉ (toString n).toList := by
  rw [toList_toString]
  intro h
  rcases List.mem_append.1 h with h | h
  · split at h
    · exact hsign (List.mem_singleton.1 h)
    · cases h
  · rw [areDigits_digitsOf _ c h] at hc
    cases hc

/-- The text of a double has a point or an exponent. -/
theorem mem_doubleText (x : Float) : '.' ∈ (doubleText x).toList ∨ 'e' ∈ (doubleText x).toList := by
  rcases doubleText_cases x with ⟨-, htext⟩ | ⟨-, htext⟩ | ⟨hx, htext⟩ <;> rw [htext]
  · decide
  · split <;> decide
  · rw [Layout.write, hx.1, hx.2, if_neg Bool.false_ne_true, if_neg Bool.false_ne_true,
      String.toList_ofList]
    exact (Layout.mem_size rfl x).imp (List.mem_append_right _) (List.mem_append_right _)

theorem toString_ne_doubleText (n : ℤ) (x : Float) : toString n ≠ doubleText x := by
  intro h
  have hmem := mem_doubleText x
  rw [← h] at hmem
  exact hmem.elim (not_mem_toString (by decide) (by decide))
    (not_mem_toString (by decide) (by decide))

theorem toString_ne_truth (n : ℤ) (b : Bool) : toString n ≠ toString b := by
  intro h
  cases b with
  | true => exact not_mem_toString (n := n) (c := 't') (by decide) (by decide) (by rw [h]; decide)
  | false => exact not_mem_toString (n := n) (c := 'f') (by decide) (by decide) (by rw [h]; decide)

theorem truth_ne_doubleText (b : Bool) (x : Float) : toString b ≠ doubleText x := by
  have htruth : isNumeral (toString b) = false := by cases b <;> decide +kernel
  rcases doubleText_cases x with ⟨-, htext⟩ | ⟨-, htext⟩ | ⟨hx, htext⟩ <;> rw [htext]
  · cases b <;> decide
  · split <;> cases b <;> decide
  · intro h
    exact absurd (htruth.symm.trans (h ▸ isNumeral_write hx)) Bool.false_ne_true

/-- Whether a key is a text of its own. -/
def isText : Value → Bool
  | scalar (.text _) => true
  | _ => false

theorem keyText?_of_isText {k : Value} {s : String} (hk : k.isText = true)
    (h : k.keyText? = some s) : k = .scalar (.text s) := by
  unfold isText at hk
  split at hk
  · cases h; rfl
  · cases hk

/-- The keys that are no texts. -/
theorem keyText?_cases {k : Value} {s : String} (hk : k.isText = false)
    (h : k.keyText? = some s) :
    (∃ n, k = .scalar (.int n) ∧ s = toString n) ∨
      (∃ x, k = .scalar (.double x) ∧ s = doubleText x) ∨
      ∃ b, k = .scalar (.bool b) ∧ s = toString b := by
  unfold keyText? at h
  split at h <;> cases h
  · cases hk
  · exact .inl ⟨_, rfl, rfl⟩
  · exact .inr (.inl ⟨_, rfl, rfl⟩)
  · exact .inr (.inr ⟨_, rfl, rfl⟩)

/-- **Two keys with one text are the same, unless one of them is a text.** -/
theorem same_of_keyText? {a b : Value} {s : String} (hatext : a.isText = false)
    (hbtext : b.isText = false) (ha : a.keyText? = some s) (hb : b.keyText? = some s) :
    a.same b = true := by
  rcases keyText?_cases hatext ha with ⟨m, rfl, rfl⟩ | ⟨x, rfl, rfl⟩ | ⟨p, rfl, rfl⟩ <;>
    rcases keyText?_cases hbtext hb with ⟨n, rfl, h⟩ | ⟨y, rfl, h⟩ | ⟨q, rfl, h⟩
  · obtain rfl : m = n := Int.repr_injective h
    exact beq_self_eq_true m
  · exact absurd h (toString_ne_doubleText m y)
  · exact absurd h (toString_ne_truth m q)
  · exact absurd h.symm (toString_ne_doubleText n x)
  · exact same_of_doubleText_eq h
  · exact absurd h.symm (truth_ne_doubleText q x)
  · exact absurd h.symm (toString_ne_truth n p)
  · exact absurd h (truth_ne_doubleText p y)
  · obtain rfl : p = q := by cases p <;> cases q <;> first | rfl | exact absurd h (by decide)
    exact beq_self_eq_true p

end Value

end Yaml

end SchemaRules
