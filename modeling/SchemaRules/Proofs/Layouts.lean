import SchemaRules.Decimal.Layout
import SchemaRules.Decimal.Reader
import SchemaRules.Proofs.Decimals

/-!
# Texts of doubles tell them apart

Whatever the layout, the text of a finite double is read as the decimal that it writes.

* `takeDecimal?_pointed`: reading digits around a point, with or without an exponent behind them.
* `Layout.writes_size`: **what is written is read as the same number**.
* `Layout.write_injective`: **finite doubles with the same text are the same**.
-/

namespace SchemaRules.Decimal

/-! ## Digits -/

/-- Only digits. -/
def AreDigits (cs : List Char) : Prop :=
  ∀ c ∈ cs, isDigit c = true

theorem AreDigits.append {a b : List Char} (ha : AreDigits a) (hb : AreDigits b) :
    AreDigits (a ++ b) := fun c hc =>
  (List.mem_append.1 hc).elim (ha c) (hb c)

theorem AreDigits.take {cs : List Char} (h : AreDigits cs) (n : ℕ) : AreDigits (cs.take n) :=
  fun c hc => h c (List.mem_of_mem_take hc)

theorem AreDigits.drop {cs : List Char} (h : AreDigits cs) (n : ℕ) : AreDigits (cs.drop n) :=
  fun c hc => h c (List.mem_of_mem_drop hc)

theorem areDigits_replicate (n : ℕ) : AreDigits (List.replicate n '0') := fun c hc => by
  rw [List.eq_of_mem_replicate hc]
  rfl

theorem areDigits_digitsOf (n : ℕ) : AreDigits (digitsOf n) := fun _ hc =>
  Nat.isDigit_of_mem_toDigits (by decide) (by decide) hc

theorem digitsOf_ne_nil (n : ℕ) : digitsOf n ≠ [] :=
  Nat.toDigits_ne_nil

theorem digitsValue_eq (cs : List Char) : digitsValue cs = Nat.ofDigitChars 10 cs 0 := by
  rw [digitsValue, Nat.ofDigitChars_eq_foldl]
  simp only [Nat.mul_comm]

theorem digitsValue_digitsOf (n : ℕ) : digitsValue (digitsOf n) = n := by
  rw [digitsValue_eq, digitsOf, Nat.ofDigitChars_ten_toDigits]

theorem digitsValue_append_zeros (cs : List Char) (n : ℕ) :
    digitsValue (cs ++ List.replicate n '0') = digitsValue cs * 10 ^ n := by
  rw [digitsValue_eq, digitsValue_eq, Nat.ofDigitChars_append, Nat.ofDigitChars_replicate_zero,
    Nat.mul_comm]

theorem digitsValue_zeros_append (cs : List Char) (n : ℕ) :
    digitsValue (List.replicate n '0' ++ cs) = digitsValue cs := by
  rw [digitsValue_eq, digitsValue_eq, Nat.ofDigitChars_append, Nat.ofDigitChars_replicate_zero,
    Nat.mul_zero]

/-! ## Reading -/

/-- Something that is no digit follows, or nothing. -/
def EndsDigits (rest : List Char) : Prop :=
  ∀ c ∈ rest.head?, isDigit c = false

theorem endsDigits_cons {c : Char} {rest : List Char} (h : isDigit c = false) :
    EndsDigits (c :: rest) := by
  rintro _ ⟨⟩
  exact h

theorem takeDigits_append {cs rest : List Char} (hcs : AreDigits cs) (hrest : EndsDigits rest) :
    takeDigits (cs ++ rest) = (cs, rest) := by
  rw [takeDigits, List.takeWhile_append_of_pos hcs, List.dropWhile_append_of_pos hcs]
  cases rest with
  | nil => rw [List.takeWhile_nil, List.append_nil, List.dropWhile_nil]
  | cons c rest =>
    have hc : isDigit c = false := hrest c rfl
    rw [List.takeWhile_cons_of_neg (by rw [hc]; decide), List.append_nil,
      List.dropWhile_cons_of_neg (by rw [hc]; decide)]

theorem takeDigits_of_areDigits {cs : List Char} (hcs : AreDigits cs) :
    takeDigits cs = (cs, []) := by
  have h : takeDigits (cs ++ []) = (cs, []) := takeDigits_append hcs nofun
  rwa [List.append_nil] at h

/-- No digit is a sign. -/
theorem takeSign_of_areDigits {cs : List Char} (hcs : AreDigits cs) :
    takeSign cs = (false, cs) := by
  unfold takeSign
  split
  · exact absurd (hcs '-' List.mem_cons_self) (by decide)
  · exact absurd (hcs '+' List.mem_cons_self) (by decide)
  · rfl

/-- A whole number is written with its digits, behind a minus if it is negative. -/
theorem toList_toString (i : ℤ) :
    (toString i).toList = (if i < 0 then ['-'] else []) ++ digitsOf i.natAbs := by
  have hdigits : ∀ n : ℕ, n.repr.toList = digitsOf n := fun n => by
    rw [← Nat.toString_eq_repr, Nat.toString_eq_ofList_toDigits, String.toList_ofList, digitsOf]
  rw [Int.toString_eq_repr, Int.repr_eq_if]
  split
  · rw [hdigits, if_neg (by omega), List.nil_append, show i.toNat = i.natAbs by omega]
  · rw [String.toList_append, hdigits, if_pos (by omega), show (-i).toNat = i.natAbs by omega]
    rfl

/-- **An exponent is read as it is written.** -/
theorem takeExponent_toString (i : ℤ) :
    takeExponent ('e' :: (toString i).toList) = some (i, []) := by
  have hdigits := areDigits_digitsOf i.natAbs
  have hne : (digitsOf i.natAbs).isEmpty = false := by simpa using digitsOf_ne_nil i.natAbs
  have hsign : takeSign (toString i).toList = (decide (i < 0), digitsOf i.natAbs) := by
    rw [toList_toString]
    split
    · next h => rw [decide_eq_true h]; rfl
    · next h => rw [decide_eq_false h]; exact takeSign_of_areDigits hdigits
  have hvalue : (if i < 0 then -(i.natAbs : ℤ) else i.natAbs) = i := by split <;> omega
  simp only [takeExponent, hsign, takeDigits_of_areDigits hdigits, hne, digitsValue_digitsOf,
    decide_eq_true_eq, hvalue]
  rfl

/-- A fraction behind its point, if there is one. -/
def pointed (fraction : List Char) : List Char :=
  if fraction.isEmpty then [] else '.' :: fraction

/-- **Digits around a point are read**, and then an exponent if there is one. -/
theorem takeDecimal?_pointed {whole fraction rest : List Char} (hwhole : AreDigits whole)
    (hne : whole ≠ []) (hfraction : AreDigits fraction) (hrest : EndsDigits rest)
    (hpoint : '.' ∉ rest.head?) :
    takeDecimal? (whole ++ (pointed fraction ++ rest)) =
      (takeExponent rest).elim
        (some (⟨digitsValue (whole ++ fraction), -(fraction.length : ℤ)⟩, rest))
        fun e => some (⟨digitsValue (whole ++ fraction), -(fraction.length : ℤ) + e.1⟩, e.2) := by
  have hempty : whole.isEmpty = false := by simpa using hne
  unfold takeDecimal? pointed
  cases hf : fraction.isEmpty with
  | true =>
    -- there is no point, and what follows does not begin with one
    obtain rfl : fraction = [] := List.isEmpty_iff.1 hf
    rw [if_pos rfl, List.nil_append, takeDigits_append hwhole hrest]
    simp only
    split
    · exact absurd rfl hpoint
    · simp only [hempty, Bool.false_and, Bool.false_eq_true, if_false, List.append_nil]
      cases takeExponent rest <;> rfl
  | false =>
    rw [if_neg Bool.false_ne_true, List.cons_append,
      takeDigits_append hwhole (endsDigits_cons (by decide))]
    simp only [takeDigits_append hfraction hrest, hempty, Bool.false_and, Bool.false_eq_true,
      if_false]
    cases takeExponent rest <;> rfl

namespace Layout

/-- **What is read of a text**: a number, and nothing is left. -/
def Writes (cs : List Char) (r : ℚ) : Prop :=
  ∃ d, takeDecimal? cs = some (d, []) ∧ d.value = r

theorem Writes.congr {cs : List Char} {r r' : ℚ} (h : Writes cs r) (hr : r = r') : Writes cs r' :=
  hr ▸ h

theorem writes_pointed {whole fraction : List Char} (hwhole : AreDigits whole) (hne : whole ≠ [])
    (hfraction : AreDigits fraction) :
    Writes (whole ++ pointed fraction)
      (digitsValue (whole ++ fraction) * 10 ^ (-(fraction.length : ℤ))) := by
  refine ⟨⟨digitsValue (whole ++ fraction), -(fraction.length : ℤ)⟩, ?_, rfl⟩
  rw [← List.append_nil (pointed fraction)]
  exact takeDecimal?_pointed hwhole hne hfraction nofun nofun

theorem pointed_of_ne_nil {fraction : List Char} (h : fraction ≠ []) :
    pointed fraction = '.' :: fraction := by
  rw [pointed, if_neg (by simpa using h)]

/-- Digits behind a point and zeros. -/
theorem writes_below_point {digits : List Char} (hdigits : AreDigits digits) (hne : digits ≠ [])
    (n : ℕ) : Writes (['0', '.'] ++ List.replicate n '0' ++ digits)
      (digitsValue digits * 10 ^ (-(n : ℤ) - digits.length)) := by
  have hfraction : List.replicate n '0' ++ digits ≠ [] := List.append_ne_nil_of_right_ne_nil _ hne
  have h := writes_pointed (areDigits_replicate 1) (List.cons_ne_nil '0' [])
    ((areDigits_replicate n).append hdigits)
  rw [pointed_of_ne_nil hfraction, digitsValue_zeros_append, digitsValue_zeros_append,
    List.length_append, List.length_replicate] at h
  rw [List.append_assoc]
  exact h.congr (by congr 2; push_cast; ring)

/-- Digits with a point among them. -/
theorem writes_around_point {digits : List Char} (hdigits : AreDigits digits) {n : ℕ} (hn : 0 < n)
    (hlt : n < digits.length) : Writes (digits.take n ++ ['.'] ++ digits.drop n)
      (digitsValue digits * 10 ^ ((n : ℤ) - digits.length)) := by
  have hwhole : digits.take n ≠ [] := List.length_pos_iff.1 (by rw [List.length_take]; omega)
  have hfraction : digits.drop n ≠ [] := List.length_pos_iff.1 (by rw [List.length_drop]; omega)
  have h := writes_pointed (hdigits.take n) hwhole (hdigits.drop n)
  rw [pointed_of_ne_nil hfraction, List.take_append_drop, List.length_drop] at h
  rw [List.append_assoc]
  exact h.congr (by congr 2; omega)

/-- Digits with zeros and a point behind them. -/
theorem writes_above_point {digits : List Char} (hdigits : AreDigits digits) (hne : digits ≠ [])
    (n : ℕ) (point : Bool) :
    Writes (digits ++ List.replicate n '0' ++ if point then ['.', '0'] else [])
      (digitsValue digits * 10 ^ (n : ℤ)) := by
  have hwhole := hdigits.append (areDigits_replicate n)
  have hne : digits ++ List.replicate n '0' ≠ [] := List.append_ne_nil_of_left_ne_nil hne _
  cases point with
  | true =>
    have h := writes_pointed hwhole hne (areDigits_replicate 1)
    rw [digitsValue_append_zeros, digitsValue_append_zeros, List.length_replicate] at h
    refine Writes.congr h ?_
    push_cast
    rw [zpow_natCast, mul_assoc]
    norm_num
  | false =>
    have h := writes_pointed hwhole hne (List.forall_mem_nil _)
    rw [List.append_nil, digitsValue_append_zeros] at h
    refine Writes.congr h ?_
    push_cast
    rw [zpow_natCast, List.length_nil, Nat.cast_zero, neg_zero, zpow_zero, mul_one]

/-- **Digits around a point are read**, with zeros in front of them or behind them. -/
theorem writes_place (l : Layout) {digits : List Char} (hdigits : AreDigits digits)
    (hne : digits ≠ []) (point : ℤ) :
    Writes (l.place digits point) (digitsValue digits * 10 ^ (point - digits.length)) := by
  unfold place
  split
  · next hpoint =>
    exact (writes_below_point hdigits hne _).congr (by congr 2; omega)
  · next hpoint =>
    cases hfraction : (digits.drop point.toNat).isEmpty with
    | true =>
      have hle : digits.length ≤ point.toNat := by
        rwa [List.isEmpty_iff, List.drop_eq_nil_iff] at hfraction
      simp only [hfraction, if_true, List.take_of_length_le hle]
      exact (writes_above_point hdigits hne _ l.wholePoint).congr (by congr 2; omega)
    | false =>
      have hlt : point.toNat < digits.length := by
        rw [← Bool.not_eq_true, List.isEmpty_iff, List.drop_eq_nil_iff] at hfraction
        exact not_le.1 hfraction
      simp only [hfraction, Bool.false_eq_true, if_false]
      exact (writes_around_point hdigits (by omega) hlt).congr (by congr 2; omega)

/-- **Digits with an exponent are read.** -/
theorem writes_withExponent {digits : List Char} (hdigits : AreDigits digits)
    (hne : digits ≠ []) (point : ℤ) :
    Writes (withExponent digits point) (digitsValue digits * 10 ^ (point - digits.length)) := by
  have hlength : 0 < digits.length := List.length_pos_iff.2 hne
  have hlead : digits.take 1 ≠ [] := List.length_pos_iff.1 (by rw [List.length_take]; omega)
  have hends : EndsDigits ('e' :: (toString (point - 1)).toList) := endsDigits_cons (by decide)
  have h := takeDecimal?_pointed (hdigits.take 1) hlead (hdigits.drop 1) hends nofun
  rw [takeExponent_toString, List.take_append_drop, List.length_drop] at h
  refine ⟨⟨digitsValue digits, -((digits.length - 1 : ℕ) : ℤ) + (point - 1)⟩, ?_, ?_⟩
  · rw [withExponent, List.append_assoc, List.append_assoc]
    exact h
  · have hexponent : -((digits.length - 1 : ℕ) : ℤ) + (point - 1) = point - digits.length := by
      omega
    rw [Scientific.value, hexponent]

/-- **What is written of a double is read as the number that its decimal is.** -/
theorem writes_size (l : Layout) (x : Float) : Writes (l.size x) (Scientific.ofFloat x).value := by
  have hdigits := areDigits_digitsOf (Scientific.ofFloat x).coefficient
  have hne := digitsOf_ne_nil (Scientific.ofFloat x).coefficient
  have hvalue : ∀ point : ℤ, point =
      (digitsOf (Scientific.ofFloat x).coefficient).length + (Scientific.ofFloat x).exponent →
      (digitsValue (digitsOf (Scientific.ofFloat x).coefficient) : ℚ) *
        10 ^ (point - (digitsOf (Scientific.ofFloat x).coefficient).length) =
      (Scientific.ofFloat x).value := by
    rintro _ rfl
    rw [digitsValue_digitsOf, add_sub_cancel_left, Scientific.value]
  unfold size
  simp only
  split
  · next hzero =>
    refine (writes_place l (areDigits_replicate 1) (List.cons_ne_nil '0' []) 1).congr ?_
    rw [Scientific.value, hzero, show digitsValue (List.replicate 1 '0') = 0 from rfl,
      Nat.cast_zero, zero_mul, zero_mul]
  · split
    · exact (writes_place l hdigits hne _).congr (hvalue _ rfl)
    · exact (writes_withExponent hdigits hne _).congr (hvalue _ rfl)

/-- No text of a number without a sign begins with one. -/
theorem takeSign_of_writes {cs : List Char} {r : ℚ} (h : Writes cs r) :
    takeSign cs = (false, cs) := by
  obtain ⟨d, hd, -⟩ := h
  unfold takeSign
  split
  · cases hd
  · cases hd
  · rfl

/-- The text of a finite double is its size, behind a minus if it is negative. -/
theorem takeSign_write (l : Layout) {x : Float} (hnan : x.isNaN = false) (hinf : x.isInf = false) :
    takeSign (l.write x).toList = ((partsOf x).negative, l.size x) := by
  rw [write, hnan, hinf, if_neg Bool.false_ne_true, if_neg Bool.false_ne_true,
    String.toList_ofList]
  cases hsign : (partsOf x).negative with
  | true => rfl
  | false => exact takeSign_of_writes (writes_size l x)

/-- **Finite doubles with the same text are the same.** -/
theorem write_injective (l : Layout) {x y : Float} (hx : x.isNaN = false ∧ x.isInf = false)
    (hy : y.isNaN = false ∧ y.isInf = false) (h : l.write x = l.write y) : x = y := by
  have hparts := takeSign_write l hx.1 hx.2
  rw [h, takeSign_write l hy.1 hy.2] at hparts
  -- the signs are equal, and what follows them is read as one decimal
  obtain ⟨hnegative, hsize⟩ := Prod.mk.inj hparts
  obtain ⟨d, hd, hx⟩ := writes_size l x
  obtain ⟨e, he, hy⟩ := writes_size l y
  rw [hsize, hd] at he
  obtain rfl : d = e := (Prod.mk.inj (Option.some.inj he)).1
  exact eq_of_value_ofFloat hnegative.symm (hx.symm.trans hy)

/-! ## Marks of a double -/

/-- **The text of a double has a point or an exponent**, if whole numbers are written with one. -/
theorem mem_size {l : Layout} (hl : l.wholePoint = true) (x : Float) :
    '.' ∈ l.size x ∨ 'e' ∈ l.size x := by
  have hplace : ∀ digits point, '.' ∈ l.place digits point := fun digits point => by
    unfold place
    split
    · simp
    · cases hfraction : (digits.drop point.toNat).isEmpty <;> simp [hfraction]
  unfold size
  simp only
  split
  · exact .inl (hplace _ _)
  · split
    · exact .inl (hplace _ _)
    · exact .inr (by simp [withExponent])

end Layout

end SchemaRules.Decimal
