import SchemaRules.Function.Table
import SchemaRules.Proofs.Occurrences

/-!
# Positions in texts

The functions on texts count characters. Where one finds a text is where another one slices it.

* `Text.part`: **the part of a text between two positions**. Parts of neighbours make up the part of
  both (`Text.part_append`).
* `Answer.substring_eq`, `Answer.charAt_eq`: **parts are what is sliced**, and
  `Answer.substring_eq_error`, `Answer.charAt_eq_error`: positions outside of a text are refused.
* `Text.places`: where slicing gives a text. `Text.places_eq`: these are the places at which it
  occurs.
* `positions_count_characters`: all of this for the functions of expressions.
-/

namespace SchemaRules

namespace Text

/-- **The part of a text** from a position up to another one. -/
def part (s : String) (i j : Nat) : String :=
  String.ofList ((s.toList.drop i).take (j - i))

variable {s : String} {i j k : Nat}

theorem length_part (hij : i ≤ j) (hj : j ≤ s.length) : (part s i j).length = j - i := by
  rw [part, String.length_ofList, List.length_take, List.length_drop, String.length_toList]
  omega

theorem part_append (hij : i ≤ j) (hjk : j ≤ k) : part s i j ++ part s j k = part s i k := by
  have hdrop : s.toList.drop j = (s.toList.drop i).drop (j - i) := by
    rw [List.drop_drop, Nat.add_sub_cancel' hij]
  have htake : k - i = (j - i) + (k - j) := by omega
  rw [part, part, part, ← String.ofList_append, hdrop, htake, List.take_add]

theorem part_length (s : String) : part s 0 s.length = s := by
  rw [part, List.drop_zero, Nat.sub_zero, ← String.length_toList, List.take_length,
    String.ofList_toList]

theorem part_of_length_le (h : s.length ≤ i) : part s i j = "" := by
  rw [part, List.drop_eq_nil_of_le (by rwa [String.length_toList]), List.take_nil,
    String.ofList_nil]

theorem part_eq_singleton (h : i < s.length) : ∃ c, part s i (i + 1) = String.singleton c := by
  have hlt : i < s.toList.length := by rwa [String.length_toList]
  refine ⟨s.toList[i], ?_⟩
  rw [part, List.drop_eq_getElem_cons hlt, Nat.add_sub_cancel_left, List.take_succ_cons,
    List.take_zero, String.singleton_eq_ofList]

end Text

open Text (part)

/-- **A whole number as a value**, signed or unsigned. -/
inductive Value.IsWhole : Value → Int → Prop
  | int (n : Int) : IsWhole (.int n) n
  | uint (n : Nat) : IsWhole (.uint n) n

/-! ## Slices -/

namespace Answer

variable {s function : String} {v w : Value} {a b : Int} {i j : Nat}

theorem position_eq (h : v.IsWhole i) : position function v = .ok i := by
  cases h with
  | int => rw [position, if_pos (Int.natCast_nonneg i), Int.toNat_natCast]
  | uint => rfl

theorem position_eq_error (function : String) (h : v.IsWhole a) (ha : a < 0) :
    ∃ message, position function v = .error (.function function message) := by
  cases h with
  | int => exact ⟨_, if_neg (Int.not_le.2 ha)⟩
  | uint n => omega

/-- **A slice between positions of the text is the part between them.** -/
theorem substring_eq (hv : v.IsWhole i) (hw : w.IsWhole j) (hij : i ≤ j) (hj : j ≤ s.length) :
    substring s v w = .ok (.str (part s i j)) := by
  have hin : ¬ (i > j ∨ j > s.toList.length) := by
    rw [String.length_toList]
    omega
  simp only [substring, position_eq hv, position_eq hw, bind, Except.bind, if_neg hin]
  rfl

/-- **Other positions are refused.** -/
theorem substring_eq_error (hv : v.IsWhole a) (hw : w.IsWhole b)
    (h : ¬ (0 ≤ a ∧ a ≤ b ∧ b ≤ s.length)) :
    ∃ message, substring s v w = .error (.function "substring" message) := by
  by_cases ha : a < 0
  · obtain ⟨message, hmessage⟩ := position_eq_error "substring" hv ha
    exact ⟨message, by simp only [substring, hmessage, bind, Except.bind]⟩
  obtain ⟨i, rfl⟩ := Int.eq_ofNat_of_zero_le (Int.not_lt.1 ha)
  by_cases hb : b < 0
  · obtain ⟨message, hmessage⟩ := position_eq_error "substring" hw hb
    exact ⟨message, by simp only [substring, position_eq hv, hmessage, bind, Except.bind]⟩
  obtain ⟨j, rfl⟩ := Int.eq_ofNat_of_zero_le (Int.not_lt.1 hb)
  have hout : i > j ∨ j > s.toList.length := by
    rw [String.length_toList]
    omega
  simp only [substring, position_eq hv, position_eq hw, bind, Except.bind, if_pos hout]
  exact ⟨_, rfl⟩

/-- **The character at a position is a part of length one**, and at the end it is empty. -/
theorem charAt_eq (hv : v.IsWhole i) (hi : i ≤ s.length) :
    charAt s v = .ok (.str (part s i (i + 1))) := by
  have hin : ¬ i > s.toList.length := by
    rw [String.length_toList]
    omega
  simp only [charAt, position_eq hv, bind, Except.bind, if_neg hin, part, Nat.add_sub_cancel_left]
  rfl

theorem charAt_eq_error (hv : v.IsWhole a) (h : ¬ (0 ≤ a ∧ a ≤ s.length)) :
    ∃ message, charAt s v = .error (.function "charAt" message) := by
  by_cases ha : a < 0
  · obtain ⟨message, hmessage⟩ := position_eq_error "charAt" hv ha
    exact ⟨message, by simp only [charAt, hmessage, bind, Except.bind]⟩
  obtain ⟨i, rfl⟩ := Int.eq_ofNat_of_zero_le (Int.not_lt.1 ha)
  have hout : i > s.toList.length := by
    rw [String.length_toList]
    omega
  simp only [charAt, position_eq hv, bind, Except.bind, if_pos hout]
  exact ⟨_, rfl⟩

end Answer

/-! ## Places -/

/-- **The places at which slicing gives a text.** -/
def Text.places (s sub : String) : Set Nat :=
  {i | i + sub.length ≤ s.length ∧
    Function.substring.apply (.method (.str s) [.int i, .int ((i + sub.length : Nat) : Int)]) =
      .ok (.str sub)}

theorem Text.places_eq (s sub : String) :
    places s sub = {i | OccursAt sub.toList s.toList i} := by
  ext i
  rw [places, Set.mem_ofPred_eq, Set.mem_ofPred_eq, OccursAt, String.length_toList,
    String.length_toList]
  refine and_congr_right fun hle => ?_
  have hslice : Function.substring.apply
      (.method (.str s) [.int i, .int ((i + sub.length : Nat) : Int)]) =
        .ok (.str (part s i (i + sub.length))) :=
    Answer.substring_eq (.int _) (.int _) (Nat.le_add_right _ _) hle
  rw [hslice, Except.ok.injEq, Value.str.injEq, part, Nat.add_sub_cancel_left,
    ← String.toList_inj, String.toList_ofList]

namespace Answer

theorem orMinusOne_eq_natCast_iff {o : Option Nat} {i : Nat} :
    orMinusOne o = i ↔ o = some i := by
  cases o with
  | none => simp [orMinusOne]
  | some k => rw [orMinusOne, Int.natCast_inj, Option.some.injEq]

theorem orMinusOne_eq_neg_one_iff {o : Option Nat} : orMinusOne o = -1 ↔ o = none := by
  cases o with
  | none => simp [orMinusOne]
  | some k => simp [orMinusOne]

end Answer

/-! ## Functions -/

/-- **How a text is sliced** at two whole numbers, given as values. -/
structure SlicesAt (s : String) (v w : Value) (a b : Int) : Prop where
  part : 0 ≤ a → a ≤ b → b ≤ s.length → ∃ front part back, s = front ++ part ++ back ∧
    (front.length : Int) = a ∧ (part.length : Int) = b - a ∧
    Function.substring.apply (.method (.str s) [v, w]) = .ok (.str part)
  outside : ¬ (0 ≤ a ∧ a ≤ b ∧ b ≤ s.length) → ∃ message,
    Function.substring.apply (.method (.str s) [v, w]) = .error (.function "substring" message)
  halves : 0 ≤ a → a ≤ s.length → ∃ front back,
    Function.substring.apply (.method (.str s) [.int 0, v]) = .ok (.str front) ∧
    Function.substring.apply (.method (.str s) [v, .int s.length]) = .ok (.str back) ∧
    Value.add (.str front) (.str back) = .ok (.str s)
  character : 0 ≤ a → a < s.length → ∃ c : Char,
    Function.charAt.apply (.method (.str s) [v]) = .ok (.str (String.singleton c)) ∧
    Function.substring.apply (.method (.str s) [v, .int (a + 1)]) = .ok (.str (String.singleton c))
  atEnd : a = s.length → Function.charAt.apply (.method (.str s) [v]) = .ok (.str "")
  noCharacter : ¬ (0 ≤ a ∧ a ≤ s.length) → ∃ message,
    Function.charAt.apply (.method (.str s) [v]) = .error (.function "charAt" message)

theorem slicesAt {s : String} {v w : Value} {a b : Int} (hv : v.IsWhole a) (hw : w.IsWhole b) :
    SlicesAt s v w a b := by
  constructor
  · intro ha hab hb
    obtain ⟨i, rfl⟩ := Int.eq_ofNat_of_zero_le ha
    obtain ⟨j, rfl⟩ := Int.eq_ofNat_of_zero_le (ha.trans hab)
    have hij : i ≤ j := Int.ofNat_le.1 hab
    have hj : j ≤ s.length := Int.ofNat_le.1 hb
    refine ⟨part s 0 i, part s i j, part s j s.length, ?_, ?_, ?_, Answer.substring_eq hv hw hij hj⟩
    · rw [Text.part_append (Nat.zero_le i) hij, Text.part_append (Nat.zero_le j) hj,
        Text.part_length]
    · rw [Text.length_part (Nat.zero_le i) (hij.trans hj), Nat.sub_zero]
    · rw [Text.length_part hij hj, Int.ofNat_sub hij]
  · exact Answer.substring_eq_error hv hw
  · intro ha hs
    obtain ⟨i, rfl⟩ := Int.eq_ofNat_of_zero_le ha
    have hi : i ≤ s.length := Int.ofNat_le.1 hs
    refine ⟨part s 0 i, part s i s.length, ?_, ?_, ?_⟩
    · exact Answer.substring_eq (.int (0 : Nat)) hv (Nat.zero_le i) hi
    · exact Answer.substring_eq hv (.int _) hi (Nat.le_refl _)
    · rw [Value.add, Text.part_append (Nat.zero_le i) hi, Text.part_length]
  · intro ha hs
    obtain ⟨i, rfl⟩ := Int.eq_ofNat_of_zero_le ha
    have hi : i < s.length := Int.ofNat_lt.1 hs
    obtain ⟨c, hc⟩ := Text.part_eq_singleton hi
    refine ⟨c, hc ▸ Answer.charAt_eq hv hi.le, hc ▸ ?_⟩
    exact Answer.substring_eq hv (.int ((i + 1 : Nat) : Int)) (Nat.le_succ i) hi
  · rintro rfl
    have hlast := Answer.charAt_eq hv (Nat.le_refl s.length)
    rwa [Text.part_of_length_le (Nat.le_refl _)] at hlast
  · exact Answer.charAt_eq_error hv

/-- **Positions count characters, for searching and for slicing.** The first position of a text is
the least one from which slicing by its length gives it, and the last position the greatest one;
both are -1 exactly if there is none, and the empty text is found at the start and at the end.
Slicing at whole numbers of either kind gives a part that begins and ends there, and a fault of the
function where the numbers are no positions. So does taking a character, which is a slice of length
one, or empty at the end. -/
theorem positions_count_characters (s sub : String) :
    (∃ r : Int, Function.indexOf.apply (.method (.str s) [.str sub]) = .ok (.int r) ∧
      (∀ i : Nat, r = i ↔ IsLeast (Text.places s sub) i) ∧ (r = -1 ↔ Text.places s sub = ∅)) ∧
    (∃ r : Int, Function.lastIndexOf.apply (.method (.str s) [.str sub]) = .ok (.int r) ∧
      (∀ i : Nat, r = i ↔ IsGreatest (Text.places s sub) i) ∧ (r = -1 ↔ Text.places s sub = ∅)) ∧
    Function.indexOf.apply (.method (.str s) [.str ""]) = .ok (.int 0) ∧
    Function.lastIndexOf.apply (.method (.str s) [.str ""]) = .ok (.int s.length) ∧
    ∀ v w a b, v.IsWhole a → w.IsWhole b → SlicesAt s v w a b := by
  have hempty : Text.places s sub = ∅ ↔ ∀ i, ¬ Text.OccursAt sub.toList s.toList i := by
    rw [Text.places_eq]
    exact Set.eq_empty_iff_forall_notMem
  refine ⟨⟨_, rfl, fun i => ?_, ?_⟩, ⟨_, rfl, fun i => ?_, ?_⟩, ?_, ?_,
    fun v w a b hv hw => slicesAt hv hw⟩
  · rw [Text.places_eq, Text.isLeast_iff_find?]
    exact Answer.orMinusOne_eq_natCast_iff
  · rw [hempty, ← Text.find?_eq_none_iff]
    exact Answer.orMinusOne_eq_neg_one_iff
  · rw [Text.places_eq, Text.isGreatest_iff_findLast?]
    exact Answer.orMinusOne_eq_natCast_iff
  · rw [hempty, ← Text.findLast?_eq_none_iff]
    exact Answer.orMinusOne_eq_neg_one_iff
  · have hfirst : Text.find? "".toList s.toList = some 0 :=
      Text.isLeast_iff_find?.1 (Text.isLeast_zero rfl)
    exact congrArg (fun o => Except.ok (Value.int (Answer.orMinusOne o))) hfirst
  · have hlast : Text.findLast? "".toList s.toList = some s.length := by
      rw [← String.length_toList]
      exact Text.isGreatest_iff_findLast?.1
        ⟨⟨Nat.le_refl _, List.take_zero⟩, fun j hj => Nat.le_of_add_right_le hj.1⟩
    exact congrArg (fun o => Except.ok (Value.int (Answer.orMinusOne o))) hlast

/-- A text of three characters with six bytes, in which another one occurs twice and overlaps. -/
theorem umlauts_are_counted_as_characters :
    Value.IsWhole (.uint 1) 1 ∧ Value.IsWhole (.int 3) 3 ∧
    Function.indexOf.apply (.method (.str "ööö") [.str "öö"]) = .ok (.int 0) ∧
    IsLeast (Text.places "ööö" "öö") 0 ∧
    Function.lastIndexOf.apply (.method (.str "ööö") [.str "öö"]) = .ok (.int 1) ∧
    IsGreatest (Text.places "ööö" "öö") 1 ∧
    SlicesAt "ööö" (.uint 1) (.int 3) 1 3 ∧
    Function.substring.apply (.method (.str "ööö") [.uint 1, .int 3]) = .ok (.str "öö") := by
  obtain ⟨⟨first, hfirst, hleast, -⟩, ⟨last, hlast, hgreatest, -⟩, -, -, hslices⟩ :=
    positions_count_characters "ööö" "öö"
  have hzero : Function.indexOf.apply (.method (.str "ööö") [.str "öö"]) = .ok (.int 0) := rfl
  have hone : Function.lastIndexOf.apply (.method (.str "ööö") [.str "öö"]) = .ok (.int 1) := rfl
  have hfirst : first = (0 : Nat) := Value.int.inj (Except.ok.inj (hfirst.symm.trans hzero))
  have hlast : last = (1 : Nat) := Value.int.inj (Except.ok.inj (hlast.symm.trans hone))
  have hv : Value.IsWhole (.uint 1) 1 := .uint 1
  have hw : Value.IsWhole (.int 3) 3 := .int 3
  exact ⟨hv, hw, hzero, (hleast 0).1 hfirst, hone, (hgreatest 1).1 hlast,
    hslices _ _ _ _ hv hw, rfl⟩

end SchemaRules
