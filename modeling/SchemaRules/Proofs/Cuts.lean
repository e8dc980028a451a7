import SchemaRules.Function.Table
import SchemaRules.Proofs.Canonical
import SchemaRules.Proofs.Occurrences

/-!
# Texts that are cut and glued

A text is cut at the first place of a separator, and then the rest behind it is cut.

* `Text.cut_of_find?`: **one step of cutting**, and `Text.cut_induct`: what passes from the rest
  behind the first place to the text holds of all texts.
* `Text.glue_cut`, `Text.not_isInfix_of_mem_cut`: **the pieces make up the text**, and none contains
  the separator.
* `Text.swap_eq_glue_cut`: **replacing sets another text between the pieces**.
* `pieces_are_joined_again`: all of this for the functions of expressions.
-/

namespace SchemaRules

namespace Text

variable {sep s : List Char}

/-! ## Steps -/

theorem cutFrom_eq_drop (sep : List Char) (skip : Nat) (s : List Char) :
    cutFrom sep skip s = cutFrom sep 0 (s.drop skip) := by
  induction s generalizing skip with
  | nil => cases skip <;> rfl
  | cons c cs ih =>
    cases skip with
    | zero => rfl
    | succ skip => rw [cutFrom, ih, List.drop_succ_cons]

/-- What is behind a separator that stands in front. -/
theorem drop_length_cons (hsep : sep ≠ []) (c : Char) (cs : List Char) :
    cs.drop (sep.length - 1) = (c :: cs).drop (0 + sep.length) := by
  obtain ⟨n, hn⟩ := Nat.exists_eq_succ_of_ne_zero (List.length_pos_of_ne_nil hsep).ne'
  rw [hn, Nat.zero_add, Nat.succ_sub_one, List.drop_succ_cons]

theorem find?_nil (hsep : sep ≠ []) : find? sep [] = none := by
  cases sep with
  | nil => exact absurd rfl hsep
  | cons a p => rfl

theorem cutFrom_of_find?_eq_none (h : find? sep s = none) : cutFrom sep 0 s = [s] := by
  induction s with
  | nil => rfl
  | cons c cs ih =>
    rw [find?] at h
    split at h
    · cases h
    · next hbegins =>
      rw [cutFrom, if_neg hbegins, ih (Option.map_eq_none_iff.1 h), extendHead]

theorem cutFrom_of_find?_eq_some (hsep : sep ≠ []) {i : Nat} (h : find? sep s = some i) :
    cutFrom sep 0 s = s.take i :: cutFrom sep 0 (s.drop (i + sep.length)) := by
  induction s generalizing i with
  | nil =>
    rw [find?_nil hsep] at h
    cases h
  | cons c cs ih =>
    rw [find?] at h
    split at h
    · next hbegins =>
      cases h
      rw [cutFrom, if_pos hbegins, cutFrom_eq_drop, drop_length_cons hsep c, List.take_zero]
    · next hbegins =>
      obtain ⟨k, hk, rfl⟩ := Option.map_eq_some_iff.1 h
      rw [cutFrom, if_neg hbegins, ih hk, extendHead, List.take_succ_cons, Nat.add_right_comm,
        List.drop_succ_cons]

theorem cut_eq_cutFrom (hsep : sep ≠ []) (s : List Char) : cut sep s = cutFrom sep 0 s :=
  if_neg (by simpa [List.isEmpty_iff] using hsep)

/-- **A text is cut at the first place of the separator**, and so is what is behind it. -/
theorem cut_of_find? (hsep : sep ≠ []) (s : List Char) :
    cut sep s =
      match find? sep s with
      | none => [s]
      | some i => s.take i :: cut sep (s.drop (i + sep.length)) := by
  split
  · next h => rw [cut_eq_cutFrom hsep, cutFrom_of_find?_eq_none h]
  · next i h => rw [cut_eq_cutFrom hsep, cut_eq_cutFrom hsep, cutFrom_of_find?_eq_some hsep h]

/-- **What passes from the rest behind the first place to the text** holds of all texts. -/
theorem cut_induct (hsep : sep ≠ []) {P : List Char → Prop}
    (whole : ∀ s, find? sep s = none → P s)
    (step : ∀ s i, find? sep s = some i → P (s.drop (i + sep.length)) → P s) (s : List Char) :
    P s := by
  induction hn : s.length using Nat.strong_induction_on generalizing s with
  | _ n ih =>
    cases hfound : find? sep s with
    | none => exact whole s hfound
    | some i =>
      -- the separator is not empty, so the rest is shorter
      have hle := (isLeast_iff_find?.2 hfound).1.1
      have hpos := List.length_pos_of_ne_nil hsep
      exact step s i hfound (ih _ (by rw [List.length_drop]; omega) _ rfl)

/-! ## Pieces -/

theorem glue_cons {p : List Char} {ps : List (List Char)} (h : ps ≠ []) :
    glue sep (p :: ps) = p ++ sep ++ glue sep ps := by
  cases ps with
  | nil => exact absurd rfl h
  | cons q rest => rw [glue]

theorem glue_extendHead (c : Char) (ps : List (List Char)) :
    glue sep (extendHead c ps) = c :: glue sep ps := by
  cases ps with
  | nil => rfl
  | cons p rest =>
    cases rest with
    | nil => rfl
    | cons q rest => rw [extendHead, glue, glue, List.cons_append, List.cons_append]

theorem cutFrom_ne_nil (sep : List Char) (skip : Nat) (s : List Char) :
    cutFrom sep skip s ≠ [] := by
  induction s generalizing skip with
  | nil => cases skip <;> exact List.cons_ne_nil _ _
  | cons c cs ih =>
    cases skip with
    | succ skip => exact ih skip
    | zero =>
      rw [cutFrom]
      split
      · exact List.cons_ne_nil _ _
      · cases cutFrom sep 0 cs <;> exact List.cons_ne_nil _ _

theorem glue_singletons (s : List Char) : glue [] (s.map fun c => [c]) = s := by
  induction s with
  | nil => rfl
  | cons c cs ih =>
    cases cs with
    | nil => rfl
    | cons d ds =>
      rw [List.map_cons, glue_cons (by simp), ih]
      rfl

/-- **The pieces make up the text.** -/
theorem glue_cut (sep s : List Char) : glue sep (cut sep s) = s := by
  by_cases hsep : sep = []
  · subst hsep
    exact glue_singletons s
  · induction s using cut_induct hsep with
    | whole s h => rw [cut_of_find? hsep, h, glue]
    | step s i h ih =>
      have hoccurs := (isLeast_iff_find?.2 h).1
      have hne : cut sep (s.drop (i + sep.length)) ≠ [] := by
        rw [cut_eq_cutFrom hsep]
        exact cutFrom_ne_nil sep 0 _
      calc glue sep (cut sep s)
          = s.take i ++ sep ++ s.drop (i + sep.length) := by
            rw [cut_of_find? hsep, h, glue_cons hne, ih]
        _ = s.take i ++ (s.drop i).take sep.length ++ (s.drop i).drop sep.length := by
            rw [hoccurs.2, List.drop_drop]
        _ = s := by
            rw [List.append_assoc, List.take_append_drop, List.take_append_drop]

/-- **No piece contains the separator.** -/
theorem not_isInfix_of_mem_cut (hsep : sep ≠ []) {p : List Char} (hp : p ∈ cut sep s) :
    ¬ sep <:+: p := by
  induction s using cut_induct hsep with
  | whole s h =>
    rw [cut_of_find? hsep, h, List.mem_singleton] at hp
    subst hp
    rw [isInfix_iff, not_exists]
    exact find?_eq_none_iff.1 h
  | step s i h ih =>
    rw [cut_of_find? hsep, h] at hp
    rcases List.mem_cons.1 hp with rfl | hp
    · -- a separator in front of the first place would end there, so it would begin before it
      rw [isInfix_iff]
      rintro ⟨j, hj⟩
      obtain ⟨hoccurs, hend⟩ := hj.of_take
      have hle := (isLeast_iff_find?.2 h).2 hoccurs
      have hpos := List.length_pos_of_ne_nil hsep
      omega
    · exact ih hp

/-- Replacing and cutting go along a text in the same way. -/
theorem swapFrom_eq_glue (old new : List Char) (skip : Nat) (s : List Char) :
    swapFrom old new skip s = glue new (cutFrom old skip s) := by
  induction s generalizing skip with
  | nil => cases skip <;> rfl
  | cons c cs ih =>
    cases skip with
    | succ skip => exact ih skip
    | zero =>
      rw [swapFrom, cutFrom]
      split
      · rw [ih, glue_cons (cutFrom_ne_nil _ _ _), List.nil_append]
      · rw [ih, glue_extendHead]

/-- **Replacing a text sets the new one between the pieces.** -/
theorem swap_eq_glue_cut (hsep : sep ≠ []) (new s : List Char) :
    swap sep new s = glue new (cut sep s) := by
  rw [cut_eq_cutFrom hsep, ← swapFrom_eq_glue]
  exact if_neg (by simpa [List.isEmpty_iff] using hsep)

end Text

/-! ## Functions -/

namespace Answer

theorem join_texts (parts : List String) (sep : String) :
    join (.list (parts.map .str)) sep = .ok (.str (Text.joinWith sep parts)) := by
  have hpart : ∀ part : String, joinable (.str part) = .ok part := fun _ => rfl
  rw [join, mapM_map_eq_ok hpart]
  rfl

/-- Gluing the pieces of a text with another one between them. -/
theorem joinWith_split (s sep t : String) :
    Text.joinWith t (split s sep) =
      String.ofList (Text.glue t.toList (Text.cut sep.toList s.toList)) := by
  rw [Text.joinWith, split, List.map_map]
  congr 2
  exact (List.map_congr_left fun p _ => String.toList_ofList).trans (List.map_id _)

end Answer

/-- **The pieces of a text are joined again.** The pieces that a separator cuts a text into, joined
by the separator, are the text, also if the separator is empty. If it is not, no piece contains it,
and the text with another one in place of the separator is the pieces joined by the other one. -/
theorem pieces_are_joined_again (s sep t : String) :
    ∃ parts : List String,
      Function.split.apply (.method (.str s) [.str sep]) = .ok (.list (parts.map .str)) ∧
      Function.join.apply (.method (.list (parts.map .str)) [.str sep]) = .ok (.str s) ∧
      (sep ≠ "" → (∀ part ∈ parts, ¬ sep.toList <:+: part.toList) ∧
        ∃ r, Function.replace.apply (.method (.str s) [.str sep, .str t]) = .ok (.str r) ∧
          Function.join.apply (.method (.list (parts.map .str)) [.str t]) = .ok (.str r)) := by
  have hjoin : ∀ t : String,
      Function.join.apply (.method (.list ((Answer.split s sep).map .str)) [.str t]) =
        .ok (.str (String.ofList (Text.glue t.toList (Text.cut sep.toList s.toList)))) := by
    intro t
    rw [← Answer.joinWith_split]
    exact Answer.join_texts _ t
  refine ⟨Answer.split s sep, rfl, ?_, fun hsep => ?_⟩
  · rw [hjoin, Text.glue_cut, String.ofList_toList]
  · have hne : sep.toList ≠ [] := fun h => hsep (String.toList_eq_nil_iff.1 h)
    refine ⟨fun part hpart => ?_, _, rfl, ?_⟩
    · obtain ⟨p, hp, rfl⟩ := List.mem_map.1 hpart
      rw [String.toList_ofList]
      exact Text.not_isInfix_of_mem_cut hne hp
    · rw [hjoin, ← Text.swap_eq_glue_cut hne]
      rfl

/-- A separator that overlaps itself cuts at the leftmost places. -/
theorem overlapping_places_are_cut_once :
    "aa" ≠ "" ∧ ∃ parts : List String,
      Function.split.apply (.method (.str "aaaaa") [.str "aa"]) = .ok (.list (parts.map .str)) ∧
      parts.map Value.str = [.str "", .str "", .str "a"] ∧
      Function.join.apply (.method (.list (parts.map .str)) [.str "aa"]) = .ok (.str "aaaaa") ∧
      (∀ part ∈ parts, ¬ "aa".toList <:+: part.toList) ∧
      Function.replace.apply (.method (.str "aaaaa") [.str "aa", .str "b"]) = .ok (.str "bba") ∧
      Function.join.apply (.method (.list (parts.map .str)) [.str "b"]) = .ok (.str "bba") := by
  have hne : "aa" ≠ "" := by decide
  obtain ⟨parts, hsplit, hjoin, hparts⟩ := pieces_are_joined_again "aaaaa" "aa" "b"
  obtain ⟨hno, r, hreplace, hjoined⟩ := hparts hne
  have hpieces : Function.split.apply (.method (.str "aaaaa") [.str "aa"]) =
      .ok (.list [.str "", .str "", .str "a"]) := rfl
  have hnew : Function.replace.apply (.method (.str "aaaaa") [.str "aa", .str "b"]) =
      .ok (.str "bba") := rfl
  have hlist := Except.ok.inj (hsplit.symm.trans hpieces)
  have hr := Except.ok.inj (hreplace.symm.trans hnew)
  exact ⟨hne, parts, hsplit, Value.list.inj hlist, hjoin, hno, hnew, hr ▸ hjoined⟩

end SchemaRules
