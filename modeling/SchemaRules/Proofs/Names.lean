import SchemaRules.Expr.Parser
import SchemaRules.Identifier
import SchemaRules.Proofs.Compilation
import SchemaRules.Proofs.Lookups

/-!
# Names in the text of a rule

An identifier is what the scanner takes for one name, and any key can be put into a quotation. So a
rule can call a variable by its name, and read an entry of it under whatever key.

* `bounds_of_isNamePart`: the characters of names lie between the first digit and the last letter.
* `Token.Scans`: **characters that are scanned to tokens** with fuel for all of them; a token in
  front is taken off at a time (`Scans.cons`).
* `Token.take?_name`: **the longest token in front is the whole name**, by its characters.
* `Token.take?_quotation`, `Literal.text?_quotation`: a quotation is one token, and stands for
  what is quoted.
* `Expr.takeExpr_of_takeUnary`: what no operator follows is the same at all levels.
* `Expr.ofText?_name`, `Expr.ofText?_indexText`: the texts of a name and of an index.
-/

namespace SchemaRules

/-! ## Characters of names -/

/-- Name characters lie between the first digit and the last letter. -/
theorem bounds_of_isNamePart {c : Char} (h : isNamePart c = true) :
    48 ≤ c.toNat ∧ c.toNat ≤ 122 := by
  simp only [isNamePart, Char.isAlphanum, Char.isAlpha, Char.isUpper, Char.isLower, Char.isDigit,
    Bool.or_eq_true, Bool.and_eq_true, decide_eq_true_eq, ge_iff_le, UInt32.le_iff_toNat_le] at h
  rcases h with h | rfl
  · have hc : c.toNat = c.val.toNat := rfl
    have hA : 'A'.val.toNat = 65 := rfl
    have hZ : 'Z'.val.toNat = 90 := rfl
    have ha : 'a'.val.toNat = 97 := rfl
    have hz : 'z'.val.toNat = 122 := rfl
    have h0 : '0'.val.toNat = 48 := rfl
    have h9 : '9'.val.toNat = 57 := rfl
    omega
  · decide

theorem isBlank_of_isNamePart {c : Char} (h : isNamePart c = true) : Text.isBlank c = false := by
  have hc := bounds_of_isNamePart h
  simp [Text.isBlank]
  omega

theorem isNamePart_of_isNameStart {c : Char} (h : isNameStart c = true) : isNamePart c = true := by
  simp only [isNameStart, isNamePart, Char.isAlphanum, Bool.or_eq_true] at h ⊢
  exact h.imp_left .inl

/-- **A text of name characters**, the first of which begins a name. -/
theorem of_isNameText {cs : List Char} (h : isNameText cs = true) :
    cs.all isNamePart = true ∧ ∃ c rest, cs = c :: rest ∧ isNameStart c = true := by
  cases cs with
  | nil => cases h
  | cons c rest =>
    simp only [isNameText, Bool.and_eq_true] at h
    refine ⟨?_, c, rest, rfl, h.1⟩
    rw [List.all_cons, isNamePart_of_isNameStart h.1, h.2]
    rfl

namespace Token

/-! ## Scanning -/

/-- **Characters that are scanned to tokens**, with fuel for one token at each of them. -/
def Scans (cs : List Char) (ts : List Token) : Prop :=
  ∀ fuel, cs.length < fuel → scanFrom fuel cs = some ts

theorem Scans.scan {text : String} {ts : List Token} (h : Scans text.toList ts) :
    scan text = some ts :=
  h _ (Nat.lt_succ_self _)

theorem Scans.nil : Scans [] [] := by
  intro fuel hfuel
  obtain ⟨n, rfl⟩ := Nat.exists_eq_add_of_lt hfuel
  rfl

/-- **A token in front** comes before the tokens of what follows it. -/
theorem Scans.cons {c : Char} {cs rest : List Char} {t : Token} {ts : List Token}
    (hslash : c ≠ '/') (hblank : Text.isBlank c = false)
    (htake : take? (c :: cs) = some (t, rest)) (hrest : rest.length ≤ cs.length)
    (h : Scans rest ts) : Scans (c :: cs) (t :: ts) := by
  intro fuel hfuel
  obtain ⟨n, rfl⟩ : ∃ n, fuel = n + 1 := ⟨fuel - 1, by omega⟩
  rw [List.length_cons] at hfuel
  rw [scanFrom, if_neg (by simp [isComment_cons_of_ne hslash]), if_neg (by simp [hblank])]
  simp only [htake, h n (by omega), Option.map_eq_map, Option.map_some]

/-! ## Names -/

/-- **What may stand behind a name**: no character that would make it longer, nor a quote that would
make a prefix of it. -/
def EndsName (rest : List Char) : Prop :=
  ∀ c ∈ rest.head?, isNamePart c = false ∧ c ≠ '"' ∧ c ≠ '\''

section
variable {p rest : List Char}

/-- A quotation begins with a quote. -/
theorem quotationLength?_eq_none {cs : List Char} (h : ∀ c ∈ cs.head?, c ≠ '"' ∧ c ≠ '\'')
    (raw : Bool) : quotationLength? raw cs = none := by
  cases cs with
  | nil => rfl
  | cons c cs =>
    obtain ⟨hdouble, hsingle⟩ := h c rfl
    exact if_neg (by simp [hdouble, hsingle])

/-- Neither a name nor what ends it begins with a quote. -/
theorem noQuote_of_name (hp : p.all isNamePart = true) (hrest : EndsName rest) :
    ∀ c ∈ (p ++ rest).head?, c ≠ '"' ∧ c ≠ '\'' := by
  intro c hc
  cases p with
  | nil => exact (hrest c hc).2
  | cons d p =>
    rw [List.all_cons, Bool.and_eq_true] at hp
    rw [List.cons_append, List.head?_cons, Option.mem_some_iff] at hc
    have hbounds := bounds_of_isNamePart (hc ▸ hp.1)
    exact ⟨fun h => absurd (h ▸ hbounds.1) (by decide),
      fun h => absurd (h ▸ hbounds.1) (by decide)⟩

/-- A name may begin with the letter of raw quotations, but then no quote follows. -/
theorem stringLength?_eq_none (hp : p.all isNamePart = true) (hrest : EndsName rest) :
    stringLength? (p ++ rest) = none := by
  cases p with
  | nil =>
    cases rest with
    | nil => rfl
    | cons c rest =>
      have hletter : ¬(c = 'r' ∨ c = 'R') := by
        rintro (rfl | rfl)
        · exact absurd (hrest 'r' rfl).1 (by decide)
        · exact absurd (hrest 'R' rfl).1 (by decide)
      rw [List.nil_append, stringLength?, if_neg hletter]
      exact quotationLength?_eq_none (noQuote_of_name hp hrest) false
  | cons c p =>
    rw [List.cons_append, stringLength?]
    split
    · rw [List.all_cons, Bool.and_eq_true] at hp
      rw [quotationLength?_eq_none (noQuote_of_name hp.2 hrest), Option.map_none]
    · exact quotationLength?_eq_none (noQuote_of_name hp hrest) false

/-- A name may begin with the letter of bytes as well, and a raw quotation may follow that, but none
does. -/
theorem takeQuotation?_eq_none (hp : p.all isNamePart = true) (hne : p ≠ [])
    (hrest : EndsName rest) : takeQuotation? (p ++ rest) = none := by
  cases p with
  | nil => exact absurd rfl hne
  | cons c p =>
    have hstring := stringLength?_eq_none hp hrest
    rw [List.all_cons, Bool.and_eq_true] at hp
    have hbytes := stringLength?_eq_none hp.2 hrest
    rw [List.cons_append] at hstring ⊢
    simp only [takeQuotation?, hstring, hbytes, Option.map_none, ite_self]

/-- **The longest token is the whole name.** -/
theorem take?_name (hp : isNameText p = true) (hrest : EndsName rest) :
    take? (p ++ rest) = some (ofWord (String.ofList p), rest) := by
  obtain ⟨hall, c, cs, rfl, hstart⟩ := of_isNameText hp
  have hparts : ∀ d ∈ c :: cs, isNamePart d = true := List.all_eq_true.1 hall
  have hend : rest.takeWhile isNamePart = [] ∧ rest.dropWhile isNamePart = rest := by
    cases rest with
    | nil => exact ⟨rfl, rfl⟩
    | cons d rest =>
      have hd : ¬isNamePart d = true := Bool.eq_false_iff.1 (hrest d rfl).1
      exact ⟨List.takeWhile_cons_of_neg hd, List.dropWhile_cons_of_neg hd⟩
  have htake : (c :: cs ++ rest).takeWhile isNamePart = c :: cs := by
    rw [List.takeWhile_append_of_pos hparts, hend.1, List.append_nil]
  have hdrop : (c :: cs ++ rest).dropWhile isNamePart = rest := by
    rw [List.dropWhile_append_of_pos hparts, hend.2]
  have hquotation := takeQuotation?_eq_none hall (List.cons_ne_nil c cs) hrest
  rw [List.cons_append] at htake hdrop hquotation ⊢
  simp only [take?, hquotation, htake, hdrop]
  exact if_pos hstart

end

/-- An identifier is none of the words that have tokens of their own. -/
theorem ofWord_of_isIdentifier {x : String} (h : isIdentifier x = true) : ofWord x = .ident x := by
  have hnot : ∀ word ∈ reservedWords, x ≠ word := by
    rintro word hword rfl
    simp [isIdentifier, hword] at h
  unfold ofWord
  split
  · exact absurd rfl (hnot "true" (by decide))
  · exact absurd rfl (hnot "false" (by decide))
  · exact absurd rfl (hnot "null" (by decide))
  · exact absurd rfl (hnot "in" (by decide))
  · rfl

/-- **An identifier is scanned to a name.** -/
theorem Scans.name {x : String} (hx : isIdentifier x = true) {rest : List Char} {ts : List Token}
    (hrest : EndsName rest) (h : Scans rest ts) : Scans (x.toList ++ rest) (.ident x :: ts) := by
  have htext := (Bool.and_eq_true_iff.1 hx).1
  have htake := take?_name htext hrest
  rw [String.ofList_toList, ofWord_of_isIdentifier hx] at htake
  obtain ⟨-, c, cs, hcs, hstart⟩ := of_isNameText htext
  have hpart := isNamePart_of_isNameStart hstart
  rw [hcs, List.cons_append] at htake ⊢
  refine .cons ?_ (isBlank_of_isNamePart hpart) htake ?_ h
  · rintro rfl
    exact absurd hpart (by decide)
  · rw [List.length_append]
    omega

/-! ## Quotations -/

/-- A character inside double quotes; the quote itself, a backslash and the ends of lines have
escapes. -/
def quoteChar (c : Char) : List Char :=
  if c = '"' then ['\\', '"']
  else if c = '\\' then ['\\', '\\']
  else if c = '\n' then ['\\', 'n']
  else if c = '\r' then ['\\', 'r']
  else [c]

/-- The characters inside a quotation, and the quote that closes it. -/
def quotedBody (cs : List Char) : List Char :=
  cs.flatMap quoteChar ++ ['"']

/-- **A text in double quotes.** -/
def quotation (cs : List Char) : List Char :=
  '"' :: quotedBody cs

/-- A character is quoted by an escape or stands for itself. -/
theorem quoteChar_cases (c : Char) :
    (∃ e, quoteChar c = ['\\', e] ∧ (∀ rest, escapeLength (e :: rest) = 1) ∧
      ∀ rest, Literal.takeEscape? '"' (e :: rest) = some ([c], rest)) ∨
    (quoteChar c = [c] ∧ c ≠ '"' ∧ c ≠ '\\' ∧ c ≠ '\n' ∧ c ≠ '\r') := by
  unfold quoteChar
  split
  · next h =>
    subst h
    exact .inl ⟨'"', rfl, fun _ => rfl, fun _ => rfl⟩
  · split
    · next h =>
      subst h
      exact .inl ⟨'\\', rfl, fun _ => rfl, fun _ => rfl⟩
    · split
      · next h =>
        subst h
        exact .inl ⟨'n', rfl, fun _ => rfl, fun _ => rfl⟩
      · split
        · next h =>
          subst h
          exact .inl ⟨'r', rfl, fun _ => rfl, fun _ => rfl⟩
        · next hquote hslash hline hreturn =>
          exact .inr ⟨rfl, hquote, hslash, hline, hreturn⟩

theorem quotedBody_cons (c : Char) (cs : List Char) :
    quotedBody (c :: cs) = quoteChar c ++ quotedBody cs := by
  rw [quotedBody, List.flatMap_cons, List.append_assoc]
  rfl

/-- Every character takes one place at least. -/
theorem length_le_quotedBody (cs : List Char) : cs.length + 1 ≤ (quotedBody cs).length := by
  induction cs with
  | nil => exact Nat.le_refl 1
  | cons c cs ih =>
    rw [quotedBody_cons, List.length_append, List.length_cons]
    rcases quoteChar_cases c with ⟨e, hc, -, -⟩ | ⟨hc, -⟩
    · rw [hc, List.length_cons]
      omega
    · rw [hc, List.length_cons]
      omega

theorem beginsWith_singleton_of_ne {q c : Char} (h : c ≠ q) (cs : List Char) :
    Text.beginsWith [q] (c :: cs) = false := by
  simp [Text.beginsWith, Text.after?, h.symm]

variable {rest : List Char}

/-- **The quotation ends where it is closed**, by its characters. -/
theorem bodyLength?_quotedBody (cs : List Char) : ∀ fuel, cs.length < fuel →
    bodyLength? false ['"'] fuel (quotedBody cs ++ rest) = some (quotedBody cs).length := by
  induction cs with
  | nil =>
    intro fuel hfuel
    obtain ⟨n, rfl⟩ := Nat.exists_eq_add_of_lt hfuel
    rfl
  | cons c cs ih =>
    intro fuel hfuel
    obtain ⟨n, rfl⟩ : ∃ n, fuel = n + 1 := ⟨fuel - 1, by omega⟩
    rw [List.length_cons] at hfuel
    have hbody := ih n (by omega)
    rw [quotedBody_cons, List.append_assoc, List.length_append]
    rcases quoteChar_cases c with ⟨e, hc, hescape, -⟩ | ⟨hc, hquote, hslash, hline, hreturn⟩
    · have hbegins := beginsWith_singleton_of_ne (q := '"') (c := '\\') (by decide)
      simp [hc, bodyLength?, hbegins, hescape, hbody]
      omega
    · have hbegins := beginsWith_singleton_of_ne hquote
      simp [hc, bodyLength?, hbegins, hslash, hline, hreturn, hbody, Nat.add_comm]

/-- Of a quotation one quote opens, not three. -/
theorem after?_long (cs : List Char) (hrest : ∀ c ∈ rest.head?, c ≠ '"') :
    Text.after? ['"', '"', '"'] (quotation cs ++ rest) = none := by
  cases cs with
  | nil =>
    cases rest with
    | nil => rfl
    | cons d rest =>
      have hd : '"' ≠ d := (hrest d rfl).symm
      simp [quotation, quotedBody, Text.after?, hd]
  | cons c cs =>
    rw [quotation, quotedBody_cons]
    rcases quoteChar_cases c with ⟨e, hc, -, -⟩ | ⟨hc, hquote, -, -, -⟩
    · simp [hc, Text.after?]
    · simp [hc, Text.after?, hquote.symm]

/-- **A quotation is one token.** -/
theorem take?_quotation (cs : List Char) (hrest : ∀ c ∈ rest.head?, c ≠ '"') :
    take? (quotation cs ++ rest) = some (.quoted (quotation cs), rest) := by
  have hfuel : cs.length < (quotedBody cs ++ rest).length + 1 := by
    have hle := length_le_quotedBody cs
    rw [List.length_append]
    omega
  have hlong := after?_long cs hrest
  have hbody : bodyLength? false ['"'] ((quotedBody cs ++ rest).length + 1)
      (quotedBody cs ++ rest) = some (quotedBody cs).length :=
    bodyLength?_quotedBody cs _ hfuel
  rw [quotation, List.cons_append] at hlong
  have hlength : quotationLength? false ('"' :: (quotedBody cs ++ rest)) =
      some (quotation cs).length := by
    rw [quotationLength?, if_pos (.inl rfl)]
    simp only [hlong, Option.bind_none, hbody, Option.map_some]
    rfl
  have htake : takeQuotation? (quotation cs ++ rest) =
      some (.quoted ((quotation cs ++ rest).take (quotation cs).length),
        (quotation cs ++ rest).drop (quotation cs).length) := by
    have hstring : stringLength? (quotation cs ++ rest) = some (quotation cs).length := hlength
    rw [quotation, List.cons_append] at hstring ⊢
    simp [takeQuotation?, hstring]
  rw [List.take_left, List.drop_left] at htake
  rw [quotation, List.cons_append] at htake ⊢
  simp only [take?, htake]

end Token

/-- **A quotation stands for what is quoted.** -/
theorem Literal.textFrom_quotedBody (cs : List Char) : ∀ fuel, cs.length + 1 < fuel →
    textFrom fuel (some '"') (Token.quotedBody cs) = some cs := by
  induction cs with
  | nil =>
    intro fuel hfuel
    obtain ⟨n, rfl⟩ : ∃ n, fuel = n + 2 := ⟨fuel - 2, by omega⟩
    rfl
  | cons c cs ih =>
    intro fuel hfuel
    obtain ⟨n, rfl⟩ : ∃ n, fuel = n + 1 := ⟨fuel - 1, by omega⟩
    rw [List.length_cons] at hfuel
    have hbody := ih n (by omega)
    rw [Token.quotedBody_cons]
    rcases Token.quoteChar_cases c with ⟨e, hc, -, hescape⟩ | ⟨hc, hquote, hslash, -, -⟩
    · simp [hc, textFrom, hescape, hbody]
    · simp [hc, textFrom, hquote, hslash, hbody]

theorem Literal.text?_quotation (cs : List Char) :
    text? (Token.quotation cs) = some (.str (String.ofList cs)) := by
  have hle := Token.length_le_quotedBody cs
  have htext : text? (Token.quotation cs) =
      (textFrom ((Token.quotedBody cs).length + 1) (some '"') (Token.quotedBody cs)).map
        fun cs => .str (String.ofList cs) := rfl
  rw [htext, textFrom_quotedBody cs _ (by omega), Option.map_some]

namespace Expr

/-! ## Trees -/

section
variable {ts rest : List Token} {e : Expr}

/-- Operands that no operator of the levels follows. -/
theorem foldl_takeLevel {ls : List Level} {operand : Parser Expr}
    (h : operand ts = some (e, rest))
    (hends : ∀ m more, rest = .mark m :: more → ∀ level ∈ ls, level.lookup m = none) :
    ls.foldl (fun operand level => takeLevel level operand) operand ts = some (e, rest) := by
  induction ls generalizing operand with
  | nil => exact h
  | cons level ls ih =>
    have hoperands : ∀ fuel, takeOperands level operand fuel e rest = some (e, rest) := by
      intro fuel
      cases fuel with
      | zero => rfl
      | succ fuel =>
        unfold takeOperands
        split
        · next m more => rw [(List.forall_mem_cons.1 (hends m more rfl)).1]
        · rfl
    have hlevel : takeLevel level operand ts = some (e, rest) := by
      simp only [takeLevel, h, Option.bind_eq_bind, Option.bind_some, hoperands]
    exact ih hlevel fun m more hm => (List.forall_mem_cons.1 (hends m more hm)).2

/-- **An expression that no operator follows** is the same at all levels. -/
theorem takeExpr_of_takeUnary {depth : Nat} (h : takeUnary (takeExpr depth) ts = some (e, rest))
    (hends : ∀ m more, rest = .mark m :: more →
      m ≠ "?" ∧ ∀ level ∈ levels, level.lookup m = none) :
    takeExpr (depth + 1) ts = some (e, rest) := by
  have hoperation : takeOperation (takeExpr depth) ts = some (e, rest) :=
    foldl_takeLevel h fun m more hm => (hends m more hm).2
  simp only [takeExpr, hoperation, Option.bind_eq_bind, Option.bind_some]
  -- only a choice goes on behind an operation
  split
  · exact absurd rfl (hends _ _ rfl).1
  · rfl

end

/-- The text of a literal between the brackets of an index. -/
theorem takeExpr_quoted {text : List Char} {v : Value} (h : Literal.text? text = some v)
    (depth : Nat) (rest : List Token) :
    takeExpr (depth + 1) (.quoted text :: .mark "]" :: rest) =
      some (literal v, .mark "]" :: rest) := by
  refine takeExpr_of_takeUnary ?_ ?_
  · have hprimary : takePrimary (takeExpr depth) (.quoted text :: .mark "]" :: rest) =
        (Literal.text? text).map fun v => (literal v, .mark "]" :: rest) := rfl
    have hmember : takeUnary (takeExpr depth) (.quoted text :: .mark "]" :: rest) =
        takeMember (takeExpr depth) (.quoted text :: .mark "]" :: rest) := rfl
    rw [hmember, takeMember, hprimary, h]
    rfl
  · rintro m more ⟨⟩
    decide

theorem takeExpr_index {x : String} {text : List Char} {v : Value}
    (h : Literal.text? text = some v) :
    takeExpr depthLimit [.ident x, .mark "[", .quoted text, .mark "]"] =
      some (binary .index (name x) (literal v), []) := by
  refine takeExpr_of_takeUnary ?_ (by rintro m more ⟨⟩)
  have hindex := takeExpr_quoted h 94 []
  have hmember : takeUnary (takeExpr 95) [.ident x, .mark "[", .quoted text, .mark "]"] =
      (takeExpr 95 [.quoted text, .mark "]"]).bind fun i =>
        (takeMark "]" i.2).bind fun closed =>
          takeSuffixes (takeExpr 95) 2 (binary .index (name x) i.1) closed.2 := rfl
  rw [hmember, hindex]
  rfl

/-- **An identifier is read as a name.** -/
theorem ofText?_name {x : String} (h : isIdentifier x = true) : ofText? x = some (name x) := by
  have hscan : Token.Scans (x.toList ++ []) [.ident x] := .name h (by simp [Token.EndsName]) .nil
  rw [List.append_nil] at hscan
  exact ofText?_of_scan _ hscan.scan rfl

/-- **The text of an index** of a variable by a key. -/
def indexText (x key : String) : String :=
  String.ofList (x.toList ++ '[' :: (Token.quotation key.toList ++ [']']))

/-- **Every key can be written** between the brackets of an index. -/
theorem ofText?_indexText {x : String} (h : isIdentifier x = true) (key : String) :
    ofText? (indexText x key) = some (indexed (name x) key) := by
  have hclose : Token.Scans [']'] [.mark "]"] :=
    .cons (by decide) (by decide) rfl (Nat.le_refl 0) .nil
  have hquotation : Token.Scans (Token.quotation key.toList ++ [']'])
      [.quoted (Token.quotation key.toList), .mark "]"] := by
    have htake : Token.take? (Token.quotation key.toList ++ [']']) =
        some (.quoted (Token.quotation key.toList), [']']) :=
      Token.take?_quotation key.toList (by simp)
    exact .cons (by decide) (by decide) htake (by simp [List.length_append]) hclose
  have hindex : Token.Scans ('[' :: (Token.quotation key.toList ++ [']']))
      [.mark "[", .quoted (Token.quotation key.toList), .mark "]"] :=
    .cons (by decide) (by decide) rfl (Nat.le_refl _) hquotation
  have hends : Token.EndsName ('[' :: (Token.quotation key.toList ++ [']'])) := by
    simp only [Token.EndsName, List.head?_cons, Option.mem_some_iff, forall_eq']
    decide
  have hscan : Token.Scans (indexText x key).toList
      [.ident x, .mark "[", .quoted (Token.quotation key.toList), .mark "]"] := by
    rw [indexText, String.toList_ofList]
    exact .name h hends hindex
  have hliteral := Literal.text?_quotation key.toList
  rw [String.ofList_toList] at hliteral
  exact ofText?_of_scan _ hscan.scan (takeExpr_index hliteral)

/-- A quote and the end of a line are escaped. -/
example : indexText "self" "\"\n" = "self[\"\\\"\\n\"]" := by decide +kernel

end Expr

end SchemaRules
