import Mathlib.Data.List.Basic
import SchemaRules.Rule.Reader

/-!
# Rules as JSON text

A rule is written as an object with two texts, and reading gives the rule again, whatever the two
texts hold.

* `Json.Escapes`: what stands for a character between quotes. `Json.escapes_escape`: **it is what is
  written**.
* `Json.Takes`: a reader takes a text off in front of what follows. `Json.Takes.bind`: **steps take
  one text after the other**.
* `Json.takes_text`: **a text is read from its quotation**, by induction on its characters.
* `text_of_a_rule_is_read_back`: what this says of rules.
-/

namespace SchemaRules

namespace Json

/-! ## Escapes -/

/-- The characters with an escape of one letter. -/
def letters : List (Char × Char) :=
  [('"', '"'), ('\\', '\\'), ('\x08', 'b'), ('\x0c', 'f'), ('\n', 'n'), ('\r', 'r'), ('\t', 't')]

/-- The digits of radix 16. -/
def hexDigits : List Char :=
  "0123456789abcdef".toList

/-- **What stands for a character between quotes**: an escape of one letter where there is one, for
the other controls an escape by two lower-case digits, and every other character itself. -/
inductive Escapes (c : Char) : List Char → Prop
  | letter {d : Char} : (c, d) ∈ letters → Escapes c ['\\', d]
  | control {high low : Nat} {x y : Char} : (∀ d, (c, d) ∉ letters) → c.toNat < 0x20 →
      c.toNat = 16 * high + low → hexDigits[high]? = some x → hexDigits[low]? = some y →
        Escapes c ['\\', 'u', '0', '0', x, y]
  | itself : (∀ d, (c, d) ∉ letters) → 0x20 ≤ c.toNat → Escapes c [c]

theorem hexDigits_getElem? {n : Nat} (hn : n < 16) : hexDigits[n]? = some (hexDigit n) := by
  have hall : ∀ n < 16, hexDigits[n]? = some (hexDigit n) := by decide
  exact hall n hn

/-- **What is written for a character stands for it.** -/
theorem escapes_escape (c : Char) : Escapes c (escape c) := by
  by_cases hletter : ∃ d, (c, d) ∈ letters
  · obtain ⟨d, hd⟩ := hletter
    have hall : ∀ e ∈ letters, escape e.1 = ['\\', e.2] := by decide
    have hescape := hall _ hd
    rw [hescape]
    exact .letter hd
  · have hnone : ∀ d, (c, d) ∉ letters := not_exists.1 hletter
    have hne : ∀ e ∈ letters, c ≠ e.1 := by
      rintro ⟨x, d⟩ he rfl
      exact hnone d he
    simp only [letters, List.forall_mem_cons] at hne
    obtain ⟨h1, h2, h3, h4, h5, h6, h7, -⟩ := hne
    rw [escape, if_neg h1, if_neg h2, if_neg h3, if_neg h4, if_neg h5, if_neg h6, if_neg h7]
    split
    · next hlt =>
      exact .control hnone hlt (Nat.div_add_mod c.toNat 16).symm
        (hexDigits_getElem? (by omega)) (hexDigits_getElem? (by omega))
    · next hge => exact .itself hnone (by omega)

/-- **The characters between quotes** for those of a text, one after the other. -/
inductive Spells : List Char → List Char → Prop
  | nil : Spells [] []
  | cons {c : Char} {cs es more : List Char} :
      Escapes c es → Spells more cs → Spells (es ++ more) (c :: cs)

theorem spells_flatMap_escape (cs : List Char) : Spells (cs.flatMap escape) cs := by
  induction cs with
  | nil => exact .nil
  | cons c cs ih => exact .cons (escapes_escape c) ih

/-! ## Readers -/

section
variable {α β : Type} {r : Reader α} {f : α → Reader β} {x : α} {y : β} {s t rest : List Char}

/-- **A reader takes a text off** in front of what follows, and gives a result. -/
def Takes (r : Reader α) (s rest : List Char) (x : α) : Prop :=
  ∀ here, ∃ there, r ⟨s ++ rest, here⟩ = .ok (x, ⟨rest, there⟩)

/-- **Steps take one text after the other.** -/
theorem Takes.bind (hr : Takes r s (t ++ rest) x) (hf : Takes (f x) t rest y) :
    Takes (r >>= f) (s ++ t) rest y := by
  intro here
  obtain ⟨there, hthere⟩ := hr here
  obtain ⟨beyond, hbeyond⟩ := hf there
  have hstep : (r >>= f) ⟨s ++ (t ++ rest), here⟩ =
      r ⟨s ++ (t ++ rest), here⟩ >>= fun p => f p.1 p.2 := rfl
  refine ⟨beyond, ?_⟩
  rw [List.append_assoc, hstep, hthere]
  exact hbeyond

theorem takes_pure (x : α) (rest : List Char) : Takes (pure x) [] rest x :=
  fun here => ⟨here, rfl⟩

theorem Takes.map (g : α → β) (hr : Takes r s rest x) :
    Takes (do return g (← r)) s rest (g x) := by
  intro here
  obtain ⟨there, hthere⟩ := hr here
  have hstep : (do return g (← r) : Reader β) ⟨s ++ rest, here⟩ =
      r ⟨s ++ rest, here⟩ >>= fun p => .ok (g p.1, p.2) := rfl
  refine ⟨there, ?_⟩
  rw [hstep, hthere]
  rfl

open Reader

theorem takes_skip (c : Char) (rest : List Char) : Takes skip [c] rest () :=
  fun _ => ⟨_, rfl⟩

/-- A step that looks at the next character goes on by it. -/
theorem Takes.peek {f : Option Char → Reader β} {c : Char}
    (hf : Takes (f (some c)) (c :: t) rest y) :
    Takes (peek? >>= f) (c :: t) rest y :=
  hf

theorem takes_skipSpaces {c : Char} (hc : isSpace c = false) (t : List Char) :
    Takes skipSpaces [] (c :: t) () := by
  intro here
  refine ⟨here, ?_⟩
  have hdrop : (c :: t).dropWhile isSpace = c :: t := List.dropWhile_cons_of_neg (by simp [hc])
  have htake : (c :: t).takeWhile isSpace = [] := List.takeWhile_cons_of_neg (by simp [hc])
  have hstep : skipSpaces ⟨c :: t, here⟩ = .ok ((), ⟨(c :: t).dropWhile isSpace,
      ((c :: t).takeWhile isSpace).foldl Position.past here⟩) := rfl
  rw [List.nil_append, hstep, hdrop, htake]
  rfl

theorem takes_peekInk {c : Char} (hc : isSpace c = false) (t : List Char) :
    Takes peekInk? [] (c :: t) (some c) :=
  Takes.bind (s := []) (takes_skipSpaces hc t) fun here => ⟨here, rfl⟩

theorem Takes.peekInk {f : Option Char → Reader β} {c : Char} (hc : isSpace c = false)
    (hf : Takes (f (some c)) (c :: t) rest y) : Takes (peekInk? >>= f) (c :: t) rest y :=
  Takes.bind (s := []) (takes_peekInk hc _) hf

/-- A step that asks where it stands goes on by it. -/
theorem Takes.get {f : Cursor → Reader β}
    (hf : ∀ c : Cursor, c.rest = t ++ rest → Takes (f c) t rest y) :
    Takes (get >>= f) t rest y :=
  fun here => hf ⟨t ++ rest, here⟩ rfl here

end

/-! ## Quotations -/

open Reader

variable {rest : List Char}

theorem hexValue?_of_getElem? {n : Nat} {x : Char} (h : hexDigits[n]? = some x) :
    hexValue? x = some n := by
  have hall : ∀ n < 16, hexDigits[n]?.bind hexValue? = some n := by decide
  have hvalue := hall n (List.getElem?_eq_some_iff.1 h).1
  rwa [h, Option.bind_some] at hvalue

theorem takes_codeUnit {high low : Nat} {x y : Char} (hx : hexDigits[high]? = some x)
    (hy : hexDigits[low]? = some y) (rest : List Char) :
    Takes codeUnit ['0', '0', x, y] rest (16 * high + low) := by
  have hzero : hexValue? '0' = some 0 := by decide
  have hvalue : ((0 * 16 + 0) * 16 + high) * 16 + low = 16 * high + low := by omega
  rw [← hvalue]
  refine Takes.get fun c hc => ?_
  simp only [hc, List.cons_append, List.nil_append, hzero, hexValue?_of_getElem? hx,
    hexValue?_of_getElem? hy]
  exact fun _ => ⟨_, rfl⟩

/-- **What stands for a control** is read as the control. -/
theorem takes_codePoint {c x y : Char} {high low : Nat} (hlt : c.toNat < 0x20)
    (hcode : c.toNat = 16 * high + low) (hx : hexDigits[high]? = some x)
    (hy : hexDigits[low]? = some y) (rest : List Char) :
    Takes codePoint ['0', '0', x, y] rest c := by
  refine Takes.bind (takes_codeUnit hx hy ([] ++ rest)) ?_
  have hlow : ¬ (0xDC00 ≤ 16 * high + low && 16 * high + low ≤ 0xDFFF) = true := by
    simp
    omega
  have hhigh : ¬ (0xD800 ≤ 16 * high + low && 16 * high + low ≤ 0xDBFF) = true := by
    simp
    omega
  rw [if_neg hlow, if_neg hhigh, ← hcode, Char.ofNat_toNat]
  exact takes_pure c rest

/-- **What stands behind a backslash for a character** is read as it. -/
theorem takes_escaped {c : Char} {cs : List Char} (h : Escapes c ('\\' :: cs)) (hne : cs ≠ [])
    (rest : List Char) : Takes escaped cs rest c := by
  have hall : ∀ e ∈ letters, e.2 ≠ 'u' ∧ shortEscape? e.2 = some e.1 := by decide
  cases h with
  | @letter d hd =>
    obtain ⟨hu, hshort⟩ := hall _ hd
    refine Takes.peek ?_
    simp only [if_neg hu, hshort]
    exact Takes.bind (takes_skip d _) (takes_pure c rest)
  | control hnone hlt hcode hx hy =>
    refine Takes.peek ?_
    exact Takes.bind (takes_skip 'u' _) (takes_codePoint hlt hcode hx hy rest)
  | itself => exact absurd rfl hne

/-- **A quotation is read up to its closing quote**, whatever its characters are. -/
theorem takes_quotedChars (cs rest : List Char) : ∀ fuel, cs.length < fuel →
    Takes (quotedChars fuel) (cs.flatMap escape ++ ['"']) rest cs := by
  induction cs with
  | nil =>
    intro fuel hfuel
    obtain ⟨fuel, rfl⟩ : ∃ n, fuel = n + 1 := ⟨fuel - 1, by omega⟩
    exact Takes.peek (Takes.bind (takes_skip '"' _) (takes_pure _ _))
  | cons c cs ih =>
    intro fuel hfuel
    rw [List.length_cons] at hfuel
    obtain ⟨fuel, rfl⟩ : ∃ n, fuel = n + 1 := ⟨fuel - 1, by omega⟩
    have hrest := ih fuel (by omega)
    have hcons := hrest.map (c :: ·)
    have hback : ∀ more, more ≠ [] → Escapes c ('\\' :: more) →
        Takes (quotedChars (fuel + 1)) ('\\' :: more ++ (cs.flatMap escape ++ ['"'])) rest
          (c :: cs) := by
      intro more hne hescapes
      refine Takes.peek ?_
      exact Takes.bind (takes_skip '\\' _) (Takes.bind (takes_escaped hescapes hne _) hcons)
    rw [List.flatMap_cons, List.append_assoc]
    have hescapes := escapes_escape c
    generalize escape c = es at hescapes ⊢
    cases hescapes with
    | letter hd => exact hback _ (by simp) (.letter hd)
    | control hnone hlt hcode hx hy => exact hback _ (by simp) (.control hnone hlt hcode hx hy)
    | itself hnone hge =>
      have hquote : c ≠ '"' := by
        rintro rfl
        exact hnone '"' (by decide)
      have hslash : c ≠ '\\' := by
        rintro rfl
        exact hnone '\\' (by decide)
      refine Takes.peek ?_
      simp only [if_neg hquote, if_neg hslash, if_neg (Nat.not_lt.2 hge)]
      exact Takes.bind (takes_skip c _) hcons

theorem length_le_flatMap_escape (cs : List Char) : cs.length ≤ (cs.flatMap escape).length := by
  induction cs with
  | nil => exact Nat.le_refl 0
  | cons c cs ih =>
    have hpos : 0 < (escape c).length := by
      have h := escapes_escape c
      generalize escape c = es at h ⊢
      cases h <;> simp
    rw [List.flatMap_cons, List.length_append, List.length_cons]
    omega

/-- **A text is read from its quotation**, behind the opening quote. -/
theorem takes_text (s : String) (rest : List Char) :
    Takes text (s.toList.flatMap escape ++ ['"']) rest s := by
  refine Takes.get fun c hc => ?_
  have hlen := length_le_flatMap_escape s.toList
  have hfuel : s.toList.length < c.rest.length + 1 := by
    rw [hc, List.length_append, List.length_append]
    omega
  have h := (takes_quotedChars s.toList rest _ hfuel).map String.ofList
  rwa [String.ofList_toList] at h

/-! ## Entries -/

theorem takes_colon (rest : List Char) : Takes colon [':'] rest () :=
  Takes.peekInk (by decide) (takes_skip ':' rest)

/-- What stands in front of a key. -/
def separator (first : Bool) : List Char :=
  if first then [] else [',']

theorem takes_moreKeys (first : Bool) (t : List Char) :
    Takes (moreKeys first) (separator first) ('"' :: t) true := by
  have hquote : Takes peekInk? [] ('"' :: t) (some '"') := takes_peekInk (by decide) t
  cases first with
  | true => exact Takes.bind (s := []) (t := []) hquote (takes_pure true _)
  | false =>
    refine Takes.peekInk (by decide) ?_
    refine Takes.bind (t := []) (takes_skip ',' _) ?_
    exact Takes.bind (s := []) (t := []) hquote (takes_pure true _)

section
variable {σ : Type} {entry : σ → String → Reader σ} {fuel : Nat} {d d' d'' : σ}
  {body more : List Char}

/-- **Entries are read one after the other.** -/
theorem takes_entries_cons (first : Bool) (key : String)
    (hentry : Takes (entry d key) body (more ++ rest) d')
    (hmore : Takes (entries entry fuel false d') more rest d'') :
    Takes (entries entry (fuel + 1) first d)
      (separator first ++ (renderText key ++ (body ++ more))) rest d'' := by
  refine Takes.bind (takes_moreKeys first _) ?_
  rw [renderText, List.cons_append, List.cons_append]
  refine Takes.bind (s := ['"']) (takes_skip '"' _) ?_
  refine Takes.bind (takes_text key _) ?_
  exact Takes.bind hentry hmore

theorem takes_entries_nil (d : σ) (rest : List Char) :
    Takes (entries entry (fuel + 1) false d) ['\x7d'] rest d := by
  have hbrace : Takes peekInk? [] ('\x7d' :: rest) (some '\x7d') := takes_peekInk (by decide) rest
  refine Takes.bind (s := []) (x := false) ?_ ?_
  · exact Takes.bind (s := []) (t := []) hbrace (takes_pure false _)
  · exact (takes_skip '\x7d' rest).map fun _ => d

end

/-- **A text is read in full** if nothing follows. -/
theorem readAll_of_takes {α : Type} {r : Reader α} {s : String} {x : α}
    (h : Takes r s.toList [] x) : r.readAll s = .ok x := by
  obtain ⟨there, hthere⟩ := h .start
  rw [List.append_nil] at hthere
  have hstep : (inFull r).run (Cursor.ofChars s.toList) =
      r ⟨s.toList, .start⟩ >>= fun p => ((do
        if (← peekInk?).isSome then failAhead .trailingText
        return p.1) : Reader α) p.2 := rfl
  rw [readAll, hstep, hthere]
  rfl

end Json

/-! ## Rules -/

namespace Rule

open Json Json.Reader

theorem takes_nextText (s : String) (rest : List Char) :
    Takes nextText (renderText s) rest s := by
  refine Takes.peekInk (by decide) ?_
  exact Takes.bind (takes_skip '"' _) (takes_text s rest)

/-- The first entry is that of the expression. -/
theorem takes_entry_rule (s : String) (rest : List Char) :
    Takes (entry ⟨none, none⟩ "rule") (':' :: renderText s) rest ⟨some s, none⟩ := by
  refine Takes.bind (takes_colon _) ?_
  exact (takes_nextText s rest).map fun text => (⟨some text, none⟩ : Draft)

/-- The second entry is that of the message. -/
theorem takes_entry_message (s m : String) (rest : List Char) :
    Takes (entry ⟨some s, none⟩ "message") (':' :: renderText m) rest ⟨some s, some m⟩ := by
  refine Takes.bind (takes_colon _) ?_
  exact (takes_nextText m rest).map fun text => (⟨some s, some text⟩ : Draft)

/-- The characters of the object of a rule behind its opening brace. -/
def entriesText (r : Rule) : List Char :=
  separator true ++ (renderText "rule" ++ (':' :: renderText r.expression ++
    (separator false ++ (renderText "message" ++ (':' :: renderText r.message ++ ['\x7d'])))))

theorem toList_render (r : Rule) : r.render.toList = '\x7b' :: r.entriesText := by
  rw [render, Json.render, String.toList_ofList, renderChars, toEntries, renderFields, renderFields,
    renderChars, renderChars, entriesText]
  simp only [separator, List.cons_append, List.append_assoc]
  rfl

/-- **A rule is read from its text.** -/
theorem takes_reader (r : Rule) : Takes reader r.render.toList [] r := by
  have hentries : ∀ fuel, 3 ≤ fuel → Takes (entries entry fuel true ⟨none, none⟩) r.entriesText []
      ⟨some r.expression, some r.message⟩ := by
    intro fuel hfuel
    obtain ⟨fuel, rfl⟩ : ∃ n, fuel = n + 3 := ⟨fuel - 3, by omega⟩
    exact takes_entries_cons true "rule" (takes_entry_rule r.expression _)
      (takes_entries_cons false "message" (takes_entry_message r.expression r.message _)
        (takes_entries_nil _ _))
  rw [toList_render]
  refine Takes.peekInk (by decide) ?_
  refine Takes.bind (s := ['\x7b']) (takes_skip '\x7b' _) ?_
  refine Takes.get fun c hc => ?_
  have hfuel : 3 ≤ c.rest.length + 1 := by
    rw [hc]
    simp [separator, renderText]
    omega
  exact (hentries _ hfuel).map fun d => (⟨d.expression.getD "", d.message.getD ""⟩ : Rule)

end Rule

/-- **A rule survives its text.** The text is an object of two entries without blanks, the
expression in front of the message, in which each character is told by what stands for it. Reading
this text gives the rule, which is written with the same text again. -/
theorem text_of_a_rule_is_read_back (r : Rule) :
    (∃ expression message : List Char, Json.Spells expression r.expression.toList ∧
      Json.Spells message r.message.toList ∧
      r.render = "\x7b\"rule\":\"" ++ String.ofList expression ++ "\",\"message\":\"" ++
        String.ofList message ++ "\"\x7d") ∧
    Rule.ofText r.render = .ok r ∧ (Rule.ofText r.render).map Rule.render = .ok r.render := by
  have hread : Rule.ofText r.render = .ok r := Json.readAll_of_takes (Rule.takes_reader r)
  refine ⟨⟨_, _, Json.spells_flatMap_escape _, Json.spells_flatMap_escape _, ?_⟩, hread, ?_⟩
  · apply String.toList_inj.1
    rw [Rule.toList_render, Rule.entriesText]
    simp [Json.separator, Json.renderText, Json.escape]
  · rw [hread]
    rfl

/-- Texts that look like the object itself. -/
example : (Rule.mk "\"\x7d\\u0041\x01" "ö\n").render =
    "\x7b\"rule\":\"\\\"\x7d\\\\u0041\\u0001\",\"message\":\"ö\\n\"\x7d" := by
  decide +kernel

end SchemaRules
