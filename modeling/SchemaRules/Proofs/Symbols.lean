import Mathlib.Data.List.Basic
import SchemaRules.Function.Table
import SchemaRules.Proofs.Bits
import SchemaRules.Proofs.Canonical

/-!
# Bytes in symbols

What is written for bytes is read back, and nothing else is read.

* `Base64.decodeLast_eq_ok_iff`: a last group, of which the padding fills up what the symbols leave.
* `Base64.decodeFrom_written`: **what is written is read back**, by induction on the groups of three
  bytes. `Base64.eq_of_decodeFrom`: **nothing else is read**, by the recursion of the reader.
* `Text.toBytes_ofList_of_ascii`: texts of ASCII as bytes.
* `bytes_and_symbols_undo_each_other`: what this says of the functions of expressions.
-/

namespace SchemaRules

namespace Base64

/-! ## Reading symbols -/

/-- A symbol as a byte. -/
def byteOf (c : Char) : UInt8 :=
  c.toNat.toUInt8

theorem value?_symbol {n : Nat} (hn : n < 64) : value? (byteOf (symbol n)) = some n := by
  have hall : ∀ n < 64, value? (byteOf (symbol n)) = some n := by decide +kernel
  exact hall n hn

/-- **No other byte is a symbol.** -/
theorem eq_of_value? {b : UInt8} {n : Nat} (h : value? b = some n) :
    n < 64 ∧ b = byteOf (symbol n) := by
  have hall : ∀ m < 256, ∀ n ∈ value? (UInt8.ofNat m),
      n < 64 ∧ UInt8.ofNat m = byteOf (symbol n) := by decide +kernel
  have hb : UInt8.ofNat b.toNat = b := UInt8.ofNat_toNat
  rw [← hb] at h ⊢
  exact hall b.toNat b.toNat_lt n h

theorem byteOf_symbol_ne_pad {n : Nat} (hn : n < 64) : byteOf (symbol n) ≠ pad := by
  intro h
  have hvalue := value?_symbol hn
  rw [h] at hvalue
  cases hvalue

/-- The byte of the symbol of a value. -/
def symbolByte (n : Nat) : UInt8 :=
  byteOf (symbol n)

section
variable {ns : List Nat} {offset : Nat}

theorem values_symbols (hns : ∀ n ∈ ns, n < 64) :
    ∀ offset, values offset (ns.map symbolByte) = .ok ns := by
  induction ns with
  | nil => intro offset; rfl
  | cons n ns ih =>
    intro offset
    have hn := value?_symbol (hns n List.mem_cons_self)
    have hrest := ih (fun m hm => hns m (List.mem_cons_of_mem _ hm)) (offset + 1)
    rw [List.map_cons, values, symbolByte, hn]
    simp only [hrest]
    rfl

/-- **Values are those of symbols.** -/
theorem eq_of_values {bs : List UInt8} : ∀ {ns : List Nat} {offset : Nat},
    values offset bs = .ok ns → (∀ n ∈ ns, n < 64) ∧ bs = ns.map symbolByte := by
  induction bs with
  | nil =>
    intro ns offset h
    cases h
    exact ⟨by simp, rfl⟩
  | cons b rest ih =>
    intro ns offset h
    rw [values] at h
    cases hb : value? b with
    | none =>
      rw [hb] at h
      cases h
    | some n =>
      rw [hb] at h
      obtain ⟨ms, hms, rfl⟩ := map_eq_ok h
      obtain ⟨hlt, rfl⟩ := ih hms
      obtain ⟨hn, rfl⟩ := eq_of_value? hb
      refine ⟨?_, rfl⟩
      intro m hm
      rcases List.mem_cons.1 hm with rfl | hm
      · exact hn
      · exact hlt m hm

variable {quad symbols padding : List UInt8}

/-- What becomes of a last group whose symbols have values. -/
theorem decodeLast_of_values (htake : quad.takeWhile (· ≠ pad) = symbols)
    (hdrop : quad.dropWhile (· ≠ pad) = padding) (hvalues : values offset symbols = .ok ns) :
    decodeLast offset quad =
      if !padding.isEmpty && (symbols.length < 2 || padding.any (· ≠ pad)) then
        .error (.badSymbol (offset + symbols.length) pad)
      else if symbols.length < 2 then .error (.badLength (offset + symbols.length))
      else if quad.length ≠ 4 then .error .badPadding
      else if (bytesOf ns).2 ≠ 0 then
        .error (.badLastSymbol (offset + symbols.length - 1) (symbols.getLast?.getD pad))
      else .ok (bytesOf ns).1 := by
  unfold decodeLast
  simp only [htake, hdrop, hvalues]
  rfl

/-- **A last group** has two symbols at least, and its padding fills it up to four. -/
theorem decodeLast_eq_ok_iff {b : List UInt8} : decodeLast offset quad = .ok b ↔
    ∃ ns fill, quad = ns.map symbolByte ++ List.replicate fill pad ∧ (∀ n ∈ ns, n < 64) ∧
      2 ≤ ns.length ∧ ns.length + fill = 4 ∧ bytesOf ns = (b, 0) := by
  constructor
  · intro h
    obtain ⟨ns, hvalues, -⟩ := bind_eq_ok h
    have hquad : quad.takeWhile (· ≠ pad) ++ quad.dropWhile (· ≠ pad) = quad :=
      List.takeWhile_append_dropWhile
    rw [decodeLast_of_values rfl rfl hvalues] at h
    obtain ⟨hlt, hsymbols⟩ := eq_of_values hvalues
    split at h
    · cases h
    next hpadding =>
    split at h
    · cases h
    next htwo =>
    split at h
    · cases h
    next hfour =>
    split at h
    · cases h
    next hleft =>
    have hfill : ∀ x ∈ quad.dropWhile (· ≠ pad), x = pad := by
      intro x hx
      by_contra hne
      refine hpadding (Bool.and_eq_true_iff.2 ⟨?_, Bool.or_eq_true_iff.2 (.inr ?_)⟩)
      · cases hd : quad.dropWhile (· ≠ pad) with
        | nil => rw [hd] at hx; cases hx
        | cons => rfl
      · exact List.any_eq_true.2 ⟨x, hx, decide_eq_true hne⟩
    have hlen := congrArg List.length hquad
    have hcount := congrArg List.length hsymbols
    rw [List.length_append] at hlen
    rw [List.length_map] at hcount
    refine ⟨ns, (quad.dropWhile (· ≠ pad)).length, ?_, hlt, by omega, by omega, ?_⟩
    · rw [← hsymbols, ← List.eq_replicate_iff.2 ⟨rfl, hfill⟩, hquad]
    · rw [← Except.ok.inj h, ← not_not.1 hleft]
  · rintro ⟨ns, fill, rfl, hns, htwo, hfour, hbytes⟩
    have hsymbol : ∀ x ∈ ns.map symbolByte, decide (x ≠ pad) = true := by
      intro x hx
      obtain ⟨n, hn, rfl⟩ := List.mem_map.1 hx
      exact decide_eq_true (byteOf_symbol_ne_pad (hns n hn))
    have hfill : ¬ decide (pad ≠ pad) = true := by decide
    have htake : (ns.map symbolByte ++ List.replicate fill pad).takeWhile (· ≠ pad) =
        ns.map symbolByte := by
      rw [List.takeWhile_append_of_pos hsymbol, List.takeWhile_replicate, if_neg hfill,
        List.append_nil]
    have hdrop : (ns.map symbolByte ++ List.replicate fill pad).dropWhile (· ≠ pad) =
        List.replicate fill pad := by
      rw [List.dropWhile_append_of_pos hsymbol, List.dropWhile_replicate, if_neg hfill]
    have hcount : ¬ (ns.map symbolByte).length < 2 := by
      rw [List.length_map]
      omega
    rw [decodeLast_of_values htake hdrop (values_symbols hns offset), if_neg, if_neg hcount, if_neg,
      if_neg, hbytes]
    · rw [hbytes]
      exact not_not.2 rfl
    · rw [List.length_append, List.length_map, List.length_replicate]
      exact not_not.2 hfour
    · intro h
      obtain ⟨-, h⟩ := Bool.and_eq_true_iff.1 h
      rcases Bool.or_eq_true_iff.1 h with h | h
      · exact hcount (of_decide_eq_true h)
      · obtain ⟨x, hx, hne⟩ := List.any_eq_true.1 h
        exact of_decide_eq_true hne (List.eq_of_mem_replicate hx)

end

/-! ## Groups -/

section
variable (a b c : UInt8)

/-- **The values of the symbols of three bytes give them back.** -/
theorem bytesOf_three :
    bytesOf [a.toNat / 4, a.toNat % 4 * 16 + b.toNat / 16, b.toNat % 16 * 4 + c.toNat / 64,
      c.toNat % 64] = ([a, b, c], 0) := by
  have hblt := b.toNat_lt
  have hclt := c.toNat_lt
  have ha : a.toNat / 4 * 4 + (a.toNat % 4 * 16 + b.toNat / 16) / 16 = a.toNat := by omega
  have hb : (a.toNat % 4 * 16 + b.toNat / 16) % 16 * 16 + (b.toNat % 16 * 4 + c.toNat / 64) / 4 =
      b.toNat := by omega
  have hc : (b.toNat % 16 * 4 + c.toNat / 64) % 4 * 64 + c.toNat % 64 = c.toNat := by omega
  simp only [bytesOf, ha, hb, hc, Nat.toUInt8_eq, UInt8.ofNat_toNat]

theorem bytesOf_two :
    bytesOf [a.toNat / 4, a.toNat % 4 * 16 + b.toNat / 16, b.toNat % 16 * 4] = ([a, b], 0) := by
  have hblt := b.toNat_lt
  have ha : a.toNat / 4 * 4 + (a.toNat % 4 * 16 + b.toNat / 16) / 16 = a.toNat := by omega
  have hb : (a.toNat % 4 * 16 + b.toNat / 16) % 16 * 16 + b.toNat % 16 * 4 / 4 = b.toNat := by omega
  have hleft : b.toNat % 16 * 4 % 4 = 0 := by omega
  simp only [bytesOf, ha, hb, hleft, Nat.toUInt8_eq, UInt8.ofNat_toNat]

theorem bytesOf_one : bytesOf [a.toNat / 4, a.toNat % 4 * 16] = ([a], 0) := by
  have ha : a.toNat / 4 * 4 + a.toNat % 4 * 16 / 16 = a.toNat := by omega
  have hleft : a.toNat % 4 * 16 % 16 = 0 := by omega
  simp only [bytesOf, ha, hleft, Nat.toUInt8_eq, UInt8.ofNat_toNat]

end

section
variable {w x y z : Nat}

/-- **The bytes of a full group are written with its symbols.** -/
theorem encode_bytesOf_four (hw : w < 64) (hx : x < 64) (hy : y < 64) (hz : z < 64)
    (rest : List UInt8) : encode ((bytesOf [w, x, y, z]).1 ++ rest) =
      symbol w :: symbol x :: symbol y :: symbol z :: encode rest := by
  have ha : (w * 4 + x / 16).toUInt8.toNat = w * 4 + x / 16 :=
    UInt8.toNat_ofNat_of_lt (show w * 4 + x / 16 < 256 by omega)
  have hb : (x % 16 * 16 + y / 4).toUInt8.toNat = x % 16 * 16 + y / 4 :=
    UInt8.toNat_ofNat_of_lt (show x % 16 * 16 + y / 4 < 256 by omega)
  have hc : (y % 4 * 64 + z).toUInt8.toNat = y % 4 * 64 + z :=
    UInt8.toNat_ofNat_of_lt (show y % 4 * 64 + z < 256 by omega)
  have h1 : (w * 4 + x / 16) / 4 = w := by omega
  have h2 : (w * 4 + x / 16) % 4 * 16 + (x % 16 * 16 + y / 4) / 16 = x := by omega
  have h3 : (x % 16 * 16 + y / 4) % 16 * 4 + (y % 4 * 64 + z) / 64 = y := by omega
  have h4 : (y % 4 * 64 + z) % 64 = z := by omega
  rw [bytesOf, List.cons_append, List.cons_append, List.cons_append, List.nil_append, encode,
    ha, hb, hc, h1, h2, h3, h4]

theorem encode_bytesOf_three (hw : w < 64) (hx : x < 64) (hy : y < 64) (hleft : y % 4 = 0) :
    encode (bytesOf [w, x, y]).1 = [symbol w, symbol x, symbol y, '='] := by
  have ha : (w * 4 + x / 16).toUInt8.toNat = w * 4 + x / 16 :=
    UInt8.toNat_ofNat_of_lt (show w * 4 + x / 16 < 256 by omega)
  have hb : (x % 16 * 16 + y / 4).toUInt8.toNat = x % 16 * 16 + y / 4 :=
    UInt8.toNat_ofNat_of_lt (show x % 16 * 16 + y / 4 < 256 by omega)
  have h1 : (w * 4 + x / 16) / 4 = w := by omega
  have h2 : (w * 4 + x / 16) % 4 * 16 + (x % 16 * 16 + y / 4) / 16 = x := by omega
  have h3 : (x % 16 * 16 + y / 4) % 16 * 4 = y := by omega
  rw [bytesOf, encode, ha, hb, h1, h2, h3]

theorem encode_bytesOf_two (hw : w < 64) (hx : x < 64) (hleft : x % 16 = 0) :
    encode (bytesOf [w, x]).1 = [symbol w, symbol x, '=', '='] := by
  have ha : (w * 4 + x / 16).toUInt8.toNat = w * 4 + x / 16 :=
    UInt8.toNat_ofNat_of_lt (show w * 4 + x / 16 < 256 by omega)
  have h1 : (w * 4 + x / 16) / 4 = w := by omega
  have h2 : (w * 4 + x / 16) % 4 * 16 = x := by omega
  rw [bytesOf, encode, ha, h1, h2]

end

/-- **The bytes of a last group are written with its symbols and its padding.** -/
theorem encode_bytesOf {ns : List Nat} {fill : Nat} (hns : ∀ n ∈ ns, n < 64) (htwo : 2 ≤ ns.length)
    (hfour : ns.length + fill = 4) (hleft : (bytesOf ns).2 = 0) :
    encode (bytesOf ns).1 = ns.map symbol ++ List.replicate fill '=' := by
  match ns with
  | [] | [_] => simp at htwo
  | [w, x] =>
    obtain rfl : fill = 2 := by simp at hfour; omega
    exact encode_bytesOf_two (hns w (by simp)) (hns x (by simp)) hleft
  | [w, x, y] =>
    obtain rfl : fill = 1 := by simp at hfour; omega
    exact encode_bytesOf_three (hns w (by simp)) (hns x (by simp)) (hns y (by simp)) hleft
  | [w, x, y, z] =>
    obtain rfl : fill = 0 := by simp at hfour; omega
    have h := encode_bytesOf_four (hns w (by simp)) (hns x (by simp)) (hns y (by simp))
      (hns z (by simp)) []
    rwa [List.append_nil] at h
  | _ :: _ :: _ :: _ :: _ :: _ => simp at hfour; omega

/-! ## Reading what is written -/

/-- The bytes of the text of bytes. -/
def written (b : List UInt8) : List UInt8 :=
  (encode b).map byteOf

theorem length_encode_mod (b : List UInt8) : (encode b).length % 4 = 0 := by
  obtain ⟨values, padding, htext, -, -, hfull, -⟩ := canonical_encode b
  rw [htext, List.length_append, List.length_map, List.length_replicate, hfull]

theorem map_byteOf_symbols (ns : List Nat) (fill : Nat) :
    (ns.map symbol ++ List.replicate fill '=').map byteOf =
      ns.map symbolByte ++ List.replicate fill pad := by
  rw [List.map_append, List.map_map, List.map_replicate]
  rfl

/-- **What is written is read back**, from any offset on. -/
theorem decodeFrom_written (b : List UInt8) : ∀ offset, decodeFrom offset (written b) = .ok b := by
  induction b using encode.induct with
  | case1 => intro offset; rfl
  | case2 a =>
    intro offset
    exact decodeLast_eq_ok_iff.2 ⟨[a.toNat / 4, a.toNat % 4 * 16], 2, rfl, values_lt_one a, by simp,
      by simp, bytesOf_one a⟩
  | case3 a b =>
    intro offset
    exact decodeLast_eq_ok_iff.2 ⟨[a.toNat / 4, a.toNat % 4 * 16 + b.toNat / 16,
      b.toNat % 16 * 4], 1, rfl, values_lt_two a b, by simp, by simp, bytesOf_two a b⟩
  | case4 a b c rest ih =>
    intro offset
    have hns := values_lt_three a b c
    have hwritten : written (a :: b :: c :: rest) = symbolByte (a.toNat / 4) ::
        symbolByte (a.toNat % 4 * 16 + b.toNat / 16) ::
          symbolByte (b.toNat % 16 * 4 + c.toNat / 64) :: symbolByte (c.toNat % 64) ::
            written rest := rfl
    have hrest := ih (offset + 4)
    rw [hwritten]
    cases hmore : written rest with
    | nil =>
      -- the bytes end with this group
      rw [hmore] at hrest
      obtain rfl : [] = rest := Except.ok.inj hrest
      exact decodeLast_eq_ok_iff.2 ⟨_, 0, rfl, hns, by simp, by simp, bytesOf_three a b c⟩
    | cons e more =>
      rw [hmore] at hrest
      have hvalues := values_symbols hns offset
      simp only [List.map_cons, List.map_nil] at hvalues
      rw [decodeFrom, hvalues, hrest]
      exact congrArg (fun found => Except.ok (found.1 ++ rest)) (bytesOf_three a b c)

/-- **Nothing else is read.** -/
theorem eq_of_decodeFrom {input : List UInt8} {offset : Nat} : ∀ {b : List UInt8},
    decodeFrom offset input = .ok b → input = written b := by
  induction offset, input using decodeFrom.induct with
  | case1 offset =>
    intro b h
    cases h
    rfl
  | case2 offset a b c d e rest ih =>
    intro bytes h
    rw [decodeFrom] at h
    obtain ⟨ns, hns, h⟩ := bind_eq_ok h
    obtain ⟨more, hmore, h⟩ := bind_eq_ok h
    obtain ⟨hlt, hsymbols⟩ := eq_of_values hns
    cases h
    match ns with
    | [w, x, y, z] =>
      obtain ⟨rfl, rfl, rfl, rfl⟩ : a = symbolByte w ∧ b = symbolByte x ∧ c = symbolByte y ∧
          d = symbolByte z := by simpa using hsymbols
      have hgroup := encode_bytesOf_four (hlt w (by simp)) (hlt x (by simp)) (hlt y (by simp))
        (hlt z (by simp)) more
      rw [ih hmore, written, written, hgroup]
      rfl
    | [] | [_] | [_, _] | [_, _, _] | _ :: _ :: _ :: _ :: _ :: _ => simp at hsymbols
  | case3 offset quad hnil hmore =>
    intro b h
    rw [decodeFrom.eq_3 offset quad hnil hmore] at h
    obtain ⟨ns, fill, rfl, hns, htwo, hfour, hbytes⟩ := decodeLast_eq_ok_iff.1 h
    have hencode := encode_bytesOf hns htwo hfour (by rw [hbytes])
    rw [hbytes] at hencode
    rw [written, hencode, map_byteOf_symbols]

/-- **A text is read exactly if it is what is written for some bytes**, and then as these. -/
theorem decode_eq_ok_iff {input b : List UInt8} : decode input = .ok b ↔ input = written b := by
  constructor
  · intro h
    unfold decode at h
    split at h
    · cases h
    · exact eq_of_decodeFrom h
  · rintro rfl
    have hstray : strayByte? (written b) = none := by
      have hfull := length_encode_mod b
      rw [strayByte?, written, List.length_map, if_neg (by omega)]
    rw [decode, hstray]
    exact decodeFrom_written b 0

end Base64

/-! ## Texts as bytes -/

namespace Text

theorem toBytes_injective {s t : String} (h : toBytes s = toBytes t) : s = t := by
  have hbytes : s.toByteArray = t.toByteArray := by
    apply ByteArray.ext
    exact Array.toList_inj.1 h
  exact String.toByteArray_inj.1 hbytes

/-- Characters of ASCII are written with one byte each. -/
theorem toBytes_ofList_of_ascii {cs : List Char} (h : ∀ c ∈ cs, c.toNat ≤ 127) :
    toBytes (String.ofList cs) = cs.map Base64.byteOf := by
  have hone : ∀ c ∈ cs, String.utf8EncodeChar c = [Base64.byteOf c] := by
    intro c hc
    exact if_pos (h c hc)
  rw [toBytes, String.toByteArray_ofList, List.utf8Encode, List.toList_data_toByteArray,
    List.flatMap_congr hone, List.map_eq_flatMap]

end Text

namespace Base64

theorem toBytes_encode (b : List UInt8) : Text.toBytes (String.ofList (encode b)) = written b := by
  apply Text.toBytes_ofList_of_ascii
  have hsymbols : ∀ v < 64, (symbol v).toNat ≤ 127 := by decide +kernel
  obtain ⟨values, padding, htext, hvalues, -⟩ := canonical_encode b
  intro c hc
  rw [htext] at hc
  rcases List.mem_append.1 hc with hc | hc
  · obtain ⟨v, hv, rfl⟩ := List.mem_map.1 hc
    exact hsymbols v (hvalues v hv)
  · rw [List.eq_of_mem_replicate hc]
    decide

/-- **The texts that are read** are the canonical ones. -/
theorem decode_toBytes_eq_ok_iff {text : String} {b : List UInt8} :
    decode (Text.toBytes text) = .ok b ↔ text = String.ofList (encode b) := by
  rw [decode_eq_ok_iff, ← toBytes_encode]
  constructor
  · exact Text.toBytes_injective
  · intro h
    rw [h]

end Base64

/-- What a function gives for one argument. -/
def Function.answerTo (f : Function) (v : Value) : Answer :=
  f.apply ⟨none, [.ok v]⟩

theorem Answer.base64Decode_eq_ok_iff {text : String} {b : List UInt8} :
    base64Decode text = .ok (.bytes b) ↔ Base64.decode (Text.toBytes text) = .ok b := by
  unfold base64Decode
  cases Base64.decode (Text.toBytes text) with
  | ok found => simp
  | error f => simp

/-- **Bytes and symbols undo each other.** Bytes are written with the one canonical text of their
bits, and this text is read as them. A text is written as its bytes of UTF-8 are, so these are what
is read again. A text is read as the bytes that it is written for, and it is canonical, or else the
function is at fault. -/
theorem bytes_and_symbols_undo_each_other :
    (∀ b : List UInt8, ∃ text : String,
      Function.base64Encode.answerTo (.bytes b) = .ok (.str text) ∧
      Base64.Canonical text.toList b ∧
      Function.base64Decode.answerTo (.str text) = .ok (.bytes b)) ∧
    (∀ s : String, ∃ text : String,
      Function.base64Encode.answerTo (.str s) = .ok (.str text) ∧
      Function.base64Encode.answerTo (.bytes s.toByteArray.data.toList) = .ok (.str text) ∧
      Function.base64Decode.answerTo (.str text) = .ok (.bytes s.toByteArray.data.toList)) ∧
    ∀ text : String,
      (∃ b, Function.base64Decode.answerTo (.str text) = .ok (.bytes b) ∧
        Function.base64Encode.answerTo (.bytes b) = .ok (.str text) ∧
        Base64.Canonical text.toList b) ∨
      (∃ message,
        Function.base64Decode.answerTo (.str text) = .error (.function "base64Decode" message)) ∧
        ∀ b, ¬ Base64.Canonical text.toList b := by
  have hread : ∀ b, Answer.base64Decode (String.ofList (Base64.encode b)) = .ok (.bytes b) := by
    intro b
    rw [Answer.base64Decode_eq_ok_iff, Base64.decode_toBytes_eq_ok_iff]
  refine ⟨?_, ?_, ?_⟩
  · intro b
    refine ⟨String.ofList (Base64.encode b), rfl, ?_, hread b⟩
    rw [String.toList_ofList]
    exact Base64.canonical_encode b
  · intro s
    exact ⟨String.ofList (Base64.encode (Text.toBytes s)), rfl, rfl, hread _⟩
  · intro text
    cases hdecode : Base64.decode (Text.toBytes text) with
    | ok b =>
      have htext := Base64.decode_toBytes_eq_ok_iff.1 hdecode
      refine .inl ⟨b, Answer.base64Decode_eq_ok_iff.2 hdecode, ?_, ?_⟩
      · rw [htext]
        rfl
      · rw [htext, String.toList_ofList]
        exact Base64.canonical_encode b
    | error f =>
      refine .inr ⟨⟨f.message, ?_⟩, ?_⟩
      · have hfault : Answer.base64Decode text = .error (.function "base64Decode" f.message) := by
          rw [Answer.base64Decode, hdecode]
        exact hfault
      · intro b hb
        have htext : text = String.ofList (Base64.encode b) := by
          rw [← Base64.canonical_iff.1 hb, String.ofList_toList]
        rw [Base64.decode_toBytes_eq_ok_iff.2 htext] at hdecode
        cases hdecode

/-- Bits beyond the last byte are not passed over. -/
example : Function.base64Decode.answerTo (.str "aGl=") =
    .error (.function "base64Decode" "Invalid last symbol 108, offset 2.") := by
  rfl

end SchemaRules
