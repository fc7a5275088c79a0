import Acceptance.Proofs.Utf8
import Acceptance.Url.Escape

/-!
# Percent signs taken back

* `Url.unescapeBytes_escape`: a text that is written with percent signs stands for itself;
* `Url.mem_escape`: which characters are written;
* `Url.escape_eq`: a text with nothing to hide is written as it is.
-/

namespace Acceptance.Url

open Text.Utf8 (Bytes encode encode_ascii encode_byte encode_ofList mem_of_ascii ofNat_of_ascii)

variable {escapes : Escapes} {s : List Char}

/-! ## Percent signs -/

/-- A percent sign or one of the digits behind it. -/
def signs : List Char := "%0123456789ABCDEF".toList

theorem percent_signs (b : UInt8) : ∀ c ∈ Http.percent b, c ∈ signs := by
  have digit : ∀ n : Fin 16, Http.upperHexDigit n ∈ signs := by decide
  have bound : b.toNat < 256 := b.toNat_lt
  rw [Http.percent, List.forall_mem_cons, List.forall_mem_cons, List.forall_mem_singleton]
  exact ⟨by decide, digit ⟨b.toNat / 16, by omega⟩, digit ⟨b.toNat % 16, by omega⟩⟩

theorem unescapeBytes_cons {b : UInt8} (other : b ≠ 0x25) (rest : Bytes) :
    unescapeBytes (b :: rest) = b :: unescapeBytes rest := by
  rw [unescapeBytes]
  exact fun _ _ _ same => absurd same other

theorem unescapeBytes_percent (b : UInt8) (rest : Bytes) :
    unescapeBytes ((Http.percent b).flatMap String.utf8EncodeChar ++ rest) =
      b :: unescapeBytes rest := by
  have digit : ∀ n : Fin 16,
      String.utf8EncodeChar (Http.upperHexDigit n) = [UInt8.ofNat (Http.upperHexDigit n).toNat] ∧
        hexValue? (UInt8.ofNat (Http.upperHexDigit n).toNat) = some n.val := by decide
  have bound : b.toNat < 256 := b.toNat_lt
  obtain ⟨high, high'⟩ := digit ⟨b.toNat / 16, by omega⟩
  obtain ⟨low, low'⟩ := digit ⟨b.toNat % 16, by omega⟩
  have sign : String.utf8EncodeChar '%' = [0x25] := by decide
  simp only [Http.percent, List.flatMap_cons, List.flatMap_nil, sign, high, low, List.cons_append,
    List.nil_append, unescapeBytes, high', low']
  rw [Nat.div_add_mod', UInt8.ofNat_toNat]

/-- What keeps a text from being taken for another: all but ASCII is hidden, and so is the percent
sign. -/
structure Escapes.Faithful (escapes : Escapes) : Prop where
  beyond : ∀ n, 0x80 ≤ n → escapes n
  percent : escapes 0x25

theorem segmentEscapes_faithful (special : Bool) : (segmentEscapes special).Faithful where
  beyond n far := by
    have far : 0x7E < n := by omega
    simp [segmentEscapes, pathEscapes, fragmentEscapes, controls, far]
  percent := by cases special <;> decide

theorem pathEscapes_beyond (n : Nat) (far : 0x80 ≤ n) : pathEscapes n := by
  have far : 0x7E < n := by omega
  simp [pathEscapes, fragmentEscapes, controls, far]

namespace Escapes.Faithful

theorem unescapeBytes_escapeByte (h : escapes.Faithful) (b : UInt8) (rest : Bytes) :
    unescapeBytes ((escapeByte escapes b).flatMap String.utf8EncodeChar ++ rest) =
      b :: unescapeBytes rest := by
  rw [escapeByte]
  split
  · exact unescapeBytes_percent b rest
  · rename_i shown
    have ascii : b.toNat < 0x80 := Nat.lt_of_not_le fun far => shown (h.beyond _ far)
    have other : b ≠ 0x25 := by
      rintro rfl
      exact shown h.percent
    rw [List.flatMap_singleton, encode_byte ascii]
    exact unescapeBytes_cons other rest

/-- A text that is written with percent signs stands for itself. -/
theorem unescapeBytes_escape (h : escapes.Faithful) (s : List Char) :
    unescapeBytes (encode (escape escapes s)) = encode (String.ofList s) := by
  rw [escape, encode_ofList]
  induction encode (String.ofList s) with
  | nil => rfl
  | cons b rest ih =>
    rw [List.flatMap_cons, List.flatMap_append, h.unescapeBytes_escapeByte, ih]

end Escapes.Faithful

/-! ## Characters -/

/-- What is shown stands for itself; the rest is in percent signs. -/
theorem mem_escape (beyond : ∀ n, 0x80 ≤ n → escapes n) {c : Char}
    (mem : c ∈ (escape escapes s).toList) : c ∈ signs ∨ c ∈ s ∧ escapes c.toNat = false := by
  rw [escape, String.toList_ofList, encode_ofList] at mem
  obtain ⟨b, hb, mem⟩ := List.mem_flatMap.1 mem
  rw [escapeByte] at mem
  split at mem
  · exact .inl (percent_signs b c mem)
  · rename_i shown
    have ascii : b.toNat < 0x80 := Nat.lt_of_not_le fun far => shown (beyond _ far)
    obtain rfl := List.mem_singleton.1 mem
    refine .inr ⟨mem_of_ascii hb ascii, ?_⟩
    rw [ofNat_of_ascii ascii]
    exact Bool.not_eq_true _ ▸ shown

theorem escape_eq (beyond : ∀ n, 0x80 ≤ n → escapes n)
    (plain : ∀ c ∈ s, escapes c.toNat = false) : escape escapes s = String.ofList s := by
  rw [escape, encode_ofList, List.flatMap_assoc]
  congr 1
  induction s with
  | nil => rfl
  | cons c s ih =>
    obtain ⟨shown, plain⟩ := List.forall_mem_cons.1 plain
    have ascii : c.toNat < 0x80 := Nat.lt_of_not_le fun far => by simp [beyond _ far] at shown
    have byte : (UInt8.ofNat c.toNat).toNat = c.toNat := by
      rw [UInt8.toNat_ofNat']
      omega
    rw [List.flatMap_cons, ih plain, encode_ascii ascii, List.flatMap_singleton, escapeByte, byte,
      if_neg (by simp [shown]), Char.ofNat_toNat]
    rfl

end Acceptance.Url
