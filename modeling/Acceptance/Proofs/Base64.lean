import Acceptance.Base64
import Mathlib.Tactic.SplitIfs

/-!
# Bytes in base 64

* `Base64.decode_eq_some_iff`: a text is read as some bytes exactly if it is what is written for them.
-/

namespace Acceptance.Base64

theorem value?_symbol : ∀ {n : Nat}, n < 64 → value? (symbol n) = some n := by
  decide

theorem symbol_ne_pad : ∀ {n : Nat}, n < 64 → symbol n ≠ '=' := by
  decide

theorem symbol_of_value? {c : Char} {n : Nat} (h : value? c = some n) : n < 64 ∧ symbol n = c := by
  have code : Char.ofNat c.toNat = c := Char.ofNat_toNat c
  unfold value? at h
  dsimp only at h
  split_ifs at h with upper lower digit plus slash <;> cases h
  · simp only [Bool.and_eq_true, decide_eq_true_eq] at upper
    refine ⟨by omega, ?_⟩
    rw [symbol, if_pos (by omega), show 0x41 + (c.toNat - 0x41) = c.toNat by omega, code]
  · simp only [Bool.and_eq_true, decide_eq_true_eq] at lower
    refine ⟨by omega, ?_⟩
    rw [symbol, if_neg (by omega), if_pos (by omega),
      show 0x61 + (c.toNat - 0x61 + 26 - 26) = c.toNat by omega, code]
  · simp only [Bool.and_eq_true, decide_eq_true_eq] at digit
    refine ⟨by omega, ?_⟩
    rw [symbol, if_neg (by omega), if_neg (by omega), if_pos (by omega),
      show 0x30 + (c.toNat - 0x30 + 52 - 52) = c.toNat by omega, code]
  · exact ⟨by decide, (eq_of_beq plus).symm⟩
  · exact ⟨by decide, (eq_of_beq slash).symm⟩

theorem ofNat_eq {n : Nat} {b : UInt8} (h : n = b.toNat) : UInt8.ofNat n = b := by
  rw [h, UInt8.ofNat_toNat]

theorem decode_encode (bytes : List UInt8) : decode (encode bytes) = some bytes := by
  fun_induction encode bytes with
  | case1 => rfl
  | case2 a n =>
    have ha := a.toNat_lt
    rw [decode, value?_symbol (by omega), value?_symbol (by omega)]
    simp only [Option.bind_eq_bind, Option.bind_some]
    rw [if_pos (by omega), ofNat_eq (b := a) (by omega)]
  | case3 a b n =>
    have ha := a.toNat_lt
    have hb := b.toNat_lt
    rw [decode, value?_symbol (by omega), value?_symbol (by omega), value?_symbol (by omega)]
    · simp only [Option.bind_eq_bind, Option.bind_some]
      rw [if_pos (by omega), ofNat_eq (b := a) (by omega), ofNat_eq (b := b) (by omega)]
    · exact symbol_ne_pad (by omega)
  | case4 a b c rest n ih =>
    have ha := a.toNat_lt
    have hb := b.toNat_lt
    have hc := c.toNat_lt
    have last : symbol (n % 64) ≠ '=' := symbol_ne_pad (by omega)
    rw [decode, value?_symbol (by omega), value?_symbol (by omega), value?_symbol (by omega),
      value?_symbol (by omega), ih]
    · simp only [Option.bind_eq_bind, Option.bind_some]
      rw [ofNat_eq (b := a) (by omega), ofNat_eq (b := b) (by omega), ofNat_eq (b := c) (by omega)]
    · exact fun _ pad => absurd pad last
    · exact fun pad => absurd pad last

theorem encode_of_decode {cs : List Char} {bytes : List UInt8} (h : decode cs = some bytes) :
    cs = encode bytes := by
  fun_induction decode cs generalizing bytes with
  | case1 =>
    cases h
    rfl
  | case2 a b =>
    simp only [Option.bind_eq_bind, Option.bind_eq_some_iff] at h
    obtain ⟨x, hx, y, hy, h⟩ := h
    obtain ⟨x_lt, rfl⟩ := symbol_of_value? hx
    obtain ⟨y_lt, rfl⟩ := symbol_of_value? hy
    split_ifs at h with zero
    cases h
    simp only [encode, UInt8.toNat_ofNat']
    congr 2 <;> congr 1 <;> omega
  | case3 a b c _ =>
    simp only [Option.bind_eq_bind, Option.bind_eq_some_iff] at h
    obtain ⟨x, hx, y, hy, z, hz, h⟩ := h
    obtain ⟨x_lt, rfl⟩ := symbol_of_value? hx
    obtain ⟨y_lt, rfl⟩ := symbol_of_value? hy
    obtain ⟨z_lt, rfl⟩ := symbol_of_value? hz
    split_ifs at h with zero
    cases h
    simp only [encode, UInt8.toNat_ofNat']
    congr 3 <;> congr 1 <;> omega
  | case4 a b c d rest _ _ ih =>
    simp only [Option.bind_eq_bind, Option.bind_eq_some_iff] at h
    obtain ⟨x, hx, y, hy, z, hz, w, hw, more, hmore, h⟩ := h
    obtain ⟨x_lt, rfl⟩ := symbol_of_value? hx
    obtain ⟨y_lt, rfl⟩ := symbol_of_value? hy
    obtain ⟨z_lt, rfl⟩ := symbol_of_value? hz
    obtain ⟨w_lt, rfl⟩ := symbol_of_value? hw
    cases h
    simp only [encode, UInt8.toNat_ofNat', ← ih hmore]
    congr 4 <;> congr 1 <;> omega
  | case5 => cases h

theorem decode_eq_some_iff {cs : List Char} {bytes : List UInt8} :
    decode cs = some bytes ↔ cs = encode bytes :=
  ⟨encode_of_decode, fun h => h ▸ decode_encode bytes⟩

end Acceptance.Base64
