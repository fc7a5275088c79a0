import Acceptance.Text.Utf8
import Mathlib.Order.Basic

/-!
# Texts as bytes

* `Text.Utf8.Encodes`: the bytes of one character;
* `Text.Utf8.decode?_eq_some_iff`, `Text.Utf8.fault?_encode`: what is written is read back, and there
  is no fault in it;
* `Text.Utf8.utf8ByteSize_of_ascii`: characters of ASCII have one byte each;
* `Text.Utf8.mem_of_ascii`: where a byte of ASCII stands there is its character;
* `Text.Utf8.encode_lt_iff`: texts are in the order of their bytes.
-/

namespace Acceptance.Text.Utf8

/-- The bytes of the character with the code `n`. -/
inductive Encodes (n : Nat) : Bytes → Prop where
  | one {a : UInt8} (range : n < 0x80) (first : a.toNat = n) : Encodes n [a]
  | two {a b : UInt8} (low : 0x80 ≤ n) (high : n < 0x800) (first : a.toNat = 0xC0 + n / 64)
      (second : b.toNat = 0x80 + n % 64) : Encodes n [a, b]
  | three {a b c : UInt8} (low : 0x800 ≤ n) (high : n < 0x10000) (whole : n < 0xD800 ∨ 0xE000 ≤ n)
      (first : a.toNat = 0xE0 + n / 4096) (second : b.toNat = 0x80 + n / 64 % 64)
      (third : c.toNat = 0x80 + n % 64) : Encodes n [a, b, c]
  | four {a b c d : UInt8} (low : 0x10000 ≤ n) (high : n < 0x110000)
      (first : a.toNat = 0xF0 + n / 262144) (second : b.toNat = 0x80 + n / 4096 % 64)
      (third : c.toNat = 0x80 + n / 64 % 64) (fourth : d.toNat = 0x80 + n % 64) :
      Encodes n [a, b, c, d]

theorem encodes_char (c : Char) : Encodes c.toNat (String.utf8EncodeChar c) := by
  have valid : c.toNat < 0xD800 ∨ 0xDFFF < c.toNat ∧ c.toNat < 0x110000 := c.valid
  have code : c.val.toNat = c.toNat := rfl
  fun_cases String.utf8EncodeChar c with
  | case1 v one => exact .one (by omega) (by rw [UInt8.toNat_ofNat']; omega)
  | case2 v _ two =>
    refine .two ?_ ?_ ?_ ?_ <;> (try rw [UInt8.toNat_ofNat']) <;> omega
  | case3 v _ _ three =>
    refine .three ?_ ?_ ?_ ?_ ?_ ?_ <;> (try rw [UInt8.toNat_ofNat']) <;> omega
  | case4 v _ _ four =>
    refine .four ?_ ?_ ?_ ?_ ?_ ?_ <;> (try rw [UInt8.toNat_ofNat']) <;> omega

theorem encode_eq (s : String) : encode s = s.toList.flatMap String.utf8EncodeChar := by
  have bytes : s.toList.utf8Encode.data.toList = s.toList.flatMap String.utf8EncodeChar := by
    simp [List.utf8Encode]
  rw [encode, String.toUTF8_eq_toByteArray, ← String.utf8Encode_toList, bytes]

theorem encode_ofList (cs : List Char) :
    encode (String.ofList cs) = cs.flatMap String.utf8EncodeChar := by
  rw [encode_eq, String.toList_ofList]

theorem decode?_eq_some_iff {bytes : Bytes} {s : String} :
    decode? bytes = some s ↔ bytes = encode s := by
  rw [decode?, String.fromUTF8?]
  constructor
  · intro h
    split at h
    · cases h
      rfl
    · cases h
  · rintro rfl
    have same : (⟨(encode s).toArray⟩ : ByteArray) = s.toByteArray := rfl
    rw [dif_pos (same ▸ s.isValidUTF8)]
    rfl

theorem encode_inj {s t : String} : encode s = encode t ↔ s = t := by
  refine ⟨fun same => ?_, congrArg encode⟩
  have read := decode?_eq_some_iff.2 same
  rw [decode?_eq_some_iff.2 rfl] at read
  exact Option.some.inj read

/-! ## ASCII -/

theorem ofNat_of_ascii {b : UInt8} (ascii : b.toNat < 0x80) :
    (Char.ofNat b.toNat).toNat = b.toNat := by
  have valid : b.toNat.isValidChar := .inl (by omega)
  rw [Char.ofNat, dif_pos valid]
  rfl

theorem encode_ascii {c : Char} (ascii : c.toNat < 0x80) :
    String.utf8EncodeChar c = [UInt8.ofNat c.toNat] := by
  have bytes := encodes_char c
  generalize String.utf8EncodeChar c = written at bytes
  cases bytes with
  | one range first => rw [← first, UInt8.ofNat_toNat]
  | two low | three low | four low => omega

theorem encode_byte {b : UInt8} (ascii : b.toNat < 0x80) :
    String.utf8EncodeChar (Char.ofNat b.toNat) = [b] := by
  rw [encode_ascii (by rwa [ofNat_of_ascii ascii]), ofNat_of_ascii ascii, UInt8.ofNat_toNat]

/-- A text of ASCII has one byte for each character. -/
theorem utf8ByteSize_of_ascii {cs : List Char} (ascii : ∀ c ∈ cs, c.toNat < 0x80) :
    (String.ofList cs).utf8ByteSize = cs.length := by
  have single : ∀ c ∈ cs, (String.utf8EncodeChar c).length = 1 := fun c hc => by
    rw [encode_ascii (ascii c hc), List.length_singleton]
  calc (String.ofList cs).utf8ByteSize
    _ = (encode (String.ofList cs)).length := rfl
    _ = (cs.map fun c => (String.utf8EncodeChar c).length).sum := by
      rw [encode_ofList, List.length_flatMap]
    _ = cs.length := by
      rw [List.map_congr_left single, List.map_const', List.sum_replicate_nat, Nat.mul_one]

theorem beyond_of_encodes {n : Nat} {bytes : Bytes} (h : Encodes n bytes) (far : 0x80 ≤ n) :
    ∀ b ∈ bytes, 0x80 ≤ b.toNat := by
  cases h with
  | one range => omega
  | two | three | four =>
    simp only [List.forall_mem_cons, List.not_mem_nil, false_implies, implies_true, and_true]
    omega

/-- A byte below 0x80 is a character. -/
theorem mem_of_ascii {s : List Char} {b : UInt8} (mem : b ∈ s.flatMap String.utf8EncodeChar)
    (ascii : b.toNat < 0x80) : Char.ofNat b.toNat ∈ s := by
  obtain ⟨c, hc, mem⟩ := List.mem_flatMap.1 mem
  suffices same : b.toNat = c.toNat by rwa [same, Char.ofNat_toNat]
  have near : c.toNat < 0x80 := Nat.lt_of_not_le fun far => by
    have beyond := beyond_of_encodes (encodes_char c) far b mem
    omega
  rw [encode_ascii near] at mem
  rw [List.mem_singleton.1 mem, UInt8.toNat_ofNat']
  omega

/-! ## Faults -/

/-- What must follow the first byte of a longer character, and how often. -/
structure Rule (a b : UInt8) (more : Nat) : Prop where
  long : ¬ a < 0x80
  rule : ∃ low high, tailRule? a = some (more, low, high) ∧ low ≤ b ∧ b ≤ high

theorem tailRule?_eq (a : UInt8) : tailRule? a =
    if 0xC2 ≤ a.toNat ∧ a.toNat ≤ 0xDF then some (1, 0x80, 0xBF)
    else if a.toNat = 0xE0 then some (2, 0xA0, 0xBF)
    else if a.toNat = 0xED then some (2, 0x80, 0x9F)
    else if 0xE1 ≤ a.toNat ∧ a.toNat ≤ 0xEF then some (2, 0x80, 0xBF)
    else if a.toNat = 0xF0 then some (3, 0x90, 0xBF)
    else if 0xF1 ≤ a.toNat ∧ a.toNat ≤ 0xF3 then some (3, 0x80, 0xBF)
    else if a.toNat = 0xF4 then some (3, 0x80, 0x8F)
    else none := by
  simp [tailRule?, UInt8.le_iff_toNat_le, ← UInt8.toNat_inj]

theorem Rule.head_eq {a b : UInt8} {more : Nat} (h : Rule a b more) (rest : Bytes) :
    head a (b :: rest) = tails 2 (more - 1) rest := by
  obtain ⟨low, high, rule, above, below⟩ := h.rule
  rw [head, if_neg h.long, rule]
  simp [above, below]

theorem isTail_of_toNat {b : UInt8} {k : Nat} (h : b.toNat = 0x80 + k % 64) : isTail b := by
  simp [isTail, UInt8.le_iff_toNat_le]
  omega

/-- The bytes of a character are whole, whatever follows them. -/
theorem Encodes.head_eq {n : Nat} {bytes : Bytes} (h : Encodes n bytes) (rest : Bytes) :
    ∃ first tail, bytes = first :: tail ∧ head first (tail ++ rest) = .whole bytes.length := by
  cases h with
  | one range first =>
    refine ⟨_, [], rfl, ?_⟩
    rw [head, if_pos (by rw [UInt8.lt_iff_toNat_lt]; simp; omega)]
    rfl
  | @two a b low high first second =>
    have rule : Rule a b 1 := by
      refine ⟨by rw [UInt8.lt_iff_toNat_lt]; simp; omega, ?_⟩
      rw [tailRule?_eq, if_pos (by omega)]
      exact ⟨_, _, rfl, by simp [UInt8.le_iff_toNat_le]; omega⟩
    exact ⟨a, [b], rfl, rule.head_eq rest⟩
  | @three a b c low high whole first second third =>
    have rule : Rule a b 2 := by
      refine ⟨by rw [UInt8.lt_iff_toNat_lt]; simp; omega, ?_⟩
      rw [tailRule?_eq]
      split_ifs <;> first
        | omega
        | exact ⟨_, _, rfl, by simp [UInt8.le_iff_toNat_le]; omega⟩
    refine ⟨a, [b, c], rfl, (rule.head_eq _).trans ?_⟩
    simp [tails, isTail_of_toNat third]
  | @four a b c d low high first second third fourth =>
    have rule : Rule a b 3 := by
      refine ⟨by rw [UInt8.lt_iff_toNat_lt]; simp; omega, ?_⟩
      rw [tailRule?_eq]
      split_ifs <;> first
        | omega
        | exact ⟨_, _, rfl, by simp [UInt8.le_iff_toNat_le]; omega⟩
    refine ⟨a, [b, c, d], rfl, (rule.head_eq _).trans ?_⟩
    simp [tails, isTail_of_toNat third, isTail_of_toNat fourth]

theorem faultFrom_skip (index : Nat) (skipped rest : Bytes) :
    faultFrom index skipped.length (skipped ++ rest) = faultFrom (index + skipped.length) 0 rest := by
  induction skipped generalizing index with
  | nil => rfl
  | cons b skipped ih =>
    rw [List.cons_append, List.length_cons, faultFrom, ih]
    congr 1
    omega

theorem Encodes.faultFrom_append {n : Nat} {bytes : Bytes} (h : Encodes n bytes) (index : Nat)
    (rest : Bytes) :
    faultFrom index 0 (bytes ++ rest) = faultFrom (index + bytes.length) 0 rest := by
  obtain ⟨first, tail, rfl, whole⟩ := h.head_eq rest
  rw [List.cons_append, faultFrom, whole]
  simp only [List.length_cons, Nat.add_sub_cancel]
  rw [faultFrom_skip]
  congr 1
  omega

/-- There is no fault in what is written, wherever it is looked for. -/
theorem fault?_encode (s : String) : fault? (encode s) = none := by
  have none : ∀ (cs : List Char) index,
      faultFrom index 0 (cs.flatMap String.utf8EncodeChar) = none := by
    intro cs
    induction cs with
    | nil => exact fun _ => rfl
    | cons c cs ih =>
      intro index
      rw [List.flatMap_cons, (encodes_char c).faultFrom_append, ih]
  rw [fault?, encode_eq, none]

/-! ## Order -/

/-- The bytes of characters are in the order of the characters, whatever follows them. -/
theorem Encodes.lt {n m : Nat} {bytes bytes' : Bytes} (h : Encodes n bytes) (h' : Encodes m bytes')
    (less : n < m) (rest rest' : Bytes) : bytes ++ rest < bytes' ++ rest' := by
  cases h <;> cases h' <;>
    simp only [List.cons_append, List.nil_append, List.cons_lt_cons_iff, UInt8.lt_iff_toNat_lt,
      ← UInt8.toNat_inj] <;> omega

theorem flatMap_lt {s t : List Char} (h : s < t) :
    s.flatMap String.utf8EncodeChar < t.flatMap String.utf8EncodeChar := by
  induction s generalizing t with
  | nil =>
    cases t with
    | nil => exact absurd h (List.lt_irrefl _)
    | cons d t =>
      obtain ⟨first, tail, bytes, -⟩ := (encodes_char d).head_eq []
      rw [List.flatMap_cons, bytes]
      exact List.nil_lt_cons ..
  | cons c s ih =>
    cases t with
    | nil => exact absurd h (List.not_lt_nil _)
    | cons d t =>
      rw [List.flatMap_cons, List.flatMap_cons]
      rcases List.cons_lt_cons_iff.1 h with less | ⟨rfl, less⟩
      · exact (encodes_char c).lt (encodes_char d) less _ _
      · exact List.append_left_lt (ih less)

/-- Texts are in the order of their bytes. -/
theorem encode_lt_iff {s t : String} : encode s < encode t ↔ s < t := by
  have less : ∀ {s t : String}, s < t → encode s < encode t := fun h => by
    rw [encode_eq, encode_eq]
    exact flatMap_lt h
  refine ⟨fun bytes => Decidable.byContradiction fun other => ?_, less⟩
  rcases Decidable.em (t < s) with after | same
  · exact List.lt_irrefl _ (List.lt_trans bytes (less after))
  · cases String.le_antisymm (String.not_lt.1 same) (String.not_lt.1 other)
    exact List.lt_irrefl _ bytes

end Acceptance.Text.Utf8
