import Mathlib.Data.FinEnum
import Mathlib.Data.Fintype.BigOperators
import Acceptance.Password

/-!
# Passwords drawn at random

A byte that is used becomes any character as likely as any other, so that a word is drawn from as
many strings of bytes as any other word of its length.

* `Password.fill_eq`: a text is continued with the characters of the bytes that are used, as many as
  it lacks;
* `Password.ways`: in how many ways bytes make a word;
* `Password.card_draws`: that many strings of bytes make it, whatever the word;
* `Password.drawn_alike`: words of one length are equally likely.
-/

namespace Acceptance.Password

/-! ## What is drawn -/

/-- The characters of the bytes that are used. -/
def symbols (bytes : List UInt8) : List Char := bytes.filterMap symbol?

theorem fill_eq {target size : Nat} (room : size ≤ target) (out : List Char) (bytes : List UInt8) :
    fill target size out bytes = out ++ (symbols bytes).take (target - size) := by
  induction bytes generalizing size out with
  | nil => simp [fill, symbols]
  | cons b rest ih =>
    by_cases full : size = target
    · simp [fill, full]
    · rw [fill, if_neg full]
      cases used : symbol? b with
      | none =>
        dsimp only
        rw [ih room, symbols, symbols, List.filterMap_cons_none used]
      | some c =>
        have left : target - size = target - (size + 1) + 1 := by omega
        dsimp only
        rw [ih (by omega), symbols, symbols, List.filterMap_cons_some used, left,
          List.take_succ_cons, List.append_assoc, List.singleton_append]

theorem toList_extend_empty (bytes : List UInt8) (target : Nat) :
    (extend "" bytes target).toList = (symbols bytes).take target := by
  rw [extend, String.toList_ofList]
  exact fill_eq (Nat.zero_le _) [] bytes

theorem mem_symbols {bytes : List UInt8} {c : Char} (h : c ∈ symbols bytes) : c ∈ alphabet := by
  obtain ⟨b, -, used⟩ := List.mem_filterMap.1 h
  rw [symbol?] at used
  split at used
  · exact List.mem_of_getElem? used
  · cases used

/-! ## How often it is drawn -/

/-- Bytes that are passed over. -/
def passed : Nat := 256 - acceptBelow

/-- Bytes that become a certain character. -/
def share : Nat := acceptBelow / alphabet.length

/-- In how many ways `m` bytes make a certain word of `l` characters, where no more than `n`
characters are drawn. -/
def ways : Nat → Nat → Nat → Nat
  | m, 0, l => if l = 0 then 256 ^ m else 0
  | 0, _ + 1, l => if l = 0 then 1 else 0
  | m + 1, n + 1, 0 => passed * ways m (n + 1) 0
  | m + 1, n + 1, l + 1 => passed * ways m (n + 1) (l + 1) + share * ways m n l

/-- The strings of `m` bytes of which `w` is drawn, where no more than `n` characters are. -/
def draws (m n : Nat) (w : List Char) : Finset (Fin m → UInt8) :=
  {b | (symbols (List.ofFn b)).take n = w}

theorem card_passed : ({b | symbol? b = none} : Finset UInt8).card = passed := by decide +kernel

theorem card_share {c : Char} (mem : c ∈ alphabet) :
    ({b | symbol? b = some c} : Finset UInt8).card = share := by
  have all : alphabet.all fun c => ({b | symbol? b = some c} : Finset UInt8).card == share := by
    decide +kernel
  exact beq_iff_eq.1 (List.all_eq_true.1 all c mem)

/-- Strings are counted by their first bytes. -/
theorem card_by_first (m : Nat) (P : List UInt8 → Prop) [DecidablePred P] :
    ({b | P (List.ofFn b)} : Finset (Fin (m + 1) → UInt8)).card =
      ∑ a, ({b | P (a :: List.ofFn b)} : Finset (Fin m → UInt8)).card := by
  simp only [Finset.card_filter]
  rw [← (Fin.consEquiv fun _ : Fin (m + 1) => UInt8).sum_comp, Fintype.sum_prod_type]
  simp [Fin.consEquiv, List.ofFn_succ]

/-- A sum over all bytes that looks only whether they are passed over, or become `c`. -/
theorem sum_bytes {c : Char} (member : c ∈ alphabet) (x y : Nat) :
    ∑ b, (match symbol? b with
      | none => x
      | some d => if d = c then y else 0) = passed * x + share * y := by
  have split : ∀ b, (match symbol? b with
      | none => x
      | some d => if d = c then y else 0) =
      (if symbol? b = none then x else 0) + if symbol? b = some c then y else 0 := by
    intro b
    cases symbol? b <;> simp
  simp only [split]
  rw [Finset.sum_add_distrib, ← Finset.sum_filter, ← Finset.sum_filter, Finset.sum_const,
    Finset.sum_const, card_passed, card_share member]
  rfl

/-- A word is drawn by the first byte, or in spite of it. -/
theorem card_draws_succ (m n : Nat) (w : List Char) :
    (draws (m + 1) (n + 1) w).card = ∑ b, (match symbol? b with
      | none => (draws m (n + 1) w).card
      | some d => if w.head? = some d then (draws m n w.tail).card else 0) := by
  rw [draws, card_by_first m fun b => (symbols b).take (n + 1) = w]
  refine Finset.sum_congr rfl fun b _ => ?_
  cases used : symbol? b with
  | none =>
    simp only [symbols, List.filterMap_cons_none used]
    rfl
  | some d =>
    simp only [symbols, List.filterMap_cons_some used, List.take_succ_cons]
    cases w with
    | nil => simp
    | cons c w =>
      by_cases same : c = d
      · simp [same, draws, symbols]
      · simp [same, Ne.symm same]

theorem card_draws (m n : Nat) {w : List Char} (member : ∀ c ∈ w, c ∈ alphabet) :
    (draws m n w).card = ways m n w.length := by
  have bytes : Fintype.card UInt8 = 256 := by decide +kernel
  -- By the number of bytes, for all words: the first byte draws the head of the word or nothing.
  induction m generalizing n w with
  | zero =>
    cases n <;> cases w <;> simp [draws, ways, symbols]
  | succ m ih =>
    cases n with
    | zero => cases w <;> simp [draws, ways, bytes]
    | succ n =>
      rw [card_draws_succ]
      cases w with
      | nil =>
        have sum := sum_bytes (c := 'A') (by decide) (draws m (n + 1) []).card 0
        simp only [ite_self] at sum
        simp only [List.head?_nil, reduceCtorEq, if_false]
        rw [sum, ih _ member]
        rfl
      | cons c w =>
        have rest : ∀ c ∈ w, c ∈ alphabet := fun c mem => member c (List.mem_cons_of_mem _ mem)
        simp only [List.head?_cons, Option.some.injEq, List.tail_cons, eq_comm (a := c)]
        rw [sum_bytes (member c List.mem_cons_self), ih _ member, ih _ rest]
        rfl

/-- A text that is drawn has only letters and digits, and words of one length are drawn from equally
many strings of random bytes. -/
theorem drawn_alike (m n : Nat) :
    (∀ b : Fin m → UInt8, ∀ c ∈ (extend "" (List.ofFn b) n).toList, c ∈ alphabet) ∧
    (∀ w : String, (∀ c ∈ w.toList, c ∈ alphabet) →
      Fintype.card {b : Fin m → UInt8 // extend "" (List.ofFn b) n = w} = ways m n w.length) ∧
    ∀ w₁ w₂ : String, (∀ c ∈ w₁.toList, c ∈ alphabet) → (∀ c ∈ w₂.toList, c ∈ alphabet) →
      w₁.length = w₂.length →
        Fintype.card {b : Fin m → UInt8 // extend "" (List.ofFn b) n = w₁} =
          Fintype.card {b : Fin m → UInt8 // extend "" (List.ofFn b) n = w₂} := by
  have counted : ∀ w : String, (∀ c ∈ w.toList, c ∈ alphabet) →
      Fintype.card {b : Fin m → UInt8 // extend "" (List.ofFn b) n = w} = ways m n w.length := by
    intro w member
    rw [← String.length_toList, ← card_draws m n member, Fintype.card_subtype, draws]
    simp only [← String.toList_inj, toList_extend_empty]
  refine ⟨fun b c drawn => ?_, counted, fun w₁ w₂ member₁ member₂ same => ?_⟩
  · rw [toList_extend_empty] at drawn
    exact mem_symbols (List.mem_of_mem_take drawn)
  · rw [counted w₁ member₁, counted w₂ member₂, same]

/-- Two words of two characters, from four bytes. -/
theorem drawn_alike_pairs : (∀ c ∈ "A9".toList, c ∈ alphabet) ∧ (∀ c ∈ "zz".toList, c ∈ alphabet) ∧
    Fintype.card {b : Fin 4 → UInt8 // extend "" (List.ofFn b) 2 = "A9"} = 1117184 ∧
    Fintype.card {b : Fin 4 → UInt8 // extend "" (List.ofFn b) 2 = "A9"} =
      Fintype.card {b : Fin 4 → UInt8 // extend "" (List.ofFn b) 2 = "zz"} := by
  have member {w : List Char} (all : w.all (· ∈ alphabet)) : ∀ c ∈ w, c ∈ alphabet := by
    simpa only [List.all_eq_true, decide_eq_true_eq] using all
  have member₁ : ∀ c ∈ "A9".toList, c ∈ alphabet := member (by decide)
  have member₂ : ∀ c ∈ "zz".toList, c ∈ alphabet := member (by decide)
  obtain ⟨-, counted, alike⟩ := drawn_alike 4 2
  exact ⟨member₁, member₂, (counted _ member₁).trans (by decide +kernel),
    alike _ _ member₁ member₂ rfl⟩

end Acceptance.Password
