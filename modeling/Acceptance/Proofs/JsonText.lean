import Acceptance.Json.Printer
import Acceptance.Json.Reader
import Acceptance.Proofs.Dictionaries

/-!
# Data in JSON text

* `Json.OfTexts`: texts within objects, as names and secrets are handed over;
* `Json.parse?_text`: such a value is read as it was written.
-/

namespace Acceptance.Json

/-- Texts within objects that nest at most `depth` deep, with the members of each in order. -/
inductive OfTexts : Nat → Json → Prop where
  | text {depth : Nat} (s : String) : OfTexts depth (.string s)
  | object {depth : Nat} {members : List (String × Json)} (ascending : Ascending members)
      (each : ∀ m ∈ members, OfTexts depth m.2) : OfTexts (depth + 1) (.object members)

theorem hexValue?_hexOfByte : ∀ n < 256, ∃ a b, hexOfByte n = [a, b] ∧
    hexValue? a = some (n / 16) ∧ hexValue? b = some (n % 16) := by
  intro n small
  have digit : ∀ k < 16, hexValue? (if k < 10 then Char.ofNat (0x30 + k) else Char.ofNat (0x57 + k)) =
      some k := by decide
  refine ⟨_, _, rfl, ?_, digit _ (Nat.mod_lt _ (by decide))⟩
  rw [digit _ (Nat.mod_lt _ (by decide)), Nat.mod_eq_of_lt (by omega)]

theorem escape?_control {c : Char} (control : c.toNat < 0x20) (rest : List Char) :
    escape? ('u' :: '0' :: '0' :: hexOfByte c.toNat ++ rest) = some (c, rest) := by
  obtain ⟨a, b, digits, high, low⟩ := hexValue?_hexOfByte c.toNat (by omega)
  have zero : hexValue? '0' = some 0 := rfl
  have number : hexFour? ('0' :: '0' :: a :: b :: rest) = some (c.toNat, rest) := by
    simp only [hexFour?, zero, high, low, Option.bind_eq_bind, Option.bind_some, Option.some.injEq,
      Prod.mk.injEq, and_true]
    omega
  have whole : ¬ 0xD800 ≤ c.toNat ∧ ¬ 0xDC00 ≤ c.toNat := by omega
  rw [digits]
  simp [escape?, numbered?, number, whole]

/-- A character stands for itself, or is written as an escape that is read as the character. -/
theorem escapedChar_cases (c : Char) :
    (escapedChar c = [c] ∧ c ≠ '"' ∧ c ≠ '\\' ∧ ¬ c.toNat < 0x20) ∨
    ∃ more, escapedChar c = '\\' :: more ∧ ∀ rest, escape? (more ++ rest) = some (c, rest) := by
  unfold escapedChar
  split
  case h_8 =>
    rename_i quote backslash _ _ _ _ _
    split
    · rename_i control
      exact .inr ⟨_, rfl, escape?_control control⟩
    · rename_i printable
      exact .inl ⟨rfl, quote, backslash, printable⟩
  all_goals exact .inr ⟨_, rfl, fun _ => rfl⟩

theorem stringTail?_escaped (s rest : List Char) {fuel : Nat} (enough : s.length < fuel) :
    stringTail? fuel (s.flatMap escapedChar ++ '"' :: rest) = some (s, rest) := by
  induction s generalizing fuel with
  | nil =>
    obtain ⟨fuel, rfl⟩ := Nat.exists_eq_add_one_of_ne_zero (Nat.ne_of_gt enough)
    rfl
  | cons c s ih =>
    obtain ⟨fuel, rfl⟩ := Nat.exists_eq_add_one_of_ne_zero (Nat.ne_of_gt (Nat.zero_lt_of_lt enough))
    have tail := ih (Nat.lt_of_succ_lt_succ enough)
    rw [List.flatMap_cons, List.append_assoc]
    rcases escapedChar_cases c with ⟨same, quote, backslash, printable⟩ | ⟨more, same, read⟩
    · rw [same, List.singleton_append, stringTail?]
      · rw [if_neg printable, tail]
        rfl
      · exact quote
      · exact backslash
    · rw [same, List.cons_append, stringTail?, read]
      simp only [Option.bind_eq_bind, Option.bind_some, tail]

theorem length_le_escaped (s : List Char) : s.length ≤ (s.flatMap escapedChar).length := by
  induction s with
  | nil => exact Nat.le_refl _
  | cons c s ih =>
    have one : 1 ≤ (escapedChar c).length := by
      rcases escapedChar_cases c with ⟨same, _⟩ | ⟨more, same, _⟩ <;> simp [same]
    rw [List.flatMap_cons, List.length_append, List.length_cons]
    omega

theorem stringRest?_escaped (s : String) (rest : List Char) :
    stringRest? (s.toList.flatMap escapedChar ++ '"' :: rest) = some (s, rest) := by
  have enough := length_le_escaped s.toList
  rw [stringRest?, stringTail?_escaped _ _ (by rw [List.length_append]; omega)]
  simp

/-! ## Members -/

/-- What follows the name of a member. -/
theorem stringText_append (s : String) (rest : List Char) :
    stringText s ++ rest = '"' :: (s.toList.flatMap escapedChar ++ '"' :: rest) := by
  simp [stringText]

theorem memberChars_cons (m : String × Json) (members : List (String × Json)) (rest : List Char) :
    memberChars false (m :: members) ++ rest = '"' :: (m.1.toList.flatMap escapedChar ++ '"' ::
      (':' :: (m.2.chars ++ (memberChars true members ++ rest)))) := by
  rw [memberChars, ← stringText_append]
  simp

theorem memberChars_more (m : String × Json) (members : List (String × Json)) :
    memberChars true (m :: members) = ',' :: memberChars false (m :: members) := by
  rw [memberChars, memberChars]
  rfl

section

variable {read : Read} {members : List (String × Json)}

theorem skipSpace_cons {c : Char} (visible : isSpace c = false) (s : List Char) :
    skipSpace (c :: s) = c :: s := by
  rw [skipSpace, List.dropWhile_cons_of_neg (by simp [visible])]

theorem memberList?_chars (each : ∀ m ∈ members, ∀ rest, read (m.2.chars ++ rest) = some (m.2, rest))
    (present : members ≠ []) (rest : List Char) {fuel : Nat} (enough : members.length ≤ fuel) :
    memberList? read fuel (memberChars false members ++ rest) = some (members, rest) := by
  induction members generalizing fuel with
  | nil => exact absurd rfl present
  | cons m members ih =>
    obtain ⟨first, others⟩ := List.forall_mem_cons.1 each
    obtain ⟨fuel, rfl⟩ := Nat.exists_eq_add_one_of_ne_zero (Nat.ne_zero_of_lt enough)
    rw [memberChars_cons, memberList?, skipSpace_cons rfl]
    simp only [stringRest?_escaped, skipSpace_cons (c := ':') rfl, first, Option.bind_eq_bind,
      Option.bind_some]
    cases members with
    | nil => rfl
    | cons m' members =>
      have more := ih others nofun (Nat.le_of_succ_le_succ enough)
      rw [memberChars_more, List.cons_append, skipSpace_cons rfl]
      simp only [more, Option.bind_some]

theorem length_le_memberChars (members : List (String × Json)) :
    members.length ≤ (memberChars false members).length := by
  induction members with
  | nil => exact Nat.zero_le _
  | cons m members ih =>
    have step := congrArg List.length (memberChars_cons m members [])
    have more : (memberChars false members).length ≤ (memberChars true members).length := by
      cases members with
      | nil => exact Nat.le_refl _
      | cons m members => exact memberChars_more m members ▸ Nat.le_succ _
    simp only [List.length_append, List.length_cons, List.length_nil] at step ⊢
    omega

theorem membersRest?_chars (each : ∀ m ∈ members, ∀ rest, read (m.2.chars ++ rest) = some (m.2, rest))
    (rest : List Char) :
    membersRest? read (memberChars false members ++ rest) = some (members, rest) := by
  cases members with
  | nil => rfl
  | cons m members =>
    have enough : (m :: members).length ≤ (memberChars false (m :: members) ++ rest).length + 1 := by
      have := length_le_memberChars (m :: members)
      rw [List.length_append]
      omega
    have list := memberList?_chars each nofun rest enough
    rw [memberChars_cons] at list ⊢
    rw [membersRest?, skipSpace_cons rfl]
    exact list

end

/-- A written value is read, whatever follows it. -/
theorem value?_chars {depth : Nat} {value : Json} (h : OfTexts depth value) (rest : List Char) :
    value? ofMembers depth (value.chars ++ rest) = some (value, rest) := by
  induction h generalizing rest with
  | text s =>
    rw [chars, stringText_append, value?, skipSpace_cons rfl]
    simp only [stringRest?_escaped, Option.bind_eq_bind, Option.bind_some]
  | object ascending each ih =>
    rw [chars, List.cons_append, value?, skipSpace_cons rfl]
    simp only [membersRest?_chars ih, Option.bind_eq_bind, Option.bind_some]
    rw [ofMembers_eq ascending]

theorem parse?_text {value : Json} (h : OfTexts maxDepth value) : parse? value.text = some value := by
  have read := value?_chars h []
  rw [List.append_nil] at read
  rw [parse?, parseWith?, text, String.toList_ofList, read]
  rfl

end Acceptance.Json
