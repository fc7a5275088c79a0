import Acceptance.Duration
import Acceptance.Proofs.Trimming
import Mathlib.Data.List.Basic

/-!
# Lengths of time as they are typed

* `Duration.Count`, `Duration.Says`: the texts that say a length of time, and what they say;
* `Duration.Reads`: what is to come of reading a text;
* `Duration.parse_eq_iff`: it comes of it;
* `Duration.typed_times`: the same, with the message for a time of no length.
-/

namespace Acceptance.Duration

/-- The letters that stand for units, with the seconds in one of each. -/
def units : List (Char × Nat) := [('h', 3600), ('m', 60), ('s', 1)]

/-- Digits, zeros before others among them, and their value. -/
structure Numeral (text : List Char) (n : Nat) : Prop where
  nonempty : text ≠ []
  digits : ∀ c ∈ text, c.isDigit
  value : n = Nat.ofDigitChars 10 text 0

/-- A count as it is written. -/
inductive Count : List Char → Nat → Prop where
  | bare {digits : List Char} {n : Nat} (numeral : Numeral digits n) : Count digits n
  | signed {digits : List Char} {n : Nat} (numeral : Numeral digits n) : Count ('+' :: digits) n

/-- The text says `n` times `k` seconds. -/
inductive Says : List Char → Nat → Nat → Prop where
  | bare {number : List Char} {n : Nat} (count : Count number n) : Says number n 1
  | unit {number blanks : List Char} {c : Char} {n k : Nat} (count : Count number n)
      (blank : ∀ b ∈ blanks, Text.isBlank b) (unit : (c, k) ∈ units) :
      Says (number ++ blanks ++ [c]) n k

/-- What is to come of a text without blanks at its ends. -/
inductive Reads (t : List Char) : Except Fault Nat → Prop where
  | time {n k : Nat} (said : Says t n k) (counted : n < limit) (bounded : n * k < limit)
      (positive : n * k ≠ 0) : Reads t (.ok (ofSeconds (n * k)))
  | zero {n k : Nat} (said : Says t n k) (nothing : n * k = 0) :
      Reads t (.error (.zero (String.ofList t)))
  | malformed (unsaid : ∀ n k, Says t n k → limit ≤ n ∨ limit ≤ n * k) :
      Reads t (.error (.malformed (String.ofList t)))

/-! ## Characters -/

theorem isDigit_iff (c : Char) : c.isDigit ↔ 48 ≤ c.toNat ∧ c.toNat ≤ 57 := by
  simp [Char.isDigit, UInt32.le_iff_toNat_le, ← Char.toNat_val]

theorem isAlpha_iff (c : Char) : c.isAlpha ↔
    (65 ≤ c.toNat ∧ c.toNat ≤ 90) ∨ (97 ≤ c.toNat ∧ c.toNat ≤ 122) := by
  change (decide (c.val ≥ 'A'.val ∧ c.val ≤ 'Z'.val) ||
    decide (c.val ≥ 'a'.val) && decide (c.val ≤ 'z'.val)) = true ↔ _
  simp [UInt32.le_iff_toNat_le, ← Char.toNat_val]

theorem not_isBlank_of_isDigit {c : Char} (h : c.isDigit) : ¬ Text.isBlank c := by
  rw [isDigit_iff] at h
  simp only [Text.isBlank, Bool.or_eq_true, Bool.and_eq_true, decide_eq_true_eq, beq_iff_eq]
  omega

theorem not_isAlpha_of_isDigit {c : Char} (h : c.isDigit) : ¬ c.isAlpha := by
  rw [isDigit_iff] at h
  rw [isAlpha_iff]
  omega

/-! ## Counts -/

theorem digitsValue_eq (digits : List Char) :
    digitsValue digits = Nat.ofDigitChars 10 digits 0 := by
  simp [digitsValue, Nat.ofDigitChars, Nat.mul_comm]

theorem numeral_iff {digits : List Char} {n : Nat} :
    (if digits.isEmpty || !digits.all Char.isDigit then none
      else if digitsValue digits < limit then some (digitsValue digits) else none) = some n ↔
    Numeral digits n ∧ n < limit := by
  rw [digitsValue_eq]
  constructor
  · intro h
    split at h
    · cases h
    · rename_i written
      split at h <;> cases h
      rename_i below
      simp only [Bool.or_eq_true, Bool.not_eq_true', not_or, List.isEmpty_iff,
        Bool.not_eq_false, List.all_eq_true] at written
      exact ⟨⟨written.1, written.2, rfl⟩, below⟩
  · rintro ⟨⟨nonempty, all, rfl⟩, below⟩
    rw [if_neg, if_pos (show _ < limit from below)]
    simpa [nonempty] using all

theorem not_numeral_plus {digits : List Char} {n : Nat} : ¬ Numeral ('+' :: digits) n := fun h => by
  have plus := h.digits '+' List.mem_cons_self
  revert plus
  decide

theorem count?_eq_some {s : List Char} {n : Nat} : count? s = some n ↔ Count s n ∧ n < limit := by
  by_cases sign : ∃ rest, s = '+' :: rest
  · obtain ⟨rest, rfl⟩ := sign
    refine numeral_iff.trans (and_congr_left fun _ => ⟨.signed, fun h => ?_⟩)
    cases h with
    | bare numeral => exact absurd numeral not_numeral_plus
    | signed numeral => exact numeral
  · rw [count?.eq_2 s fun rest same => sign ⟨rest, same⟩]
    refine numeral_iff.trans (and_congr_left fun _ => ⟨.bare, fun h => ?_⟩)
    cases h with
    | bare numeral => exact numeral
    | signed => exact absurd ⟨_, rfl⟩ sign

/-- A count ends with a digit, and blanks are nowhere in it. -/
theorem Count.ends {s : List Char} {n : Nat} (h : Count s n) :
    (∃ c, s.getLast? = some c ∧ c.isDigit) ∧ ∀ c ∈ s, ¬ Text.isBlank c := by
  have plain : ∀ {digits : List Char}, Numeral digits n →
      (∃ c, digits.getLast? = some c ∧ c.isDigit) ∧ ∀ c ∈ digits, ¬ Text.isBlank c := fun h =>
    ⟨⟨_, List.getLast?_eq_getLast_of_ne_nil h.nonempty, h.digits _ (List.getLast_mem h.nonempty)⟩,
      fun c hc => not_isBlank_of_isDigit (h.digits c hc)⟩
  cases h with
  | bare numeral => exact plain numeral
  | signed numeral =>
    obtain ⟨⟨c, last, digit⟩, unblank⟩ := plain numeral
    refine ⟨⟨c, by simp [List.getLast?_cons, last], digit⟩, List.forall_mem_cons.2 ⟨?_, unblank⟩⟩
    decide

/-- The blanks between a count and its unit are left out of the count. -/
theorem Count.trim_append {s blanks : List Char} {n : Nat} (h : Count s n)
    (blank : ∀ b ∈ blanks, Text.isBlank b) : Text.trim (s ++ blanks) = s := by
  obtain ⟨-, unblank⟩ := h.ends
  exact Text.trimmed_iff.1 ⟨⟨[], blanks, rfl, nofun, blank⟩,
    fun c hc => unblank c (List.mem_of_mem_head? hc),
    fun c hc => unblank c (List.mem_of_getLast? hc)⟩

/-! ## Units -/

theorem unitSeconds?_eq_some {c : Char} {k : Nat} : unitSeconds? c = some k ↔ (c, k) ∈ units := by
  simp only [units, List.mem_cons, Prod.mk.injEq, List.not_mem_nil, or_false]
  unfold unitSeconds?
  split <;> simp_all [eq_comm]

theorem isAlpha_of_unit {c : Char} {k : Nat} (h : (c, k) ∈ units) : c.isAlpha := by
  simp only [units, List.mem_cons, Prod.mk.injEq, List.not_mem_nil, or_false] at h
  rcases h with ⟨rfl, -⟩ | ⟨rfl, -⟩ | ⟨rfl, -⟩ <;> decide

theorem splitUnit_concat {s : List Char} {c : Char} (letter : c.isAlpha) :
    splitUnit (s ++ [c]) = (s, c) := by
  simp [splitUnit, letter]

/-- Either the text ends with a letter, or all of it is the number. -/
theorem splitUnit_cases (t : List Char) :
    (∃ s c, t = s ++ [c] ∧ splitUnit t = (s, c)) ∨ splitUnit t = (t, 's') := by
  rcases List.eq_nil_or_concat t with rfl | ⟨s, c, rfl⟩
  · exact .inr rfl
  · rw [List.concat_eq_append]
    by_cases letter : c.isAlpha
    · exact .inl ⟨s, c, rfl, splitUnit_concat letter⟩
    · exact .inr (by simp [splitUnit, letter])

/-! ## Texts -/

theorem seconds?_eq_some_iff {t : List Char} {m : Nat} : seconds? t = some m ↔ ∃ n k,
    count? (Text.trim (splitUnit t).1) = some n ∧ ((splitUnit t).2, k) ∈ units ∧
      n * k < limit ∧ m = n * k := by
  simp only [seconds?, Option.bind_eq_bind, Option.bind_eq_some_iff, unitSeconds?_eq_some]
  constructor
  · rintro ⟨n, counted, k, unit, total⟩
    split at total <;> cases total
    exact ⟨n, k, counted, unit, ‹_›, rfl⟩
  · rintro ⟨n, k, counted, unit, bounded, rfl⟩
    exact ⟨n, counted, k, unit, if_pos bounded⟩

/-- A text that says a time is split where its count ends. -/
theorem Says.seconds? {t : List Char} {n k : Nat} (h : Says t n k) (counted : n < limit)
    (bounded : n * k < limit) : seconds? t = some (n * k) := by
  rw [seconds?_eq_some_iff]
  cases h with
  | bare count =>
    obtain ⟨⟨c, last, digit⟩, -⟩ := count.ends
    have whole : splitUnit t = (t, 's') := by
      simp [splitUnit, last, not_isAlpha_of_isDigit digit]
    have trimmed : Text.trim t = t := by
      simpa using count.trim_append (List.forall_mem_nil _)
    rw [whole, trimmed]
    exact ⟨n, 1, count?_eq_some.2 ⟨count, counted⟩, by simp [units], bounded, rfl⟩
  | unit count blank unit =>
    rw [splitUnit_concat (isAlpha_of_unit unit), count.trim_append blank]
    exact ⟨n, k, count?_eq_some.2 ⟨count, counted⟩, unit, bounded, rfl⟩

/-- Only a text that says a time has one, where no blanks stand at its ends. -/
theorem says_of_seconds? {s t : List Char} (trimmed : Text.Trimmed s t) {m : Nat}
    (h : seconds? t = some m) : ∃ n k, Says t n k ∧ n < limit ∧ n * k < limit ∧ m = n * k := by
  obtain ⟨n, k, counted, unit, bounded, rfl⟩ := seconds?_eq_some_iff.1 h
  refine ⟨n, k, ?_, (count?_eq_some.1 counted).2, bounded, rfl⟩
  have count := (count?_eq_some.1 counted).1
  rcases splitUnit_cases t with ⟨number, c, rfl, split⟩ | whole
  · rw [split] at count unit
    obtain ⟨before, after, parts, blank, blank'⟩ := (Text.trimmed_trim number).between
    -- What stands before the count would stand at the start of the text.
    have nothing : before = [] := by
      cases before with
      | nil => rfl
      | cons b before =>
        refine absurd (blank b List.mem_cons_self) (trimmed.first b ?_)
        rw [parts]
        rfl
    subst nothing
    rw [parts, List.nil_append]
    exact .unit count blank' unit
  · rw [whole] at count unit
    have all : Text.trim t = t :=
      Text.trimmed_iff.1 ⟨⟨[], [], by simp, nofun, nofun⟩, trimmed.first, trimmed.last⟩
    rw [all] at count
    obtain rfl : k = 1 := by simpa [units] using unit
    exact .bare count

/-- There is none where nothing is said, or too much. -/
theorem seconds?_eq_none {s t : List Char} (trimmed : Text.Trimmed s t) :
    seconds? t = none ↔ ∀ n k, Says t n k → limit ≤ n ∨ limit ≤ n * k := by
  rw [Option.eq_none_iff_forall_ne_some]
  constructor
  · refine fun none n k said => Decidable.byContradiction fun inside => ?_
    rw [not_or, Nat.not_le, Nat.not_le] at inside
    exact none _ (said.seconds? inside.1 inside.2)
  · intro outside m some
    obtain ⟨n, k, said, counted, bounded, -⟩ := says_of_seconds? trimmed some
    rcases outside n k said with above | above
    · exact Nat.not_lt.2 above counted
    · exact Nat.not_lt.2 above bounded

/-- Reading does with a text what is to come of it. -/
theorem parse_reads (s : String) : Reads (Text.trim s.toList) (parse s) := by
  have trimmed := Text.trimmed_trim s.toList
  simp only [parse]
  split
  · exact .malformed ((seconds?_eq_none trimmed).1 ‹_›)
  · obtain ⟨n, k, said, -, -, nothing⟩ := says_of_seconds? trimmed ‹_›
    exact .zero said nothing.symm
  · rename_i m positive read
    obtain ⟨n, k, said, counted, bounded, rfl⟩ := says_of_seconds? trimmed read
    exact .time said counted bounded positive

/-- A unit has seconds, so that only a count of none is a time of no length. -/
theorem Says.count_eq_zero {t : List Char} {n k : Nat} (h : Says t n k) (nothing : n * k = 0) :
    n = 0 := by
  refine (Nat.mul_eq_zero.1 nothing).resolve_right ?_
  cases h with
  | bare => decide
  | unit _ _ unit =>
    simp only [units, List.mem_cons, Prod.mk.injEq, List.not_mem_nil, or_false] at unit
    omega

/-- Nothing else is to come of it. -/
theorem Reads.eq_parse {s : String} {r : Except Fault Nat} (h : Reads (Text.trim s.toList) r) :
    parse s = r := by
  simp only [parse]
  cases h with
  | time said counted bounded positive =>
    rw [said.seconds? counted bounded]
    split
    · cases ‹some _ = none›
    · exact absurd (Option.some.inj ‹_›) positive
    · cases ‹some _ = some _›
      rfl
  | zero said nothing =>
    have zero := said.count_eq_zero nothing
    rw [said.seconds? (by rw [zero]; decide) (by rw [nothing]; decide), nothing]
    rfl
  | malformed unsaid =>
    rw [(seconds?_eq_none (Text.trimmed_trim _)).2 unsaid]

/-- Reading a text does with it what is to come of it, and nothing else. -/
theorem parse_eq_iff (s : String) (r : Except Fault Nat) :
    parse s = r ↔ ∃ t, Text.Trimmed s.toList t ∧ Reads t r := by
  constructor
  · rintro rfl
    exact ⟨_, Text.trimmed_trim _, parse_reads s⟩
  · rintro ⟨t, trimmed, reads⟩
    rw [← Text.trimmed_iff.1 trimmed] at reads
    exact reads.eq_parse

example : parse " +090 m\n" = .ok (ofSeconds 5400) := rfl

/-! ## Messages -/

theorem Fault.message_eq_zero {f : Fault} {text : String} :
    f.message = s!"duration '{text}' must be greater than zero" ↔ f = .zero text := by
  refine ⟨fun h => ?_, fun h => by rw [h]; rfl⟩
  cases f with
  | malformed other =>
    -- One message starts with an `i`, the other with a `d`.
    have same : "invalid duration '" ++ other ++ "', expected e.g. 1h, 15m, 90s" =
      "duration '" ++ text ++ "' must be greater than zero" := h
    have first := congrArg (fun s : String => s.toList.head?) same
    simp only [String.toList_append] at first
    simp at first
  | zero other =>
    have same : "duration '" ++ other ++ "' must be greater than zero" =
      "duration '" ++ text ++ "' must be greater than zero" := h
    simp only [← String.toList_inj, String.toList_append] at same
    rw [String.toList_inj.1 (List.append_cancel_left (List.append_cancel_right same))]

theorem parse_eq_zero_iff (s text : String) : parse s = .error (.zero text) ↔
    Text.Trimmed s.toList text.toList ∧ ∃ n k, Says text.toList n k ∧ n * k = 0 := by
  rw [parse_eq_iff]
  constructor
  · rintro ⟨t, trimmed, reads⟩
    generalize same : Except.error (Fault.zero text) = r at reads
    cases reads with
    | time | malformed => cases same
    | zero said nothing =>
      cases same
      rw [String.toList_ofList]
      exact ⟨trimmed, _, _, said, nothing⟩
  · rintro ⟨trimmed, n, k, said, nothing⟩
    refine ⟨_, trimmed, ?_⟩
    simpa using Reads.zero said nothing

/-- What is typed is read as a length of time exactly where, between the blanks at its two ends,
it says one that is positive and that 64 bits of seconds hold, and it is read as what it says.
Anything else is refused, with the message for a time of no length exactly where it says one. -/
theorem typed_times (s : String) :
    (∀ r, parse s = r ↔ ∃ t, Text.Trimmed s.toList t ∧ Reads t r) ∧
    ∀ text : String,
      (∃ f, parse s = .error f ∧ f.message = s!"duration '{text}' must be greater than zero") ↔
        Text.Trimmed s.toList text.toList ∧ ∃ n k, Says text.toList n k ∧ n * k = 0 := by
  refine ⟨parse_eq_iff s, fun text => ?_⟩
  simp only [Fault.message_eq_zero, exists_eq_right, parse_eq_zero_iff]

end Acceptance.Duration
