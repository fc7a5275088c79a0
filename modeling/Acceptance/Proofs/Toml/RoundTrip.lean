import Acceptance.Proofs.Toml.Reader

/-!
# What is written is read

* `quoted?_write`: each quotation that suits a text is read as that text;
* `expressions?_chars`: a written document is read as the lines of its tables.
-/

namespace Acceptance.Toml

/-! ## Parts that repeat -/

section Pieces

variable {α : Type} {step : List Char → Option (Piece α)} {s rest : List Char} {read : List α}

theorem pieces?_last (h : step s = some (.last read rest)) : pieces? step s = some (read, rest) := by
  rw [pieces?, h]

theorem pieces?_more (h : step s = some (.more read rest)) (shorter : rest.length < s.length) :
    pieces? step s = (pieces? step rest).map fun p => (read ++ p.1, p.2) := by
  rw [pieces?, h]
  exact if_pos shorter

/-- A piece before others that are known. -/
theorem pieces?_cons {read' : List α} {rest' : List Char} (h : step s = some (.more read rest))
    (shorter : rest.length < s.length) (others : pieces? step rest = some (read', rest')) :
    pieces? step s = some (read ++ read', rest') := by
  rw [pieces?_more h shorter, others]
  rfl

end Pieces

/-! ## Characters -/

theorem isPlain_of_not_isControl {c : Char} (h : isControl c = false) (line : c ≠ '\n') :
    isPlain c = true := by
  simp only [isControl, Bool.or_eq_false_iff, Bool.and_eq_false_iff, decide_eq_false_iff_not,
    bne_eq_false_iff_eq, beq_eq_false_iff_ne] at h
  simp only [isPlain, Bool.or_eq_true, beq_iff_eq, Bool.and_eq_true, decide_eq_true_eq, bne_iff_ne]
  obtain ⟨(high | tab) | newline, other⟩ := h
  · exact .inr ⟨by omega, other⟩
  · exact .inl tab
  · exact absurd newline line

theorem hexValue?_hexDigit : ∀ n < 16, Json.hexValue? (hexDigit n) = some n := by decide

theorem not_newline {c : Char} (line : c ≠ '\n') (plain : isPlain c = true) (rest : List Char) :
    newline? (c :: rest) = none := by
  have noReturn : c ≠ '\r' := by
    rintro rfl
    cases plain
  unfold newline?
  split
  · rename_i same
    exact absurd (List.cons.inj same).1 line
  · rename_i same
    exact absurd (List.cons.inj same).1 noReturn
  · rfl

/-- A written control is read by its number. -/
theorem numbered?_control {c : Char} (h : isControl c = true) (rest : List Char) :
    numbered? 4 ('0' :: '0' :: hexDigit (c.toNat / 16) :: hexDigit (c.toNat % 16) :: rest) =
      some (c, rest) := by
  have low : c.toNat < 0x80 := by
    simp only [isControl, Bool.or_eq_true, Bool.and_eq_true, decide_eq_true_eq, beq_iff_eq] at h
    omega
  have high := hexValue?_hexDigit (c.toNat / 16) (by omega)
  have units := hexValue?_hexDigit (c.toNat % 16) (by omega)
  have zero : Json.hexValue? '0' = some 0 := rfl
  have number : hexNumber? ['0', '0', hexDigit (c.toNat / 16), hexDigit (c.toNat % 16)] =
      some c.toNat := by
    simp only [hexNumber?, List.foldlM_cons, List.foldlM_nil, zero, high, units, Option.map_some,
      Option.bind_eq_bind, Option.bind_some, Option.pure_def, Option.some.injEq]
    omega
  have valid : c.toNat.isValidChar := c.valid
  simp [numbered?, number, valid]

/-- A character between double quotes stands for itself, or is written as an escape that is read as
the character. -/
theorem escapedChar_cases (c : Char) :
    (escapedChar c = [c] ∧ c ≠ '"' ∧ c ≠ '\\' ∧ c ≠ '\n' ∧ isPlain c = true) ∨
    ∃ e more, escapedChar c = '\\' :: e :: more ∧ isSpace e = false ∧
      (∀ rest, newline? (e :: (more ++ rest)) = none) ∧
      ∀ rest, escape? (e :: (more ++ rest)) = some (c, rest) := by
  unfold escapedChar
  split
  case h_8 =>
    rename_i line _ _ quote backslash
    split
    · rename_i control
      exact .inr ⟨'u', _, rfl, rfl, fun _ => rfl, fun rest => numbered?_control control rest⟩
    · rename_i printable
      have plain := isPlain_of_not_isControl (Bool.eq_false_iff.2 printable) line
      exact .inl ⟨rfl, quote, backslash, line, plain⟩
  all_goals exact .inr ⟨_, _, rfl, rfl, fun _ => rfl, fun _ => rfl⟩

/-! ## Texts on one line -/

theorem lineStep_escapedChar (c : Char) (rest : List Char) :
    lineStep '"' (escapedChar c ++ rest) = some (.more [c] rest) := by
  rcases escapedChar_cases c with ⟨same, quote, backslash, _, plain⟩ | ⟨e, more, same, _, _, read⟩
  · rw [same]
    simp [lineStep, quote, backslash, plain]
  · rw [same]
    simp [lineStep, read]

theorem length_escapedChar (c : Char) : 0 < (escapedChar c).length := by
  rcases escapedChar_cases c with ⟨same, _⟩ | ⟨e, more, same, _⟩ <;> simp [same]

theorem pieces?_escape (s rest : List Char) :
    pieces? (lineStep '"') (escape s ++ '"' :: rest) = some (s, rest) := by
  induction s with
  | nil => exact pieces?_last rfl
  | cons c s ih =>
    have step := lineStep_escapedChar c (escape s ++ '"' :: rest)
    rw [← List.append_assoc] at step
    refine pieces?_cons step ?_ ih
    have := length_escapedChar c
    simp only [List.length_append]
    omega

theorem pieces?_literal {s : List Char} (rest : List Char)
    (plain : ∀ c ∈ s, c ≠ '\'' ∧ isPlain c = true) :
    pieces? (lineStep '\'') (s ++ '\'' :: rest) = some (s, rest) := by
  induction s with
  | nil => exact pieces?_last rfl
  | cons c s ih =>
    obtain ⟨head, tail⟩ := List.forall_mem_cons.1 plain
    have step : lineStep '\'' (c :: (s ++ '\'' :: rest)) = some (.more [c] (s ++ '\'' :: rest)) := by
      simp [lineStep, head]
    exact pieces?_cons step (by simp) (ih tail)

/-! ## Blocks -/

section Block

variable {q : Char} {t rest : List Char}

theorem takeWhile_quotes (head : t.head? ≠ some q) (n : Nat) :
    (List.replicate n q ++ t).takeWhile (· == q) = List.replicate n q ∧
      (List.replicate n q ++ t).dropWhile (· == q) = t := by
  induction n with
  | zero =>
    cases t with
    | nil => exact ⟨rfl, rfl⟩
    | cons c t =>
      have other : (c == q) = false := by simpa using head
      simp [other]
  | succ n ih => simpa [List.replicate_succ] using ih

/-- Up to two quotes in a row belong to the text. -/
theorem pieces?_quotes {n : Nat} (head : t.head? ≠ some q) (few : n ≤ 2) :
    pieces? (blockStep q) (List.replicate n q ++ t) =
      (pieces? (blockStep q) t).map fun p => (List.replicate n q ++ p.1, p.2) := by
  by_cases none : n = 0
  · simp [none]
  · obtain ⟨taken, dropped⟩ := takeWhile_quotes head n
    have step : blockStep q (List.replicate n q ++ t) =
        some (.more (List.replicate n q) t) := by
      simp only [blockStep, taken, dropped, List.length_replicate]
      rw [if_neg (by omega), if_neg (by omega), if_pos (by omega)]
    refine pieces?_more step ?_
    simp only [List.length_append, List.length_replicate]
    omega

/-- The quotes at the end of a block, of which the last three are not part of the text. -/
theorem pieces?_closing {n : Nat} (head : rest.head? ≠ some q) (few : n ≤ 2) :
    pieces? (blockStep q) (List.replicate n q ++ q :: q :: q :: rest) =
      some (List.replicate n q, rest) := by
  have all : List.replicate n q ++ q :: q :: q :: rest = List.replicate (n + 3) q ++ rest := by
    rw [show n + 3 = n + (1 + 1 + 1) from rfl, ← List.replicate_append_replicate]
    simp [List.replicate]
  obtain ⟨taken, dropped⟩ := takeWhile_quotes head (n + 3)
  refine pieces?_last ?_
  rw [all]
  simp only [blockStep, taken, dropped, List.length_replicate]
  rw [if_neg (by omega), if_pos (by omega)]
  rfl

/-- What a block holds where there is no quote. -/
theorem blockStep_other {c : Char} (other : c ≠ q) (t : List Char) : blockStep q (c :: t) =
    match newline? (c :: t) with
    | some rest => some (.more ['\n'] rest)
    | none =>
      if c = '\\' ∧ q = '"' then blockEscape? t
      else if isPlain c then some (.more [c] t)
      else none := by
  have skips : (c :: t).takeWhile (· == q) = [] := by simp [other]
  unfold blockStep
  rw [skips]
  rfl

theorem blockStep_newline (line : '\n' ≠ q) (t : List Char) :
    blockStep q ('\n' :: t) = some (.more ['\n'] t) :=
  blockStep_other line t

theorem blockStep_plain {c : Char} (other : c ≠ q) (plain : isPlain c = true) (line : c ≠ '\n')
    (unescaped : ¬ (c = '\\' ∧ q = '"')) (t : List Char) :
    blockStep q (c :: t) = some (.more [c] t) := by
  rw [blockStep_other other, not_newline line plain]
  dsimp only
  rw [if_neg unescaped, if_pos plain]

theorem blockStep_escapedChar (c : Char) (t : List Char) :
    blockStep '"' (escapedChar c ++ t) = some (.more [c] t) := by
  rcases escapedChar_cases c with
    ⟨same, quote, backslash, line, plain⟩ | ⟨e, more, same, solid, on, read⟩
  · rw [same]
    exact blockStep_plain quote plain line (fun h => backslash h.1) t
  · have stays : skipSpace (e :: (more ++ t)) = e :: (more ++ t) := by simp [skipSpace, solid]
    rw [same, List.cons_append, List.cons_append, blockStep_other (by decide)]
    show (if _ then blockEscape? _ else _) = _
    rw [if_pos ⟨rfl, rfl⟩]
    simp [blockEscape?, stays, on, read]

/-- Nothing that is written for a character starts with a quote. -/
theorem head?_escapedChar (c : Char) (t : List Char) : (escapedChar c ++ t).head? ≠ some '"' := by
  rcases escapedChar_cases c with ⟨same, quote, _⟩ | ⟨e, more, same, _⟩
  · simpa [same] using quote
  · simp [same]

/-- A piece after quotes that belong to the text. -/
theorem pieces?_quotes_cons {n : Nat} {more read : List Char} {t' : List Char}
    (head : t.head? ≠ some q) (few : n ≤ 2) (step : blockStep q t = some (.more more t'))
    (shorter : t'.length < t.length) (others : pieces? (blockStep q) t' = some (read, rest)) :
    pieces? (blockStep q) (List.replicate n q ++ t) =
      some (List.replicate n q ++ (more ++ read), rest) := by
  rw [pieces?_quotes head few, pieces?_cons step shorter others]
  rfl

/-- `n` quotes stand before the rest of a block with escapes. They are read only together with what
comes after them, since they may be the first that close the block. -/
theorem pieces?_escapeBlock (head : rest.head? ≠ some '"') (s : List Char) {n : Nat} (few : n ≤ 2) :
    pieces? (blockStep '"') (List.replicate n '"' ++ (escapeBlock n s ++ '"' :: '"' :: '"' :: rest)) =
      some (List.replicate n '"' ++ s, rest) := by
  induction s generalizing n with
  | nil =>
    rw [List.append_nil]
    exact pieces?_closing head few
  | cons c s ih =>
    have fresh := ih (n := 0) (Nat.zero_le _)
    simp only [List.replicate_zero, List.nil_append] at fresh
    by_cases pending : c = '"' ∧ n ≠ 2
    · obtain ⟨rfl, early⟩ := pending
      have next := ih (n := n + 1) (by omega)
      have shift : ∀ t : List Char,
          List.replicate (n + 1) '"' ++ t = List.replicate n '"' ++ '"' :: t := fun t => by
        rw [List.replicate_succ', List.append_assoc]
        rfl
      rw [shift, shift] at next
      simpa [escapeBlock, early] using next
    · by_cases line : c = '\n'
      · subst line
        exact pieces?_quotes_cons (by simp) few (blockStep_newline (by decide) _) (by simp) fresh
      · have written : escapeBlock n (c :: s) = escapedChar c ++ escapeBlock 0 s := by
          by_cases quote : c = '"'
          · have third : n = 2 := by simpa [quote] using pending
            subst quote third
            rfl
          · simp [escapeBlock, quote, line]
        rw [written, List.append_assoc]
        refine pieces?_quotes_cons (head?_escapedChar c _) few (blockStep_escapedChar c _) ?_ fresh
        have := length_escapedChar c
        simp only [List.length_append]
        omega

theorem le_longestRun (q : Char) (s : List Char) (n : Nat) : n ≤ longestRun q n s := by
  induction s generalizing n with
  | nil => exact Nat.le_refl _
  | cons c s ih =>
    simp only [longestRun]
    split
    · exact Nat.le_trans (Nat.le_succ n) (ih _)
    · exact Nat.le_max_left _ _

theorem pieces?_literalBlock (head : rest.head? ≠ some '\'') (s : List Char) {n : Nat}
    (runs : longestRun '\'' n s ≤ 2) (printable : ∀ c ∈ s, isControl c = false) :
    pieces? (blockStep '\'') (List.replicate n '\'' ++ (s ++ '\'' :: '\'' :: '\'' :: rest)) =
      some (List.replicate n '\'' ++ s, rest) := by
  have few := Nat.le_trans (le_longestRun '\'' s n) runs
  induction s generalizing n with
  | nil =>
    rw [List.append_nil]
    exact pieces?_closing head few
  | cons c s ih =>
    obtain ⟨first, others⟩ := List.forall_mem_cons.1 printable
    by_cases quote : c = '\''
    · subst quote
      have next := ih (n := n + 1) (by simpa [longestRun] using runs) others
        (Nat.le_trans (le_longestRun _ s _) (by simpa [longestRun] using runs))
      have shift : ∀ t : List Char,
          List.replicate (n + 1) '\'' ++ t = List.replicate n '\'' ++ '\'' :: t := fun t => by
        rw [List.replicate_succ', List.append_assoc]
        rfl
      rwa [shift, shift] at next
    · have short : longestRun '\'' 0 s ≤ 2 := by
        simp only [longestRun, if_neg quote] at runs
        omega
      have fresh := ih (n := 0) short others (Nat.zero_le _)
      simp only [List.replicate_zero, List.nil_append] at fresh
      have step : blockStep '\'' (c :: (s ++ '\'' :: '\'' :: '\'' :: rest)) =
          some (.more [c] (s ++ '\'' :: '\'' :: '\'' :: rest)) := by
        by_cases line : c = '\n'
        · subst line
          exact blockStep_newline (by decide) _
        · exact blockStep_plain quote (isPlain_of_not_isControl first line) line (by simp) _
      exact pieces?_quotes_cons (by simpa using quote) few step (by simp) fresh

end Block

/-! ## Texts -/

/-- The quote that a quotation starts with. -/
def Quotation.quote : Quotation → Char
  | basic | basicBlock => '"'
  | literal | literalBlock => '\''

section Text

variable {q : Char} {s rest : List Char}

theorem quoted?_block (t : List Char) :
    quoted? q (q :: q :: t) = pieces? (blockStep q) (blockBody t) := by
  simp [quoted?]

theorem quoted?_line {t : List Char} (single : ∀ t', t ≠ q :: q :: t') :
    quoted? q t = pieces? (lineStep q) t := by
  unfold quoted?
  split
  · rename_i a b t'
    rw [if_neg]
    rintro ⟨rfl, rfl⟩
    exact single t' rfl
  · rfl

theorem quoted?_basic (head : rest.head? ≠ some '"') :
    quoted? '"' (escape s ++ '"' :: rest) = some (s, rest) := by
  rw [quoted?_line, pieces?_escape]
  intro t same
  cases s with
  | nil =>
    have next := (List.cons.inj same).2
    exact head (by rw [next]; rfl)
  | cons c s =>
    have first : (escapedChar c ++ (escape s ++ '"' :: rest)).head? = some '"' := by
      rw [← List.append_assoc]
      exact congrArg List.head? same
    exact head?_escapedChar c _ first

theorem plain_of_suits (h : Quotation.literal.suits s = true) :
    ∀ c ∈ s, c ≠ '\'' ∧ isPlain c = true := by
  intro c hc
  simp only [Quotation.suits, Bool.not_eq_true', List.any_eq_false, Bool.or_eq_true,
    beq_iff_eq, not_or] at h
  obtain ⟨⟨printable, line⟩, quote⟩ := h c hc
  exact ⟨quote, isPlain_of_not_isControl (Bool.eq_false_iff.2 printable) line⟩

theorem quoted?_literal (head : rest.head? ≠ some '\'')
    (plain : ∀ c ∈ s, c ≠ '\'' ∧ isPlain c = true) :
    quoted? '\'' (s ++ '\'' :: rest) = some (s, rest) := by
  rw [quoted?_line, pieces?_literal rest plain]
  intro t same
  cases s with
  | nil =>
    have next := (List.cons.inj same).2
    exact head (by rw [next]; rfl)
  | cons c s => exact (plain c List.mem_cons_self).1 (List.cons.inj same).1

/-- The newline at the start of a block is there if the text would be read without its own. -/
theorem blockBody_blockStart {t : List Char}
    (solid : ∀ c s', s = c :: s' → c ≠ '\n' → newline? t = none) (empty : s = [] → newline? t = none) :
    blockBody (blockStart s ++ t) = t := by
  unfold blockStart
  split
  · rfl
  · rename_i single
    have none : newline? t = none := by
      cases s with
      | nil => exact empty rfl
      | cons c s' =>
        refine solid c s' rfl ?_
        rintro rfl
        simp at single
    rw [List.nil_append, blockBody, none]
    rfl

theorem newline?_escapedChar {c : Char} (line : c ≠ '\n') (t : List Char) :
    newline? (escapedChar c ++ t) = none := by
  rcases escapedChar_cases c with ⟨same, _, _, _, plain⟩ | ⟨e, more, same, _⟩
  · rw [same]
    exact not_newline line plain t
  · rw [same]
    rfl

theorem quoted?_basicBlock (head : rest.head? ≠ some '"') :
    quoted? '"' ('"' :: '"' :: (blockStart s ++ (escapeBlock 0 s ++ '"' :: '"' :: '"' :: rest))) =
      some (s, rest) := by
  rw [quoted?_block, blockBody_blockStart]
  · exact pieces?_escapeBlock head s (n := 0) (Nat.zero_le _)
  · rintro c s' rfl line
    by_cases quote : c = '"'
    · subst quote
      simp only [escapeBlock]
      rfl
    · have written : escapeBlock 0 (c :: s') = escapedChar c ++ escapeBlock 0 s' := by
        simp [escapeBlock, quote, line]
      rw [written, List.append_assoc]
      exact newline?_escapedChar line _
  · rintro rfl
    rfl

theorem quoted?_literalBlock (head : rest.head? ≠ some '\'')
    (suits : Quotation.literalBlock.suits s = true) :
    quoted? '\'' ('\'' :: '\'' :: (blockStart s ++ (s ++ '\'' :: '\'' :: '\'' :: rest))) =
      some (s, rest) := by
  simp only [Quotation.suits, Bool.and_eq_true, Bool.not_eq_true', decide_eq_true_eq,
    List.any_eq_false] at suits
  obtain ⟨printable, runs⟩ := suits
  have printable' : ∀ c ∈ s, isControl c = false := fun c hc => Bool.eq_false_iff.2 (printable c hc)
  rw [quoted?_block, blockBody_blockStart]
  · exact pieces?_literalBlock head s (n := 0) runs printable'
  · rintro c s' rfl line
    exact not_newline line
      (isPlain_of_not_isControl (printable' c List.mem_cons_self) line) _
  · rintro rfl
    rfl

/-- A quotation that suits a text is read as the text. Where there are escapes, every text suits. -/
theorem quoted?_write {w : Quotation} (suits : w.quote = '"' ∨ w.suits s = true)
    (head : rest.head? ≠ some w.quote) :
    ∃ body, w.write s ++ rest = w.quote :: body ∧ quoted? w.quote body = some (s, rest) := by
  cases w with
  | basic => exact ⟨_, by simp [Quotation.write, Quotation.quote], quoted?_basic head⟩
  | literal =>
    have plain := plain_of_suits (suits.resolve_left nofun)
    exact ⟨_, by simp [Quotation.write, Quotation.quote], quoted?_literal head plain⟩
  | basicBlock => exact ⟨_, by simp [Quotation.write, Quotation.quote], quoted?_basicBlock head⟩
  | literalBlock =>
    have suits := suits.resolve_left nofun
    exact ⟨_, by simp [Quotation.write, Quotation.quote], quoted?_literalBlock head suits⟩

theorem ofText_suits (s : List Char) :
    (Quotation.ofText s).quote = '"' ∨ (Quotation.ofText s).suits s = true := by
  unfold Quotation.ofText
  split
  · exact .inl rfl
  · split
    · exact .inr ‹_›
    · split
      · exact .inl rfl
      · split
        · exact .inr ‹_›
        · split <;> exact .inl rfl

end Text

/-- What comes after a value does not start with a quote. -/
def Unquoted (rest : List Char) : Prop := rest.head? ≠ some '"' ∧ rest.head? ≠ some '\''

/-- What is read of a written value. -/
def Scalar.value : Scalar → Value
  | .bool value => .bool value
  | .string text => .string text

theorem value?_quote (w : Quotation) (body : List Char) : value? (w.quote :: body) =
    (quoted? w.quote body).map fun p => (.string (String.ofList p.1), p.2) := by
  cases w <;> rfl

theorem value?_chars (v : Scalar) {rest : List Char} (unquoted : Unquoted rest) :
    value? (v.chars ++ rest) = some (v.value, rest) := by
  cases v with
  | bool value => cases value <;> rfl
  | string text =>
    have head : rest.head? ≠ some (Quotation.ofText text.toList).quote := by
      cases Quotation.ofText text.toList
      · exact unquoted.1
      · exact unquoted.2
      · exact unquoted.1
      · exact unquoted.2
    obtain ⟨body, written, read⟩ := quoted?_write (ofText_suits text.toList) head
    show value? ((Quotation.ofText text.toList).write text.toList ++ rest) = _
    rw [written, value?_quote, read]
    simp [Scalar.value]

/-! ## Names -/

theorem isNameChar_of_isBareChar {c : Char} (h : isBareChar c = true) : isNameChar c = true := by
  delta isBareChar Char.isAlphanum Char.isAlpha Char.isUpper Char.isLower Char.isDigit at h
  simp only [Bool.or_eq_true, Bool.and_eq_true, decide_eq_true_eq, beq_iff_eq] at h
  simp only [isNameChar, Bool.or_eq_true, Bool.and_eq_true, decide_eq_true_eq, beq_iff_eq]
  rcases h with (((upper | lower) | digit) | underscore) | dash
  · exact .inl (.inl (.inl (.inr upper)))
  · exact .inl (.inl (.inl (.inl lower)))
  · exact .inl (.inl (.inr digit))
  · exact .inl (.inr underscore)
  · exact .inr dash

/-- Names start in a way that no other line does. -/
theorem nameText_cons (name : String) : ∃ c t, nameText name = c :: t ∧ c ≠ '[' ∧ isSpace c = false := by
  unfold nameText
  dsimp only
  split
  · rename_i bare
    cases chars : name.toList with
    | nil => simp [chars] at bare
    | cons c t =>
      have first : isBareChar c = true := by
        simp only [chars, List.all_cons, Bool.and_eq_true] at bare
        exact bare.2.1
      refine ⟨c, t, rfl, ?_, ?_⟩
      · rintro rfl
        cases first
      · simp only [isSpace, Bool.or_eq_false_iff, beq_eq_false_iff_ne]
        constructor <;> (rintro rfl; cases first)
  · unfold Quotation.ofName
    split
    · exact ⟨'"', _, rfl, by decide, rfl⟩
    · split
      · exact ⟨'\'', _, rfl, by decide, rfl⟩
      · exact ⟨'"', _, rfl, by decide, rfl⟩

theorem nameChars?_bare {s rest : List Char} (filled : s ≠ [])
    (bare : ∀ c ∈ s, isNameChar c = true)
    (ends : ∀ c, rest.head? = some c → isNameChar c = false) :
    nameChars? (s ++ rest) = some (s, rest) := by
  have stops : rest.takeWhile isNameChar = [] ∧ rest.dropWhile isNameChar = rest := by
    cases rest with
    | nil => exact ⟨rfl, rfl⟩
    | cons c rest => simp [ends c rfl]
  have taken : (s ++ rest).takeWhile isNameChar = s := by
    rw [List.takeWhile_append_of_pos bare, stops.1, List.append_nil]
  have dropped : (s ++ rest).dropWhile isNameChar = rest := by
    rw [List.dropWhile_append_of_pos bare, stops.2]
  have unquoted : ∀ q t, isNameChar q = false → s ++ rest ≠ q :: t := by
    intro q t quote same
    cases s with
    | nil => exact filled rfl
    | cons c s =>
      have first := bare c List.mem_cons_self
      rw [(List.cons.inj same).1, quote] at first
      cases first
  unfold nameChars?
  split
  · exact absurd ‹_› (unquoted '"' _ rfl)
  · exact absurd ‹_› (unquoted '\'' _ rfl)
  · rw [taken, dropped, if_neg (by simpa using filled)]

theorem name?_nameText (name : String) {rest : List Char}
    (ends : ∀ c, rest.head? = some c → isNameChar c = false) :
    name? (nameText name ++ rest) = some (name, rest) := by
  have chars : nameChars? (nameText name ++ rest) = some (name.toList, rest) := by
    unfold nameText
    dsimp only
    split
    · rename_i bare
      simp only [Bool.and_eq_true, Bool.not_eq_true', List.isEmpty_eq_false_iff, List.all_eq_true]
        at bare
      exact nameChars?_bare bare.1 (fun c hc => isNameChar_of_isBareChar (bare.2 c hc)) ends
    · have basic : nameChars? (Quotation.basic.write name.toList ++ rest) =
          some (name.toList, rest) := by
        have read := pieces?_escape name.toList rest
        simpa [Quotation.write, nameChars?] using read
      unfold Quotation.ofName
      split
      · exact basic
      · split
        · rename_i suits
          have read := pieces?_literal rest (plain_of_suits suits)
          simpa [Quotation.write, nameChars?] using read
        · exact basic
  rw [name?, chars]
  simp

theorem skipSpace_cons {c : Char} (solid : isSpace c = false) (t : List Char) :
    skipSpace (c :: t) = c :: t := by
  simp [skipSpace, solid]

theorem skipSpace_nameText (name : String) (t : List Char) :
    skipSpace (nameText name ++ t) = nameText name ++ t := by
  obtain ⟨c, more, same, _, solid⟩ := nameText_cons name
  rw [same]
  exact skipSpace_cons solid _

/-- A name before something that is part of no name. -/
theorem name?_before (name : String) {c : Char} (ends : isNameChar c = false) (t : List Char) :
    name? (nameText name ++ c :: t) = some (name, c :: t) := by
  refine name?_nameText name fun c' first => ?_
  cases first
  exact ends

theorem pieces?_pathText {path : List String} (named : path ≠ []) (rest : List Char) :
    pieces? pathStep (pathText path ++ ']' :: rest) = some (path, rest) := by
  induction path with
  | nil => exact absurd rfl named
  | cons name path ih =>
    cases path with
    | nil =>
      have read := name?_before name (c := ']') rfl rest
      refine pieces?_last ?_
      simp [pathStep, pathText, skipSpace_nameText, read, skipSpace_cons (c := ']') rfl]
    | cons next path =>
      have read := name?_before name (c := '.') rfl (pathText (next :: path) ++ ']' :: rest)
      have step : pathStep (nameText name ++ '.' :: (pathText (next :: path) ++ ']' :: rest)) =
          some (.more [name] (pathText (next :: path) ++ ']' :: rest)) := by
        simp [pathStep, skipSpace_nameText, read, skipSpace_cons (c := '.') rfl]
      have written : pathText (name :: next :: path) ++ ']' :: rest =
          nameText name ++ '.' :: (pathText (next :: path) ++ ']' :: rest) := by
        simp [pathText]
      rw [written]
      refine pieces?_cons step ?_ (ih (by simp))
      simp only [List.length_append, List.length_cons]
      omega

/-! ## Lines -/

theorem lineEnd?_newline (rest : List Char) : lineEnd? ('\n' :: rest) = some rest := rfl

theorem line?_header {path : List String} (named : path ≠ []) (rest : List Char) :
    line? ('[' :: (pathText path ++ ']' :: '\n' :: rest)) = some ([.header path], rest) := by
  have read := pieces?_pathText named ('\n' :: rest)
  unfold line?
  rw [skipSpace_cons (c := '[') rfl]
  simp [header?, read, lineEnd?_newline]

theorem skipSpace_chars (v : Scalar) (t : List Char) : skipSpace (v.chars ++ t) = v.chars ++ t := by
  cases v with
  | bool value => cases value <;> rfl
  | string text =>
    show skipSpace ((Quotation.ofText text.toList).write text.toList ++ t) = _
    cases quotation : Quotation.ofText text.toList <;>
      simp [Scalar.chars, stringText, quotation, Quotation.write, skipSpace, isSpace]

theorem entryRest?_chars (name : String) (v : Scalar) {rest : List Char} (unquoted : Unquoted rest) :
    entryRest? name (' ' :: '=' :: ' ' :: (v.chars ++ rest)) = some (.entry name v.value, rest) := by
  have spaced : ∀ t, skipSpace (' ' :: t) = skipSpace t := fun _ => rfl
  have value := value?_chars v unquoted
  unfold entryRest?
  rw [spaced, skipSpace_cons (c := '=') rfl]
  simp [spaced, skipSpace_chars, value]

theorem line?_entry (e : String × Scalar) (rest : List Char) :
    line? (entryText e ++ rest) = some ([.entry e.1 e.2.value], rest) := by
  obtain ⟨name, v⟩ := e
  have written : entryText (name, v) ++ rest =
      nameText name ++ ' ' :: '=' :: ' ' :: (v.chars ++ '\n' :: rest) := by
    simp [entryText]
  have read := name?_before name (c := ' ') rfl ('=' :: ' ' :: (v.chars ++ '\n' :: rest))
  have value : entryRest? name (' ' :: '=' :: ' ' :: (v.chars ++ '\n' :: rest)) =
      some (.entry name v.value, '\n' :: rest) := entryRest?_chars name v ⟨by simp, by simp⟩
  obtain ⟨c, more, same, bracket, _⟩ := nameText_cons name
  rw [written]
  unfold line?
  dsimp only
  rw [skipSpace_nameText]
  split
  · rename_i starts
    rw [same] at starts
    exact absurd (List.cons.inj starts).1 bracket
  · simp [read, value, lineEnd?_newline]

theorem line?_blank (rest : List Char) : line? ('\n' :: rest) = some ([], rest) := rfl

/-! ## Documents -/

/-- The lines of a table. -/
def Table.expressions (t : Table) : List Expression :=
  .header t.path :: t.entries.map fun e => .entry e.1 e.2.value

/-- A line before others that are known. -/
theorem pieces?_line {line : List Char} {read read' : List Expression} {rest rest' : List Char}
    (filled : line ≠ []) (first : line? (line ++ rest) = some (read, rest))
    (others : pieces? documentStep rest = some (read', rest')) :
    pieces? documentStep (line ++ rest) = some (read ++ read', rest') := by
  have := List.length_pos_iff.2 filled
  have step : documentStep (line ++ rest) = some (.more read rest) := by
    simp [documentStep, first, filled]
  refine pieces?_cons step ?_ others
  simp only [List.length_append]
  omega

theorem pieces?_entries (entries : List (String × Scalar)) {read : List Expression}
    {rest rest' : List Char} (others : pieces? documentStep rest = some (read, rest')) :
    pieces? documentStep (entries.flatMap entryText ++ rest) =
      some ((entries.map fun e => Expression.entry e.1 e.2.value) ++ read, rest') := by
  induction entries with
  | nil => exact others
  | cons e entries ih =>
    have line := pieces?_line (by simp [entryText]) (line?_entry e _) ih
    rwa [List.flatMap_cons, List.append_assoc]

theorem pieces?_table {t : Table} (named : t.path ≠ []) {read : List Expression}
    {rest rest' : List Char} (others : pieces? documentStep rest = some (read, rest')) :
    pieces? documentStep (t.chars ++ rest) = some (t.expressions ++ read, rest') := by
  have written : t.chars ++ rest =
      ('[' :: (pathText t.path ++ [']', '\n'])) ++ (t.entries.flatMap entryText ++ rest) := by
    simp [Table.chars]
  have header : line? (('[' :: (pathText t.path ++ [']', '\n'])) ++
      (t.entries.flatMap entryText ++ rest)) =
        some ([.header t.path], t.entries.flatMap entryText ++ rest) := by
    simpa using line?_header named (t.entries.flatMap entryText ++ rest)
  have line := pieces?_line (by simp) header (pieces?_entries t.entries others)
  rwa [written]

/-- A written document is read as the lines of its tables. -/
theorem expressions?_chars {d : Document} (named : ∀ t ∈ d, t.path ≠ []) :
    expressions? d.chars = some (d.flatMap Table.expressions) := by
  have all : pieces? documentStep d.chars = some (d.flatMap Table.expressions, []) := by
    induction d with
    | nil => exact pieces?_last rfl
    | cons t d ih =>
      obtain ⟨first, others⟩ := List.forall_mem_cons.1 named
      have rest := ih others
      cases d with
      | nil => simpa [Document.chars] using pieces?_table first rest
      | cons t' d =>
        have blank : pieces? documentStep (['\n'] ++ Document.chars (t' :: d)) =
            some ([] ++ (t' :: d).flatMap Table.expressions, []) :=
          pieces?_line (by simp) (line?_blank _) rest
        simpa [Document.chars] using pieces?_table first blank
  rw [expressions?, all]
  rfl

end Acceptance.Toml
