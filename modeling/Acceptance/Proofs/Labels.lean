import Acceptance.Proofs.Utf8
import Acceptance.Run
import Mathlib.Data.List.DropRight
import Mathlib.Data.List.Forall2
import Mathlib.Data.Nat.Digits.Defs

/-!
# The names of resources as labels

Whatever the stem of a name is, the cluster takes the name, and its tail is whole.

* `IsLabel`: what the cluster takes;
* `Normalizes`: what becomes of a stem in a label;
* `Composed`: how much of a stem stands before a tail;
* `names_are_labels`: names are labels, made of as much of the stem as fits and the whole tail, and
  those of a run show what they are.
-/

namespace Acceptance

open Text

/-- A letter in lower case or a digit. -/
def IsPlain (c : Char) : Prop := ('a' ≤ c ∧ c ≤ 'z') ∨ ('0' ≤ c ∧ c ≤ '9')

instance (c : Char) : Decidable (IsPlain c) := inferInstanceAs (Decidable (_ ∨ _))

/-- Whether a text is there, with characters of one kind only, is found out character by character. -/
def decidableFilled (P : Char → Prop) [DecidablePred P] (text : String) :
    Decidable (text ≠ "" ∧ ∀ c ∈ text.toList, P c) :=
  decidable_of_iff (text ≠ "" ∧ text.toList.all (decide <| P ·)) (by simp)

/-- Some letters and digits, and nothing else. -/
structure IsWord (text : String) : Prop where
  nonempty : text ≠ ""
  plain : ∀ c ∈ text.toList, IsPlain c

instance (text : String) : Decidable (IsWord text) :=
  @decidable_of_iff _ _ ⟨fun h => ⟨h.1, h.2⟩, fun h => ⟨h.nonempty, h.plain⟩⟩
    (decidableFilled IsPlain text)

/-- A text that the cluster takes as the value of a label. -/
structure IsLabel (text : String) : Prop where
  bytes : 1 ≤ text.utf8ByteSize ∧ text.utf8ByteSize ≤ 63
  chars : ∀ c ∈ text.toList, IsPlain c ∨ c = '-'
  first : ∃ c, text.toList.head? = some c ∧ IsPlain c
  last : ∃ c, text.toList.getLast? = some c ∧ IsPlain c

/-- What a character becomes in a label. -/
inductive Becomes : Char → Char → Prop where
  | same {c : Char} (plain : IsPlain c) : Becomes c c
  | lowered {c d : Char} (capital : 'A' ≤ c ∧ c ≤ 'Z') (letter : d.toNat = c.toNat + 32) :
      Becomes c d
  | dash {c : Char} (strange : ¬ IsPlain c) (small : ¬ ('A' ≤ c ∧ c ≤ 'Z')) : Becomes c '-'

/-- The text is what becomes of the stem, without the dashes at its start. -/
def Normalizes (stem : String) (text : List Char) : Prop :=
  ∃ dropped rest, stem.toList = dropped ++ rest ∧ (∀ c ∈ dropped, Becomes c '-') ∧
    List.Forall₂ Becomes rest text ∧ text.head? ≠ some '-'

/-- The beginning of a text leaves room for a dash and the tail. -/
def Fits (tail : String) (beginning : List Char) : Prop :=
  (String.ofList beginning ++ "-" ++ tail).utf8ByteSize ≤ 63

/-- The longest beginning of the text that leaves room for a dash and the tail. -/
structure Longest (text : List Char) (tail : String) (kept : List Char) : Prop where
  begins : kept <+: text
  fits : Fits tail kept
  longest : ∀ more, more <+: text → Fits tail more → more <+: kept

/-- How a text and a tail make up a name. -/
inductive Composed (text : List Char) (tail : String) : String → Prop where
  /-- The tail alone, where nothing but dashes would stand before it. -/
  | bare (blank : ∀ kept, Longest text tail kept → ∀ c ∈ kept, c = '-') : Composed text tail tail
  /-- As much as there is room for, without the dashes at its end, and the tail. -/
  | headed {kept head dashes : List Char} (longest : Longest text tail kept)
      (split : kept = head ++ dashes) (blank : ∀ c ∈ dashes, c = '-')
      (ends : ∃ c, head.getLast? = some c ∧ c ≠ '-') :
      Composed text tail (String.ofList head ++ "-" ++ tail)

/-! ## Characters -/

theorem le_and_le_iff (a b c : Char) :
    (a ≤ c ∧ c ≤ b) ↔ (a.toNat ≤ c.toNat ∧ c.toNat ≤ b.toNat) := by
  simp only [Char.le_def, UInt32.le_iff_toNat_le]
  rfl

theorem isPlain_iff (c : Char) :
    IsPlain c ↔ (97 ≤ c.toNat ∧ c.toNat ≤ 122) ∨ (48 ≤ c.toNat ∧ c.toNat ≤ 57) := by
  simp only [IsPlain, le_and_le_iff]
  rfl

theorem isPlain_iff_isLower (c : Char) : IsPlain c ↔ (c.isLower || c.isDigit) = true := by
  rw [isPlain_iff]
  change _ ↔ ((decide (c.val ≥ 'a'.val) && decide (c.val ≤ 'z'.val)) || c.isDigit) = true
  simp [Char.isDigit, UInt32.le_iff_toNat_le, ← Char.toNat_val]

theorem toNat_toLower (c : Char) :
    c.toLower.toNat = if 65 ≤ c.toNat ∧ c.toNat ≤ 90 then c.toNat + 32 else c.toNat := by
  unfold Char.toLower
  split
  · rename_i capital
    have range : 65 ≤ c.toNat ∧ c.toNat ≤ 90 := by
      simpa [UInt32.le_iff_toNat_le, ← Char.toNat_val] using capital
    rw [if_pos range]
    change (c.val + 32).toNat = c.val.toNat + 32
    have bound : c.val.toNat ≤ 90 := range.2
    rw [UInt32.toNat_add]
    simp
    omega
  · rename_i small
    have range : ¬ (65 ≤ c.toNat ∧ c.toNat ≤ 90) := by
      simpa [UInt32.le_iff_toNat_le, ← Char.toNat_val] using small
    rw [if_neg range]

/-- Each character becomes what is to become of it. -/
theorem labelChar_becomes (c : Char) : Becomes c (labelChar c) := by
  have lower := toNat_toLower c
  change Becomes c (if c.toLower.isLower || c.toLower.isDigit then c.toLower else '-')
  split
  · rename_i accepted
    have plain := (isPlain_iff _).1 ((isPlain_iff_isLower _).2 accepted)
    by_cases capital : 65 ≤ c.toNat ∧ c.toNat ≤ 90
    · rw [if_pos capital] at lower
      exact .lowered ((le_and_le_iff _ _ _).2 capital) lower
    · rw [if_neg capital] at lower
      rw [Char.toNat_inj.1 lower] at plain ⊢
      exact .same ((isPlain_iff c).2 plain)
  · rename_i refused
    have strange := mt (isPlain_iff_isLower _).1 refused
    rw [isPlain_iff] at strange
    have small : ¬ (65 ≤ c.toNat ∧ c.toNat ≤ 90) := by
      intro capital
      rw [if_pos capital] at lower
      omega
    rw [if_neg small] at lower
    refine .dash ?_ (mt (le_and_le_iff _ _ _).1 small)
    rwa [isPlain_iff, ← lower]

theorem Becomes.plain_or_dash {c d : Char} (h : Becomes c d) : IsPlain d ∨ d = '-' := by
  cases h with
  | same plain => exact .inl plain
  | lowered capital letter =>
    have range : 65 ≤ c.toNat ∧ c.toNat ≤ 90 := (le_and_le_iff _ _ _).1 capital
    rw [isPlain_iff]
    omega
  | dash => exact .inr rfl

/-- A text of such characters has one byte for each. -/
theorem utf8ByteSize_ofList {l : List Char} (h : ∀ c ∈ l, IsPlain c ∨ c = '-') :
    (String.ofList l).utf8ByteSize = l.length := by
  refine Utf8.utf8ByteSize_of_ascii fun c hc => ?_
  rcases h c hc with plain | rfl
  · have := (isPlain_iff c).1 plain
    omega
  · decide

/-! ## The stem -/

theorem normalized_chars (stem : String) : ∀ c ∈ normalized stem, IsPlain c ∨ c = '-' := by
  intro c hc
  obtain ⟨d, _, rfl⟩ := List.mem_map.1 ((List.dropWhile_sublist _).subset hc)
  exact (labelChar_becomes d).plain_or_dash

theorem normalized_start (stem : String) : (normalized stem).head? ≠ some '-' := by
  intro dash
  have start := List.head?_dropWhile_not (· == '-') (stem.toList.map labelChar)
  rw [show (stem.toList.map labelChar).dropWhile (· == '-') = normalized stem from rfl, dash] at start
  simp at start

/-- The label text of a stem is what it is to be. -/
theorem normalized_normalizes (stem : String) : Normalizes stem (normalized stem) := by
  let isDash : Char → Bool := (· == '-')
  refine ⟨stem.toList.takeWhile (isDash ∘ labelChar), stem.toList.dropWhile (isDash ∘ labelChar),
    List.takeWhile_append_dropWhile.symm, fun c hc => ?_, ?_, normalized_start stem⟩
  · have dash : labelChar c = '-' := by simpa [isDash] using List.mem_takeWhile_imp hc
    exact dash ▸ labelChar_becomes c
  · rw [normalized, show (· == '-') = isDash from rfl, List.dropWhile_map,
      List.forall₂_map_right_iff, List.forall₂_same]
    exact fun c _ => labelChar_becomes c

/-! ## The parts of a name -/

theorem fits_iff {text beginning : List Char} {tail : String} (begins : beginning <+: text)
    (chars : ∀ c ∈ text, IsPlain c ∨ c = '-') :
    Fits tail beginning ↔ beginning.length + 1 + tail.utf8ByteSize ≤ 63 := by
  have bytes : (String.ofList beginning).utf8ByteSize = beginning.length :=
    utf8ByteSize_ofList fun c hc => chars c (begins.mem hc)
  rw [Fits, String.utf8ByteSize_append, String.utf8ByteSize_append, bytes]
  rfl

/-- Where a dash has room beside the tail, so has a beginning of the text. -/
theorem longest_take {text : List Char} {tail : String} (room : tail.utf8ByteSize + 1 ≤ 63)
    (chars : ∀ c ∈ text, IsPlain c ∨ c = '-') :
    Longest text tail (text.take (63 - (tail.utf8ByteSize + 1))) where
  begins := List.take_prefix _ _
  fits := by
    rw [fits_iff (List.take_prefix _ _) chars]
    have := List.length_take_le (63 - (tail.utf8ByteSize + 1)) text
    omega
  longest := by
    intro more begins fits
    rw [fits_iff begins chars] at fits
    rw [List.prefix_take_iff]
    exact ⟨begins, by omega⟩

/-- A name is made up of the label text of its stem and of its tail. -/
theorem uniqueName_composed (stem role : String) (timestamp : Int) (token : String) :
    Composed (normalized stem) (nameTail role timestamp token)
      (uniqueName stem role timestamp token) := by
  have chars := normalized_chars stem
  let tail := nameTail role timestamp token
  let kept := (normalized stem).take (63 - (tail.utf8ByteSize + 1))
  let isDash : Char → Bool := (· == '-')
  -- The head of the name is what is kept, without the dashes at its end.
  have head_eq : nameHead stem tail = kept.rdropWhile isDash := rfl
  change Composed (normalized stem) tail (uniqueName stem role timestamp token)
  simp only [uniqueName]
  by_cases room : tail.utf8ByteSize + 1 ≤ 63
  · have longest : Longest (normalized stem) tail kept := longest_take room chars
    split
    · rename_i blank
      rw [head_eq, List.rdropWhile_eq_nil_iff] at blank
      refine .bare fun other also c hc => ?_
      have among := longest.longest other also.begins also.fits
      simpa [isDash] using blank c (among.mem hc)
    · rename_i filled
      rw [head_eq] at filled ⊢
      refine .headed longest List.rdropWhile_append_rtakeWhile.symm (fun c hc => ?_)
        ⟨_, List.getLast?_eq_getLast_of_ne_nil filled, ?_⟩
      · simpa [isDash] using List.mem_rtakeWhile_imp hc
      · simpa [isDash] using List.rdropWhile_last_not isDash kept filled
  · have nothing : kept = [] := by
      simp only [kept, List.take_eq_nil_iff]
      omega
    rw [head_eq, nothing]
    refine .bare fun other also => ?_
    have fits := (fits_iff also.begins chars).1 also.fits
    omega

/-- With a label as its tail, a name is one. -/
theorem Composed.isLabel {text : List Char} {tail name : String} (h : Composed text tail name)
    (chars : ∀ c ∈ text, IsPlain c ∨ c = '-') (start : text.head? ≠ some '-')
    (label : IsLabel tail) : IsLabel name := by
  cases h with
  | bare => exact label
  | @headed kept head dashes longest split blank ends =>
    have begins : head <+: text := .trans ⟨dashes, split.symm⟩ longest.begins
    obtain ⟨z, ends, _⟩ := ends
    obtain ⟨c, h, rfl⟩ : ∃ c h, head = c :: h := by
      cases head with
      | nil => cases ends
      | cons c h => exact ⟨c, h, rfl⟩
    have toList : (String.ofList (c :: h) ++ "-" ++ tail).toList = c :: h ++ '-' :: tail.toList := by
      simp
    refine ⟨?_, ?_, ?_, ?_⟩
    · have room := (fits_iff longest.begins chars).1 longest.fits
      have shorter : (c :: h).length ≤ kept.length := by
        rw [split, List.length_append]
        omega
      have fits : Fits tail (c :: h) := (fits_iff begins chars).2 (by omega)
      refine ⟨?_, fits⟩
      have := label.bytes
      rw [String.utf8ByteSize_append]
      omega
    · rw [toList]
      intro d hd
      rcases List.mem_append.1 hd with hd | hd
      · exact chars d (begins.mem hd)
      · rcases List.mem_cons.1 hd with rfl | hd
        · exact .inr rfl
        · exact label.chars d hd
    · rw [toList]
      obtain ⟨rest, rfl⟩ := begins
      refine ⟨c, rfl, (chars c (by simp)).resolve_right ?_⟩
      rintro rfl
      exact start rfl
    · rw [toList]
      obtain ⟨d, last, plain⟩ := label.last
      refine ⟨d, ?_, plain⟩
      simp [List.getLast?_append, List.getLast?_cons, last]

theorem toList_nameTail (role : String) (timestamp : Int) (token : String) :
    (nameTail role timestamp token).toList =
      role.toList ++ '-' :: (timestamp.repr.toList ++ '-' :: token.toList) := by
  simp [nameTail, toString]

/-- A number is written with digits, after a dash if it is negative. -/
theorem repr_cases (n : Int) : (0 ≤ n ∧ n.repr.toList = Nat.toDigits 10 n.natAbs) ∨
    (n < 0 ∧ n.repr.toList = '-' :: Nat.toDigits 10 n.natAbs) := by
  cases n with
  | ofNat m => exact .inl ⟨Int.natCast_nonneg m, Nat.toList_repr⟩
  | negSucc m =>
    refine .inr ⟨Int.negSucc_lt_zero m, ?_⟩
    change ("-" ++ (m + 1).repr).toList = _
    rw [String.toList_append, Nat.toList_repr]
    rfl

theorem repr_chars (n : Int) : ∀ c ∈ n.repr.toList, IsPlain c ∨ c = '-' := by
  have digits : ∀ c ∈ Nat.toDigits 10 n.natAbs, IsPlain c := by
    intro c hc
    rw [isPlain_iff_isLower, Nat.isDigit_of_mem_toDigits (by decide) (by decide) hc, Bool.or_true]
  rcases repr_cases n with ⟨_, same⟩ | ⟨_, same⟩ <;> rw [same] <;> intro c hc
  · exact .inl (digits c hc)
  · exact (List.mem_cons.1 hc).elim .inr fun hc => .inl (digits c hc)

theorem nameTail_chars {role token : String} (hrole : IsWord role) (htoken : IsWord token)
    (timestamp : Int) : ∀ c ∈ (nameTail role timestamp token).toList, IsPlain c ∨ c = '-' := by
  rw [toList_nameTail]
  intro c hc
  simp only [List.mem_append, List.mem_cons] at hc
  rcases hc with hc | rfl | hc | rfl | hc
  · exact .inl (hrole.plain c hc)
  · exact .inr rfl
  · exact repr_chars timestamp c hc
  · exact .inr rfl
  · exact .inl (htoken.plain c hc)

/-- Words and a number between them make a label. -/
theorem nameTail_isLabel {role token : String} (hrole : IsWord role) (htoken : IsWord token)
    (timestamp : Int) (short : (nameTail role timestamp token).utf8ByteSize ≤ 63) :
    IsLabel (nameTail role timestamp token) := by
  have ends : ∀ {word : String}, IsWord word → word.toList ≠ [] := fun h => by
    simpa using h.nonempty
  refine ⟨⟨?_, short⟩, nameTail_chars hrole htoken timestamp, ?_, ?_⟩
  · have filled : (nameTail role timestamp token).utf8ByteSize ≠ 0 := by
      rw [ne_eq, String.utf8ByteSize_eq_zero_iff, ← String.toList_inj, toList_nameTail]
      simp
    omega
  · obtain ⟨c, rest, same⟩ := List.exists_cons_of_ne_nil (ends hrole)
    refine ⟨c, ?_, hrole.plain c (by simp [same])⟩
    rw [toList_nameTail, same]
    rfl
  · refine ⟨_, ?_, htoken.plain _ (List.getLast_mem (ends htoken))⟩
    rw [toList_nameTail]
    simp [List.getLast?_append, List.getLast?_cons, List.getLast?_eq_getLast_of_ne_nil (ends htoken)]

/-- Of a text that leaves room for a tail, only dashes at its end are missing in the name. -/
theorem Composed.whole {text : List Char} {tail name : String} (h : Composed text tail name)
    (fits : Fits tail text) : ∃ head dashes, text = head ++ dashes ∧ (∀ c ∈ dashes, c = '-') ∧
      name = if head = [] then tail else String.ofList head ++ "-" ++ tail := by
  cases h with
  | bare blank =>
    have all : Longest text tail text := ⟨List.prefix_refl _, fits, fun _ begins _ => begins⟩
    exact ⟨[], text, rfl, blank text all, rfl⟩
  | @headed kept head dashes longest split blank ends =>
    have all : kept = text :=
      longest.begins.eq_of_length_le (longest.longest text (List.prefix_refl _) fits).length_le
    refine ⟨head, dashes, all ▸ split, blank, ?_⟩
    rw [if_neg]
    rintro rfl
    obtain ⟨c, none, _⟩ := ends
    cases none

/-! ## The names of a run -/

/-- A random token: some hexadecimal digits. -/
structure IsToken (text : String) : Prop where
  nonempty : text ≠ ""
  hex : ∀ c ∈ text.toList, ('0' ≤ c ∧ c ≤ '9') ∨ ('a' ≤ c ∧ c ≤ 'f')

instance (text : String) : Decidable (IsToken text) :=
  @decidable_of_iff _ _ ⟨fun h => ⟨h.1, h.2⟩, fun h => ⟨h.nonempty, h.hex⟩⟩
    (decidableFilled (fun c => ('0' ≤ c ∧ c ≤ '9') ∨ ('a' ≤ c ∧ c ≤ 'f')) text)

theorem IsToken.isWord {text : String} (h : IsToken text) : IsWord text where
  nonempty := h.nonempty
  plain := by
    intro c hc
    rcases h.hex c hc with digit | letter
    · exact .inr digit
    · have range : 97 ≤ c.toNat ∧ c.toNat ≤ 102 := (le_and_le_iff _ _ _).1 letter
      rw [isPlain_iff]
      omega

/-- A number of 64 bits takes at most twenty characters. -/
theorem repr_length_le (n : Int64) : n.toInt.repr.toList.length ≤ 20 := by
  have low := Int64.le_toInt n
  have high := Int64.toInt_lt n
  have digits : (Nat.toDigits 10 n.toInt.natAbs).length ≤ 19 :=
    Nat.toDigits_length _ _ _ (by decide) (by omega)
  rcases repr_cases n.toInt with ⟨_, same⟩ | ⟨_, same⟩ <;> rw [same]
  · omega
  · rw [List.length_cons]
    omega

/-- A tail has a byte for each of its characters. -/
theorem nameTail_bytes {role token : String} (hrole : IsWord role) (htoken : IsWord token)
    (timestamp : Int64) :
    (nameTail role timestamp.toInt token).utf8ByteSize ≤ role.length + token.length + 22 := by
  have number := repr_length_le timestamp
  rw [← String.ofList_toList (s := nameTail _ _ _),
    utf8ByteSize_ofList (nameTail_chars hrole htoken timestamp.toInt), toList_nameTail]
  simp only [List.length_append, List.length_cons, String.length_toList] at number ⊢
  omega

/-- A word that a text begins with, up to a dash, is not lost with the dashes at its end. -/
theorem prefix_of_split {word head dashes rest : List Char} (solid : '-' ∉ word)
    (begins : word ++ ['-'] <+: head ++ dashes) (blank : ∀ c ∈ dashes, c = '-') :
    word ++ ['-'] <+: head ++ '-' :: rest := by
  induction word generalizing head with
  | nil =>
    cases head with
    | nil => exact ⟨rest, rfl⟩
    | cons c head =>
      obtain ⟨rfl, _⟩ := List.cons_prefix_cons.1 begins
      exact ⟨_, rfl⟩
  | cons w word ih =>
    have other : '-' ≠ w ∧ '-' ∉ word := by simpa using solid
    cases head with
    | nil =>
      have first : w ∈ dashes := begins.mem (List.mem_cons_self)
      exact absurd (blank w first).symm other.1
    | cons c head =>
      obtain ⟨rfl, further⟩ := List.cons_prefix_cons.1 begins
      exact List.cons_prefix_cons.2 ⟨rfl, ih other.2 further⟩

/-- The names of a run show that it is one. -/
theorem stem_prefix (settings : RunSettings) {role token : String}
    (resource : role = "config" ∨ role = "job") (eight : token.length = 8) (hex : IsToken token)
    (timestamp : Int64) :
    "vip-".toList <+: (uniqueName (Run.stem settings) role timestamp.toInt token).toList := by
  have word : IsWord role ∧ role.length ≤ 6 := by
    rcases resource with rfl | rfl <;> decide
  have bytes := nameTail_bytes word.1 hex.isWord timestamp
  have text : normalized (Run.stem settings) =
      'v' :: 'i' :: 'p' :: '-' :: settings.deployment.toList.map labelChar := by
    rw [normalized, Run.stem, String.toList_append, List.map_append]
    rfl
  have chars := normalized_chars (Run.stem settings)
  have composed := uniqueName_composed (Run.stem settings) role timestamp.toInt token
  have begins : "vip-".toList <+: normalized (Run.stem settings) := ⟨_, text.symm⟩
  have fits : Fits (nameTail role timestamp.toInt token) "vip-".toList := by
    rw [fits_iff begins chars]
    change 4 + 1 + _ ≤ 63
    omega
  generalize uniqueName (Run.stem settings) role timestamp.toInt token = name at composed
  cases composed with
  | bare blank =>
    have kept : Longest (normalized (Run.stem settings)) (nameTail role timestamp.toInt token) _ :=
      longest_take (by omega) chars
    have first := blank _ kept 'v' ((kept.longest _ begins fits).mem (by decide))
    cases first
  | @headed kept head dashes longest split blank ends =>
    have shown := longest.longest _ begins fits
    rw [split] at shown
    have toList : (String.ofList head ++ "-" ++ nameTail role timestamp.toInt token).toList =
        head ++ '-' :: (nameTail role timestamp.toInt token).toList := by
      simp
    have solid : '-' ∉ ['v', 'i', 'p'] := by decide
    rw [toList]
    exact prefix_of_split solid shown blank

/-- What a name is to be for its stem and its tail. -/
structure Labelled (stem tail name : String) : Prop where
  label : IsLabel name
  composed : ∃ text, Normalizes stem text ∧ Composed text tail name ∧
    (Fits tail text → ∃ head dashes, text = head ++ dashes ∧ (∀ c ∈ dashes, c = '-') ∧
      name = if head = [] then tail else String.ofList head ++ "-" ++ tail)

/-- Names are labels that keep their tails, and those of a run begin with the same word, whatever
the stem or the deployment. -/
theorem names_are_labels :
    (∀ (stem role token : String) (timestamp : Int), IsWord role → IsWord token →
      (role ++ "-" ++ toString timestamp ++ "-" ++ token).utf8ByteSize ≤ 63 →
      Labelled stem (role ++ "-" ++ toString timestamp ++ "-" ++ token)
        (uniqueName stem role timestamp token)) ∧
    ∀ (settings : RunSettings) (role token : String) (timestamp : Int64),
      role = "config" ∨ role = "job" → token.length = 8 → IsToken token →
      "vip-".toList <+: (uniqueName (Run.stem settings) role timestamp.toInt token).toList := by
  constructor
  · intro stem role token timestamp hrole htoken short
    have composed := uniqueName_composed stem role timestamp token
    have tail : IsLabel (nameTail role timestamp token) :=
      nameTail_isLabel hrole htoken timestamp short
    exact ⟨composed.isLabel (normalized_chars stem) (normalized_start stem) tail,
      normalized stem, normalized_normalizes stem, composed, composed.whole⟩
  · intro settings role token timestamp resource eight hex
    exact stem_prefix settings resource eight hex timestamp

/-- A stem with a capital letter, a blank and letters of two bytes; and the longest tail of a run's
name, which cuts the deployment right after its dashes. -/
theorem names_are_labels_shortened :
    let settings : RunSettings :=
      { deployment := "site-of-some-length---and-more", site := .file "", mode := .here }
    let name := uniqueName (Run.stem settings) "config" Int64.minValue.toInt "0123abcd"
    (uniqueName "_Été B" "job" 5 "aa" = "t--b-job-5-aa" ∧
      Labelled "_Été B" "job-5-aa" (uniqueName "_Été B" "job" 5 "aa")) ∧
    name = "vip-site-of-some-length-config--9223372036854775808-0123abcd" ∧
      "vip-".toList <+: name.toList := by
  intro settings name
  refine ⟨⟨by decide +kernel, ?_⟩, by decide +kernel, ?_⟩
  · exact names_are_labels.1 "_Été B" "job" "aa" 5 (by decide) (by decide) (by decide +kernel)
  · exact names_are_labels.2 settings "config" "0123abcd" _ (.inl rfl) rfl (by decide)

end Acceptance
