import Acceptance.Proofs.Labels
import Acceptance.Proofs.Removal

/-!
# When two names are the same

A name is read from its end: the token after its last dash, then the time, then the role. What is
before them, whatever was left of a stem, does not matter.

* `Before`: what may stand before a tail;
* `tail_unique`: a text ends in one tail only;
* `names_collide_only`: names are the same only for the same role, time and token; those of runs only
  for the same second and the same random bytes.
-/

namespace Acceptance

open Text

/-- The role of a resource: some letters in lower case. -/
structure IsRole (text : String) : Prop where
  nonempty : text ≠ ""
  letters : ∀ c ∈ text.toList, 'a' ≤ c ∧ c ≤ 'z'

instance (text : String) : Decidable (IsRole text) :=
  @decidable_of_iff _ _ ⟨fun h => ⟨h.1, h.2⟩, fun h => ⟨h.nonempty, h.letters⟩⟩
    (decidableFilled (fun c => 'a' ≤ c ∧ c ≤ 'z') text)

theorem IsRole.solid {text : String} (h : IsRole text) : '-' ∉ text.toList := fun dash =>
  absurd (h.letters '-' dash) (by decide)

theorem IsToken.solid {text : String} (h : IsToken text) : '-' ∉ text.toList := fun dash =>
  absurd (h.hex '-' dash) (by decide)

/-! ## Reading from the end -/

/-- What stands before a tail: nothing, or something that ends in a dash. -/
def Before (lead : List Char) : Prop := lead = [] ∨ ∃ head, lead = head ++ ['-']

theorem Composed.before {text : List Char} {tail name : String} (h : Composed text tail name) :
    ∃ lead, Before lead ∧ name.toList = lead ++ tail.toList := by
  cases h with
  | bare => exact ⟨[], .inl rfl, rfl⟩
  | @headed kept head => exact ⟨head ++ ['-'], .inr ⟨head, rfl⟩, by simp⟩

/-- A text is split at its last dash in one way only. -/
theorem last_dash {a a' b b' : List Char} (solid : '-' ∉ b) (solid' : '-' ∉ b')
    (same : a ++ '-' :: b = a' ++ '-' :: b') : a = a' ∧ b = b' := by
  rcases List.append_eq_append_iff.1 same with ⟨more, rfl, rest⟩ | ⟨more, rfl, rest⟩
  · cases more with
    | nil => simpa using rest
    | cons c more =>
      obtain ⟨-, rfl⟩ := List.cons.inj rest
      exact absurd (by simp) solid
  · cases more with
    | nil => simpa [eq_comm] using rest
    | cons c more =>
      obtain ⟨-, rfl⟩ := List.cons.inj rest
      exact absurd (by simp) solid'

/-- A word is the same if it ends the same text. -/
theorem Before.unique {lead lead' word word' : List Char} (h : Before lead) (h' : Before lead')
    (solid : '-' ∉ word) (solid' : '-' ∉ word') (same : lead ++ word = lead' ++ word') :
    word = word' := by
  rcases h with rfl | ⟨head, rfl⟩ <;> rcases h' with rfl | ⟨head', rfl⟩
  · exact same
  · rw [List.nil_append] at same
    exact absurd (by simp [same]) solid
  · rw [List.nil_append] at same
    exact absurd (by simp [← same]) solid'
  · simp only [List.append_assoc, List.singleton_append] at same
    exact (last_dash solid solid' same).2

theorem toDigits_inj {m n : Nat} (same : Nat.toDigits 10 m = Nat.toDigits 10 n) : m = n := by
  have read := congrArg (Nat.ofDigitChars 10 · 0) same
  simpa only [Nat.ofDigitChars_toDigits (by decide : 1 < 10) (by decide : 10 ≤ 10)] using read

theorem toDigits_solid (n : Nat) : '-' ∉ Nat.toDigits 10 n := fun dash =>
  absurd (Nat.isDigit_of_mem_toDigits (by decide) (by decide) dash) (by decide)

/-- A number is read with its sign, if what is before its dash does not end in another. -/
theorem number_unique {a a' : List Char} {t t' : Int} (ends : a.getLast? ≠ some '-')
    (ends' : a'.getLast? ≠ some '-')
    (same : a ++ '-' :: t.repr.toList = a' ++ '-' :: t'.repr.toList) : a = a' ∧ t = t' := by
  have negative : ∀ a digits : List Char, a ++ '-' :: '-' :: digits = (a ++ ['-']) ++ '-' :: digits :=
    fun a digits => by simp
  have solid := toDigits_solid t.natAbs
  have solid' := toDigits_solid t'.natAbs
  rcases repr_cases t with ⟨sign, text⟩ | ⟨sign, text⟩ <;>
    rcases repr_cases t' with ⟨sign', text'⟩ | ⟨sign', text'⟩ <;> rw [text, text'] at same
  · obtain ⟨rfl, digits⟩ := last_dash solid solid' same
    have := toDigits_inj digits
    exact ⟨rfl, by omega⟩
  · rw [negative] at same
    obtain ⟨rfl, -⟩ := last_dash solid solid' same
    exact absurd (by simp) ends
  · rw [negative] at same
    obtain ⟨rfl, -⟩ := last_dash solid solid' same
    exact absurd (by simp) ends'
  · rw [negative, negative] at same
    obtain ⟨before, digits⟩ := last_dash solid solid' same
    have := toDigits_inj digits
    exact ⟨List.append_cancel_right before, by omega⟩

/-- A text ends in one tail only, if neither its role nor its token has a dash. -/
theorem tail_unique {lead lead' : List Char} {role role' token token' : String} {t t' : Int}
    (h : Before lead) (h' : Before lead') (filled : role ≠ "") (filled' : role' ≠ "")
    (solid : '-' ∉ role.toList) (solid' : '-' ∉ role'.toList) (whole : '-' ∉ token.toList)
    (whole' : '-' ∉ token'.toList)
    (same : lead ++ (nameTail role t token).toList = lead' ++ (nameTail role' t' token').toList) :
    role = role' ∧ t = t' ∧ token = token' := by
  have ends : ∀ {lead : List Char} {role : String}, role ≠ "" → '-' ∉ role.toList →
      (lead ++ role.toList).getLast? ≠ some '-' := by
    intro lead role filled solid dash
    have nonempty : role.toList ≠ [] := by simpa using filled
    rw [List.getLast?_append, List.getLast?_eq_getLast_of_ne_nil nonempty] at dash
    exact solid (Option.some.inj dash ▸ List.getLast_mem nonempty)
  have split : ∀ (lead : List Char) (role token : String) (t : Int),
      lead ++ (nameTail role t token).toList =
        (lead ++ role.toList ++ '-' :: t.repr.toList) ++ '-' :: token.toList := by
    intro lead role token t
    simp [toList_nameTail]
  rw [split, split] at same
  obtain ⟨rest, tokens⟩ := last_dash whole whole' same
  obtain ⟨words, rfl⟩ := number_unique (ends filled solid) (ends filled' solid') rest
  refine ⟨?_, rfl, String.toList_inj.1 tokens⟩
  exact String.toList_inj.1 (h.unique h' solid solid' words)

theorem uniqueName_inj {stem stem' role role' token token' : String} {t t' : Int}
    (filled : role ≠ "") (filled' : role' ≠ "") (solid : '-' ∉ role.toList)
    (solid' : '-' ∉ role'.toList) (whole : '-' ∉ token.toList) (whole' : '-' ∉ token'.toList)
    (same : uniqueName stem role t token = uniqueName stem' role' t' token') :
    role = role' ∧ t = t' ∧ token = token' := by
  obtain ⟨lead, h, read⟩ := (uniqueName_composed stem role t token).before
  obtain ⟨lead', h', read'⟩ := (uniqueName_composed stem' role' t' token').before
  refine tail_unique h h' filled filled' solid solid' whole whole' ?_
  rw [← read, ← read', same]

/-! ## Random bytes -/

theorem hexDigit_inj : ∀ m < 16, ∀ n < 16, hexDigit m = hexDigit n → m = n := by decide

theorem hexDigit_solid : ∀ n < 16, hexDigit n ≠ '-' := by decide

theorem toList_hex_cons (b : UInt8) (bytes : List UInt8) : (hex (b :: bytes)).toList =
    hexDigit (b.toNat / 16) :: hexDigit (b.toNat % 16) :: (hex bytes).toList := by
  simp [hex]

theorem hex_solid (bytes : List UInt8) : '-' ∉ (hex bytes).toList := by
  induction bytes with
  | nil => simp [hex]
  | cons b bytes ih =>
    have := b.toNat_lt
    rw [toList_hex_cons]
    simp only [List.mem_cons, not_or]
    exact ⟨(hexDigit_solid _ (by omega)).symm, (hexDigit_solid _ (by omega)).symm, ih⟩

/-- Bytes are read back from their digits. -/
theorem hex_inj {bytes bytes' : List UInt8} (same : hex bytes = hex bytes') : bytes = bytes' := by
  rw [← String.toList_inj] at same
  induction bytes generalizing bytes' with
  | nil =>
    cases bytes' with
    | nil => rfl
    | cons b bytes' => simp [hex] at same
  | cons b bytes ih =>
    cases bytes' with
    | nil => simp [hex] at same
    | cons b' bytes' =>
      rw [toList_hex_cons, toList_hex_cons] at same
      obtain ⟨high, rest⟩ := List.cons.inj same
      obtain ⟨low, rest⟩ := List.cons.inj rest
      have := b.toNat_lt
      have := b'.toNat_lt
      have high := hexDigit_inj _ (by omega) _ (by omega) high
      have low := hexDigit_inj _ (by omega) _ (by omega) low
      have byte : b = b' := UInt8.toNat_inj.1 (by omega)
      rw [byte, ih rest]

/-! ## The names of two runs -/

namespace Session

variable {σ : Type}

/-- The second that names carry which are drawn now. -/
def second (s : Session σ) : Int := s.epoch + Duration.seconds s.clock.now

/-- The random bytes for the name of a config map that is drawn now. -/
def configToken (s : Session σ) : List UInt8 := s.entropy.take tokenBytes

/-- The random bytes for the name of a job that is drawn now. -/
def jobToken (s : Session σ) : List UInt8 := (s.entropy.drop tokenBytes).take tokenBytes

end Session

/-- Names are the same only for the same role, time and token, whatever their stems and however these
are shortened. No job has the name of a config map, and two jobs or two config maps have the same name
only if they were named in the same second with the same random bytes. -/
theorem names_collide_only :
    (∀ (stem stem' role role' token token' : String) (t t' : Int), IsRole role → IsRole role' →
      IsToken token → IsToken token' →
      uniqueName stem role t token = uniqueName stem' role' t' token' →
      role = role' ∧ t = t' ∧ token = token') ∧
    ∀ (σ τ : Type) (s left : Session σ) (s' left' : Session τ) (stem stem' : String)
      (names names' : ResourceNames), Task.drawNames stem s = (.value names, left) →
      Task.drawNames stem' s' = (.value names', left') →
      names.job ≠ names'.configMap ∧
      (names.job = names'.job → s.second = s'.second ∧ s.jobToken = s'.jobToken) ∧
      (names.configMap = names'.configMap →
        s.second = s'.second ∧ s.configToken = s'.configToken) := by
  constructor
  · intro stem stem' role role' token token' t t' hr hr' ht ht' same
    exact uniqueName_inj hr.nonempty hr'.nonempty hr.solid hr'.solid ht.solid ht'.solid same
  · intro σ τ s left s' left' stem stem' names names' drawn drawn'
    obtain rfl := Task.drawNames_value drawn
    obtain rfl := Task.drawNames_value drawn'
    have word : ∀ role : String, role = "config" ∨ role = "job" → role ≠ "" ∧ '-' ∉ role.toList := by
      rintro role (rfl | rfl) <;> decide
    have unique : ∀ (role role' : String) {t t' : Int} {bytes bytes' : List UInt8},
        uniqueName stem role t (hex bytes) = uniqueName stem' role' t' (hex bytes') →
        role = "config" ∨ role = "job" → role' = "config" ∨ role' = "job" →
        role = role' ∧ t = t' ∧ bytes = bytes' := by
      intro role role' t t' bytes bytes' same resource resource'
      obtain ⟨filled, solid⟩ := word role resource
      obtain ⟨filled', solid'⟩ := word role' resource'
      obtain ⟨roles, times, tokens⟩ := uniqueName_inj filled filled' solid solid' (hex_solid bytes)
        (hex_solid bytes') same
      exact ⟨roles, times, hex_inj tokens⟩
    simp only [ResourceNames.ofTokens]
    refine ⟨fun same => ?_, fun same => ?_, fun same => ?_⟩
    · exact absurd (unique "job" "config" same (.inr rfl) (.inl rfl)).1 (by decide)
    · exact (unique "job" "job" same (.inr rfl) (.inr rfl)).2
    · exact (unique "config" "config" same (.inl rfl) (.inl rfl)).2

/-- Two stems that are shortened to the same, and two runs for one deployment in one second. -/
theorem names_collide_only_rivals :
    let drawing (byte : UInt8) : Session Unit :=
      { party := (), entropy := List.replicate (2 * tokenBytes) byte }
    (uniqueName "VIP" "job" (-5) "aa" = uniqueName "vip--" "job" (-5) "aa" ∧
      "job" = "job" ∧ (-5 : Int) = -5 ∧ "aa" = "aa") ∧
    ∃ names names' left left',
      Task.drawNames "vip-acme" (drawing 1) = (.value names, left) ∧
      Task.drawNames "vip-acme" (drawing 2) = (.value names', left') ∧
      names.job ≠ names'.configMap ∧ names.job ≠ names'.job ∧
      names.configMap ≠ names'.configMap := by
  intro drawing
  have role : IsRole "job" := by decide
  have token : IsToken "aa" := by decide
  have same : uniqueName "VIP" "job" (-5) "aa" = uniqueName "vip--" "job" (-5) "aa" := by
    decide +kernel
  refine ⟨⟨same, names_collide_only.1 "VIP" "vip--" "job" "job" "aa" "aa" (-5) (-5) role role token
    token same⟩, _, _, _, _, rfl, rfl, ?_⟩
  obtain ⟨apart, jobs, configMaps⟩ := names_collide_only.2 Unit Unit (drawing 1) _ (drawing 2) _
    "vip-acme" "vip-acme" _ _ rfl rfl
  exact ⟨apart, fun same => absurd (jobs same).2 (by decide),
    fun same => absurd (configMaps same).2 (by decide)⟩

end Acceptance
