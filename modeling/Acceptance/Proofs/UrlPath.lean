import Acceptance.Proofs.Escapes
import Acceptance.Proofs.Labels
import Acceptance.Url.Parser
import Mathlib.Data.List.Forall2
import Mathlib.Data.List.Induction

/-!
# Paths of URLs

* `Text.split_join`, `Text.mem_of_split`: a text and its parts;
* `Url.Whole`: a text that is one segment wherever it stands in a path;
* `Url.readPath_pathText`: a path of such segments is read back from its text;
* `Url.push_written_iff`: when every segment that is put after a path is written as it was given.
-/

namespace Acceptance.Text

variable {separator : Char} {s : List Char}

theorem split_append (uncut : separator ∉ s) (rest : List Char) :
    split separator (s ++ separator :: rest) = s :: split separator rest := by
  induction s with
  | nil => simp [split]
  | cons c s ih =>
    obtain ⟨other, uncut⟩ := not_or.1 (mt List.mem_cons.2 uncut)
    rw [List.cons_append, split, if_neg (Ne.symm other), ih uncut]
    rfl

theorem split_eq (uncut : separator ∉ s) : split separator s = [s] := by
  induction s with
  | nil => rfl
  | cons c s ih =>
    obtain ⟨other, uncut⟩ := not_or.1 (mt List.mem_cons.2 uncut)
    rw [split, if_neg (Ne.symm other), ih uncut]
    rfl

/-- What has separators between its parts is cut into them again. -/
theorem split_join (first : List Char) (rest : List (List Char))
    (uncut : ∀ part ∈ first :: rest, separator ∉ part) :
    split separator (first ++ rest.flatMap (separator :: ·)) = first :: rest := by
  induction rest generalizing first with
  | nil =>
    rw [List.flatMap_nil, List.append_nil]
    exact split_eq (uncut first List.mem_cons_self)
  | cons next rest ih =>
    obtain ⟨whole, uncut⟩ := List.forall_mem_cons.1 uncut
    rw [List.flatMap_cons, List.cons_append, split_append whole, ih next uncut]

theorem mem_consFirst {c d : Char} {parts : List (List Char)} {part : List Char}
    (mem : part ∈ consFirst c parts) (char : d ∈ part) : d = c ∨ ∃ other ∈ parts, d ∈ other := by
  cases parts with
  | nil =>
    obtain rfl := List.mem_singleton.1 mem
    exact .inl (List.mem_singleton.1 char)
  | cons first rest =>
    rcases List.mem_cons.1 mem with rfl | mem
    · rcases List.mem_cons.1 char with rfl | char
      · exact .inl rfl
      · exact .inr ⟨first, List.mem_cons_self, char⟩
    · exact .inr ⟨part, List.mem_cons_of_mem _ mem, char⟩

/-- The parts hold what the text holds, apart from the separator. -/
theorem mem_of_split {part : List Char} (mem : part ∈ split separator s) {c : Char}
    (char : c ∈ part) : c ∈ s ∧ c ≠ separator := by
  induction s generalizing part with
  | nil =>
    obtain rfl := List.mem_singleton.1 mem
    cases char
  | cons d s ih =>
    rw [split] at mem
    split at mem
    · rcases List.mem_cons.1 mem with rfl | mem
      · cases char
      · exact ⟨List.mem_cons_of_mem _ (ih mem char).1, (ih mem char).2⟩
    · rename_i other
      rcases mem_consFirst mem char with rfl | ⟨part, mem, char⟩
      · exact ⟨List.mem_cons_self, other⟩
      · exact ⟨List.mem_cons_of_mem _ (ih mem char).1, (ih mem char).2⟩

theorem split_concat (s : List Char) :
    split separator (s ++ [separator]) = split separator s ++ [[]] := by
  induction s with
  | nil => simp [split]
  | cons c s ih =>
    rw [List.cons_append, split, split, ih]
    split
    · rfl
    · cases parts : split separator s with
      | nil => exact absurd parts (split_ne_nil _ _)
      | cons first rest => rfl

/-- The last part of a text that does not end in a separator. -/
theorem split_last (filled : s ≠ []) (last : s.getLast? ≠ some separator) :
    ∃ parts part, split separator s = parts ++ [part] ∧ part ≠ [] := by
  induction s with
  | nil => exact absurd rfl filled
  | cons c s ih =>
    rw [split]
    rcases s with - | ⟨d, s⟩
    · rw [if_neg (by simpa using last)]
      exact ⟨[], [c], rfl, by simp⟩
    · obtain ⟨parts, part, cut, filled⟩ := ih (by simp) (by simpa using last)
      rw [cut]
      split
      · exact ⟨[] :: parts, part, rfl, filled⟩
      · cases parts with
        | nil => exact ⟨[], c :: part, rfl, by simp⟩
        | cons first rest => exact ⟨(c :: first) :: rest, part, rfl, filled⟩

end Acceptance.Text

namespace Acceptance.Url

open Text.Utf8 (encode encode_inj encode_ofList)

variable {special : Bool} {path : List String}

/-! ## Segments -/

/-- The spellings of the segments that say something about the others, in lower case. -/
def dots : List (List Char) :=
  [".", "%2e", "..", ".%2e", "%2e.", "%2e%2e"].map String.toList

def IsDots (w : String) : Prop := w.toList.map Char.toLower ∈ dots

/-- A text that is one segment wherever it stands in a path. -/
structure Whole (special : Bool) (w : String) : Prop where
  shown : ∀ c ∈ w.toList, pathEscapes c.toNat = false
  uncut : ∀ c ∈ w.toList, isSlash special c = false
  named : ¬ IsDots w

theorem whole_empty (special : Bool) : Whole special "" where
  shown := List.forall_mem_nil _
  uncut := List.forall_mem_nil _
  named := by
    unfold IsDots
    decide

theorem signs_shown : ∀ c ∈ signs, pathEscapes c.toNat = false := by
  have each : signs.all (!pathEscapes ·.toNat) := by decide
  simpa using each

theorem signs_uncut (special : Bool) : ∀ c ∈ signs, isSlash special c = false := by
  have each : signs.all (!isSlash special ·) := by cases special <;> decide
  simpa using each

theorem eq_of_toLower {c d : Char} (h : c.toLower = d) (symbol : d.toNat < 97) : c = d := by
  rw [← Char.toNat_inj, toNat_toLower] at h
  rw [← Char.toNat_inj]
  split at h <;> omega

theorem toLower_e {c : Char} (h : c.toLower = 'e') : c = 'e' ∨ c = 'E' := by
  rw [← Char.toNat_inj, toNat_toLower] at h
  rw [← Char.toNat_inj, ← Char.toNat_inj]
  change _ = 101 ∨ _ = 69
  change _ = 101 at h
  split at h <;> omega

/-- A dot at the start of a text, in either spelling. -/
theorem unescapeBytes_dot {s rest : List Char} (h : s.map Char.toLower = '.' :: rest ∨
      s.map Char.toLower = '%' :: '2' :: 'e' :: rest) :
    ∃ s' : List Char, s'.map Char.toLower = rest ∧ unescapeBytes (s.flatMap String.utf8EncodeChar) =
      0x2E :: unescapeBytes (s'.flatMap String.utf8EncodeChar) := by
  rcases h with h | h
  · obtain ⟨c, s', rfl, dot, rest⟩ := List.map_eq_cons_iff.1 h
    obtain rfl := eq_of_toLower dot (by decide)
    exact ⟨s', rest, unescapeBytes_cons (by decide) _⟩
  · obtain ⟨_, _, rfl, sign, more⟩ := List.map_eq_cons_iff.1 h
    obtain ⟨_, _, rfl, two, more'⟩ := List.map_eq_cons_iff.1 more
    obtain ⟨e, s', rfl, letter, behind⟩ := List.map_eq_cons_iff.1 more'
    refine ⟨s', behind, ?_⟩
    obtain rfl := eq_of_toLower sign (by decide)
    obtain rfl := eq_of_toLower two (by decide)
    rcases toLower_e letter with rfl | rfl <;> exact unescapeBytes_percent 0x2E _

/-- However dots are spelt, they stand for dots. -/
theorem unescapeBytes_dots {w : String} (h : IsDots w) :
    unescapeBytes (encode w) = encode "." ∨ unescapeBytes (encode w) = encode ".." := by
  obtain ⟨s, rfl⟩ : ∃ s, w = String.ofList s := ⟨w.toList, String.ofList_toList.symm⟩
  rw [IsDots, String.toList_ofList] at h
  rw [encode_ofList]
  simp only [dots, List.map_cons, List.map_nil, List.mem_cons, List.not_mem_nil, or_false] at h
  have single : ∀ s : List Char, s.map Char.toLower = ".".toList ∨ s.map Char.toLower = "%2e".toList →
      unescapeBytes (s.flatMap String.utf8EncodeChar) = encode "." := by
    intro s h
    obtain ⟨_, h, bytes⟩ := unescapeBytes_dot h
    rw [bytes, List.map_eq_nil_iff.1 h]
    decide
  have double : ∀ s rest : List Char, rest = ".".toList ∨ rest = "%2e".toList →
      s.map Char.toLower = '.' :: rest ∨ s.map Char.toLower = '%' :: '2' :: 'e' :: rest →
      unescapeBytes (s.flatMap String.utf8EncodeChar) = encode ".." := by
    intro s rest second h
    obtain ⟨s', rfl, bytes⟩ := unescapeBytes_dot h
    rw [bytes, single s' second]
    decide
  rcases h with h | h | h | h | h | h
  · exact .inl (single s (.inl h))
  · exact .inl (single s (.inr h))
  · exact .inr (double s _ (.inl rfl) (.inl h))
  · exact .inr (double s _ (.inr rfl) (.inl h))
  · exact .inr (double s _ (.inl rfl) (.inr h))
  · exact .inr (double s _ (.inr rfl) (.inr h))
/-! ## Reading -/

/-- Dots take segments away, and any other segment is put after the path. -/
theorem readSegment_cases (path : List String) (segment : List Char) :
    (IsDots (escape pathEscapes segment) ∧ ∃ kept, kept <+: path ∧
      ∀ last, readSegment last path segment = kept ++ if last then [""] else []) ∨
    ¬ IsDots (escape pathEscapes segment) ∧
      ∀ last, readSegment last path segment = path ++ [escape pathEscapes segment] := by
  let spelt := (escape pathEscapes segment).toList.map Char.toLower
  have isDots : IsDots (escape pathEscapes segment) ↔
      (spelt == ['.'] || spelt == "%2e".toList) = true ∨
        ["..", ".%2e", "%2e.", "%2e%2e"].any (·.toList == spelt) = true := by
    change spelt ∈ dots ↔ _
    simp only [dots, List.map_cons, List.map_nil, List.mem_cons, List.not_mem_nil, List.any_cons,
      List.any_nil, Bool.or_eq_true, beq_iff_eq]
    grind
  by_cases one : (spelt == ['.'] || spelt == "%2e".toList) = true
  · exact .inl ⟨isDots.2 (.inl one), path, List.prefix_refl _, fun last => if_pos one⟩
  by_cases two : ["..", ".%2e", "%2e.", "%2e%2e"].any (·.toList == spelt) = true
  · exact .inl ⟨isDots.2 (.inr two), path.dropLast, List.dropLast_prefix _,
      fun last => (if_neg one).trans (if_pos two)⟩
  · exact .inr ⟨fun h => (isDots.1 h).elim one two, fun last => (if_neg one).trans (if_neg two)⟩

theorem whole_escape {segment : List Char} (uncut : ∀ c ∈ segment, isSlash special c = false)
    (named : ¬ IsDots (escape pathEscapes segment)) : Whole special (escape pathEscapes segment) where
  shown c mem := (mem_escape pathEscapes_beyond mem).elim (signs_shown c) And.right
  uncut c mem := (mem_escape pathEscapes_beyond mem).elim (signs_uncut special c) (uncut c ·.1)
  named

theorem readSegment_whole {segment : List Char} (whole : ∀ w ∈ path, Whole special w)
    (uncut : ∀ c ∈ segment, isSlash special c = false) (last : Bool) :
    ∀ w ∈ readSegment last path segment, Whole special w := by
  rcases readSegment_cases path segment with ⟨-, kept, part, read⟩ | ⟨named, read⟩
  · rw [read]
    refine List.forall_mem_append.2 ⟨fun w mem => whole w (part.mem mem), ?_⟩
    cases last with
    | false => exact List.forall_mem_nil _
    | true => exact List.forall_mem_singleton.2 (whole_empty special)
  · rw [read]
    exact List.forall_mem_append.2
      ⟨whole, List.forall_mem_singleton.2 (whole_escape uncut named)⟩

theorem readSegments_whole {segments : List (List Char)} (whole : ∀ w ∈ path, Whole special w)
    (uncut : ∀ segment ∈ segments, ∀ c ∈ segment, isSlash special c = false) :
    ∀ w ∈ readSegments path segments, Whole special w := by
  induction segments generalizing path with
  | nil => exact whole
  | cons segment rest ih =>
    obtain ⟨first, uncut⟩ := List.forall_mem_cons.1 uncut
    cases rest with
    | nil => exact readSegment_whole whole first true
    | cons next rest => exact ih (readSegment_whole whole first false) uncut

/-- What is read as a path is segments. -/
theorem readPath_whole (special : Bool) (s : List Char) :
    ∀ w ∈ readPath special s, Whole special w := by
  have uncut : ∀ rest, (∀ c ∈ rest, c = '/' ∨ isSlash special c = false) →
      ∀ segment ∈ Text.split '/' rest, ∀ c ∈ segment, isSlash special c = false :=
    fun rest plain segment cut c mem =>
      (plain c (Text.mem_of_split cut mem).1).resolve_left (Text.mem_of_split cut mem).2
  have plain : ∀ c ∈ s.map fun c => if isSlash special c then '/' else c,
      c = '/' ∨ isSlash special c = false := by
    intro c mem
    obtain ⟨d, -, rfl⟩ := List.mem_map.1 mem
    split
    · exact .inl rfl
    · rename_i other
      exact .inr (Bool.not_eq_true _ ▸ other)
  rw [readPath]
  generalize (s.map fun c => if isSlash special c then '/' else c) = s at plain
  split
  · cases special with
    | false => exact List.forall_mem_nil _
    | true => exact List.forall_mem_singleton.2 (whole_empty true)
  · rename_i rest
    exact readSegments_whole (List.forall_mem_nil _)
      (uncut rest fun c mem => plain c (List.mem_cons_of_mem _ mem))
  · exact readSegments_whole (List.forall_mem_nil _) (uncut s plain)

namespace Whole

variable {w : String}

theorem readSegment_eq (h : Whole special w) (last : Bool) (path : List String) :
    readSegment last path w.toList = path ++ [w] := by
  have same : escape pathEscapes w.toList = w := by
    rw [escape_eq pathEscapes_beyond h.shown, String.ofList_toList]
  rcases readSegment_cases path w.toList with ⟨dots, -⟩ | ⟨-, read⟩
  · exact absurd (same ▸ dots) h.named
  · rw [read, same]

end Whole

theorem readSegments_eq {path : List String} (more : List String) (filled : more ≠ [])
    (whole : ∀ w ∈ more, Whole special w) :
    readSegments path (more.map String.toList) = path ++ more := by
  induction more generalizing path with
  | nil => exact absurd rfl filled
  | cons w rest ih =>
    obtain ⟨first, whole⟩ := List.forall_mem_cons.1 whole
    cases rest with
    | nil => exact first.readSegment_eq true path
    | cons next rest =>
      have step : readSegments path ((w :: next :: rest).map String.toList) =
          readSegments (readSegment false path w.toList) ((next :: rest).map String.toList) := by
        rw [List.map_cons, List.map_cons, readSegments]
        exact List.cons_ne_nil _ _
      rw [step, ih (by simp) whole, first.readSegment_eq, List.append_assoc]
      rfl

theorem toList_pathText {u : Url} (written : u.path = some path) :
    u.pathText.toList = (path.map String.toList).flatMap ('/' :: ·) := by
  rw [pathText, written, String.toList_join, Option.getD_some, List.flatMap_def, List.flatMap_def,
    List.map_map, List.map_map]
  congr 2
  funext w
  exact String.toList_append

/-- A path of segments is read back from its text. -/
theorem readPath_pathText {u : Url} (written : u.path = some path) (filled : path ≠ [])
    (whole : ∀ w ∈ path, Whole special w) : readPath special u.pathText.toList = path := by
  have plain : ∀ c ∈ u.pathText.toList, c = '/' ∨ isSlash special c = false := by
    rw [toList_pathText written]
    intro c mem
    obtain ⟨segment, part, char⟩ := List.mem_flatMap.1 mem
    obtain ⟨w, segment, rfl⟩ := List.mem_map.1 part
    exact (List.mem_cons.1 char).imp_right ((whole w segment).uncut c)
  have same : (u.pathText.toList.map fun c => if isSlash special c then '/' else c) =
      u.pathText.toList := by
    refine (List.map_congr_left fun c mem => ?_).trans (List.map_id _)
    rcases plain c mem with rfl | other
    · exact ite_self _
    · simp [other]
  cases path with
  | nil => exact absurd rfl filled
  | cons first rest =>
    have uncut : ∀ part ∈ (first :: rest).map String.toList, '/' ∉ part := by
      intro part mem slash
      obtain ⟨w, segment, rfl⟩ := List.mem_map.1 mem
      cases (whole w segment).uncut '/' slash
    have cut := Text.split_join first.toList (rest.map String.toList) uncut
    rw [readPath, same, toList_pathText written]
    change readSegments [] (Text.split '/' (first.toList ++ (rest.map String.toList).flatMap ('/' :: ·))) = _
    rw [cut]
    exact readSegments_eq (first :: rest) filled whole

/-! ## Segments that are put after a path -/

/-- A segment stands for a text. -/
def StandsFor (w s : String) : Prop := unescapeBytes (encode w) = encode s

/-- A text that is put after a path as a segment for itself. -/
structure Kept (s : String) : Prop where
  single : s ≠ "."
  double : s ≠ ".."
  plain : ∀ c ∈ s.toList, isIgnored c = false

theorem kept_iff {s : String} : Kept s ↔ s ≠ "." ∧ s ≠ ".." ∧ s.toList.all (!isIgnored ·) := by
  simp only [List.all_eq_true, Bool.not_eq_true']
  exact ⟨fun ⟨single, double, plain⟩ => ⟨single, double, plain⟩,
    fun ⟨single, double, plain⟩ => ⟨single, double, plain⟩⟩

instance (s : String) : Decidable (Kept s) := decidable_of_iff _ kept_iff.symm

theorem standsFor_escape (special : Bool) (cs : List Char) :
    StandsFor (escape (segmentEscapes special) cs) (String.ofList cs) :=
  (segmentEscapes_faithful special).unescapeBytes_escape cs

theorem StandsFor.unique {w s t : String} (h : StandsFor w s) (h' : StandsFor w t) : s = t :=
  encode_inj.1 (h.symm.trans h')

theorem standsFor_empty : StandsFor "" "" := by
  unfold StandsFor
  decide

theorem whole_segment {cs : List Char} (single : cs ≠ ['.']) (double : cs ≠ ['.', '.']) :
    Whole special (escape (segmentEscapes special) cs) where
  shown c mem := by
    rcases mem_escape (segmentEscapes_faithful special).beyond mem with sign | ⟨-, shown⟩
    · exact signs_shown c sign
    · simp only [segmentEscapes, Bool.or_eq_false_iff] at shown
      exact shown.1.1
  uncut c mem := by
    rcases mem_escape (segmentEscapes_faithful special).beyond mem with sign | ⟨-, shown⟩
    · exact signs_uncut special c sign
    · refine Bool.eq_false_iff.2 fun slash => ?_
      rw [isSlash, Bool.or_eq_true, Bool.and_eq_true, beq_iff_eq, beq_iff_eq] at slash
      rcases slash with rfl | ⟨rfl, rfl⟩
      · cases special <;> exact absurd shown (by decide)
      · exact absurd shown (by decide)
  named dots := by
    rcases unescapeBytes_dots dots with stands | stands
    · exact single (String.ofList_inj.1 ((standsFor_escape special cs).unique (t := ".") stands))
    · exact double (String.ofList_inj.1 ((standsFor_escape special cs).unique (t := "..") stands))

/-- What becomes of a path when a text is put after it. -/
inductive Pushed (special : Bool) (path : List String) (s : String) : List String → Prop where
  | kept {w : String} (kept : Kept s) (whole : Whole special w) (stands : StandsFor w s) :
      Pushed special path s (path ++ [w])
  | passed (lost : ¬ Kept s) : Pushed special path s path
  | other {w : String} {before : List String} (lost : ¬ Kept s) (whole : Whole special w)
      (other : ¬ StandsFor w s) (part : before <+: path) : Pushed special path s (before ++ [w])

theorem pushSegment_pushed (special : Bool) (path : List String) (s : String) :
    Pushed special path s (pushSegment special path s) := by
  by_cases relative : s = "." ∨ s = ".."
  · rw [pushSegment, if_pos (by simpa using relative)]
    exact .passed fun kept => relative.elim kept.single kept.double
  rw [pushSegment, if_neg (by simpa using relative)]
  simp only [beq_iff_eq]
  obtain ⟨single, double⟩ := not_or.1 relative
  by_cases plain : ∀ c ∈ s.toList, isIgnored c = false
  · have single' : s.toList ≠ ['.'] := fun same => single (String.toList_inj.1 same)
    have double' : s.toList ≠ ['.', '.'] := fun same => double (String.toList_inj.1 same)
    have stands := standsFor_escape special s.toList
    rw [String.ofList_toList] at stands
    rw [List.filter_eq_self.2 fun c mem => by rw [plain c mem]; rfl, if_neg single', if_neg double']
    exact .kept ⟨single, double, plain⟩ (whole_segment single' double') stands
  · have lost : ¬ Kept s := fun kept => plain kept.plain
    have empty : ¬ StandsFor "" s := by
      intro stands
      rw [← standsFor_empty.unique stands] at plain
      exact plain (List.forall_mem_nil _)
    generalize rest : (s.toList.filter fun c => !isIgnored c) = cs
    have fewer : ¬ StandsFor (escape (segmentEscapes special) cs) s := by
      intro stands
      rw [← (standsFor_escape special cs).unique stands, String.toList_ofList] at rest plain
      exact plain fun c mem => by simpa using List.filter_eq_self.1 rest c mem
    split
    · exact .other lost (whole_empty special) empty (List.prefix_refl _)
    · rename_i single'
      split
      · exact .other lost (whole_empty special) empty (List.dropLast_prefix _)
      · rename_i double'
        exact .other lost (whole_segment single' double') fewer (List.prefix_refl _)

namespace Pushed

variable {pushed : List String} {s : String}

theorem whole (h : Pushed special path s pushed) (before : ∀ w ∈ path, Whole special w) :
    ∀ w ∈ pushed, Whole special w := by
  cases h with
  | kept _ whole => exact List.forall_mem_append.2 ⟨before, List.forall_mem_singleton.2 whole⟩
  | passed => exact before
  | other _ whole _ part =>
    exact List.forall_mem_append.2
      ⟨fun w mem => before w (part.mem mem), List.forall_mem_singleton.2 whole⟩

theorem length_le (h : Pushed special path s pushed) : pushed.length ≤ path.length + 1 := by
  cases h with
  | kept => exact Nat.le_of_eq List.length_append
  | passed => exact Nat.le_succ _
  | other _ _ _ part =>
    rw [List.length_append]
    exact Nat.succ_le_succ part.length_le

theorem ne_nil (h : Pushed special path s pushed) (filled : path ≠ [] ∨ Kept s) : pushed ≠ [] := by
  cases h with
  | kept | other => exact List.append_ne_nil_of_right_ne_nil _ (List.cons_ne_nil _ _)
  | passed lost => exact filled.resolve_right lost

/-- The last segment stands for the text that was put there. -/
theorem kept_of_standsFor {before : List String} {w : String}
    (h : Pushed special path s (before ++ [w])) (stands : StandsFor w s)
    (long : path.length ≤ before.length) : Kept s ∧ path = before := by
  generalize same : before ++ [w] = pushed at h
  cases h with
  | kept kept => exact ⟨kept, (List.append_inj' same rfl).1.symm⟩
  | passed =>
    have lengths := congrArg List.length same
    rw [List.length_append, List.length_singleton] at lengths
    omega
  | other _ _ other =>
    obtain ⟨rfl⟩ := (List.append_inj' same rfl).2
    exact absurd stands other

end Pushed

theorem push_whole (special : Bool) (segments : List String) (whole : ∀ w ∈ path, Whole special w) :
    ∀ w ∈ segments.foldl (pushSegment special) path, Whole special w := by
  induction segments generalizing path with
  | nil => exact whole
  | cons s rest ih => exact ih ((pushSegment_pushed special path s).whole whole)

theorem push_ne_nil (special : Bool) (segments : List String) (filled : path ≠ []) :
    segments.foldl (pushSegment special) path ≠ [] := by
  induction segments generalizing path with
  | nil => exact filled
  | cons s rest ih => exact ih ((pushSegment_pushed special path s).ne_nil (.inl filled))

theorem length_push (special : Bool) (path segments : List String) :
    (segments.foldl (pushSegment special) path).length ≤ path.length + segments.length := by
  induction segments generalizing path with
  | nil => exact Nat.le_refl _
  | cons s rest ih =>
    have first := (pushSegment_pushed special path s).length_le
    have more := ih (pushSegment special path s)
    rw [List.foldl_cons, List.length_cons]
    omega

/-- Each text is written as a segment of its own exactly if none of them says something else. -/
theorem push_written_iff (special : Bool) (path segments : List String) :
    (∃ written, segments.foldl (pushSegment special) path = path ++ written ∧
      List.Forall₂ StandsFor written segments) ↔ ∀ s ∈ segments, Kept s := by
  induction segments using List.reverseRecOn with
  | nil => exact ⟨fun _ => List.forall_mem_nil _, fun _ => ⟨[], (List.append_nil _).symm, .nil⟩⟩
  | append_singleton segments s ih =>
    have step := pushSegment_pushed special (segments.foldl (pushSegment special) path) s
    have short := length_push special path segments
    rw [List.foldl_append, List.foldl_cons, List.foldl_nil, List.forall_mem_append, ← ih,
      List.forall_mem_singleton]
    generalize segments.foldl (pushSegment special) path = earlier at step short
    generalize pushSegment special earlier s = pushed at step
    constructor
    · rintro ⟨written, rfl, stands⟩
      have before := List.forall₂_take_append _ _ _ stands
      obtain ⟨w, _, last, none, same⟩ :=
        List.forall₂_cons_right_iff.1 (List.forall₂_drop_append _ _ _ stands)
      cases none
      rw [← List.take_append_drop segments.length written, same, ← List.append_assoc] at step
      obtain ⟨kept, rfl⟩ := step.kept_of_standsFor last
        (by rwa [List.length_append, before.length_eq])
      exact ⟨⟨_, rfl, before⟩, kept⟩
    · rintro ⟨⟨written, rfl, stands⟩, kept⟩
      cases step with
      | @kept w _ _ last =>
        exact ⟨written ++ [w], List.append_assoc .., List.rel_append stands (.cons last .nil)⟩
      | passed lost | other lost => exact absurd kept lost

end Acceptance.Url
