import Acceptance.Proofs.UrlPath

/-!
# What is read as a URL

* `Url.parse_whole`: the path of a URL that is read consists of segments;
* `Url.parse_slash`: one slash more at the end of the path is an empty segment more at most.
-/

namespace Acceptance.Url

variable {special : Bool} {scheme : String} {before after : List Char}

/-! ## Taking a part of a text -/

theorem takeWhile_stop {p : Char → Bool} (s : List Char) {rest : List Char}
    (stop : ∀ c ∈ rest.head?, p c = false) : (s ++ rest).takeWhile p = s.takeWhile p := by
  have none : rest.takeWhile p = [] := by
    cases rest with
    | nil => rfl
    | cons c rest => exact List.takeWhile_cons_of_neg (by simp [stop c rfl])
  rw [List.takeWhile_append, none, List.append_nil]
  split
  · rename_i all
    exact ((List.takeWhile_prefix p).eq_of_length all).symm
  · rfl

theorem drop_takeWhile (p : Char → Bool) (s rest : List Char) :
    (s ++ rest).drop (s.takeWhile p).length = s.drop (s.takeWhile p).length ++ rest :=
  List.drop_append_of_le_length (List.takeWhile_prefix p).length_le

/-- A text that does not end in a slash. -/
def Open (special : Bool) (s : List Char) : Prop := ∀ c ∈ s.getLast?, isSlash special c = false

instance (special : Bool) (s : List Char) : Decidable (Open special s) :=
  decidable_of_iff (s.getLast?.all (!isSlash special ·)) (by simp [Open, Option.all_eq_true])

theorem Open.of_suffix {front : List Char} (h : Open special before) (part : front <:+ before) :
    Open special front := by
  obtain ⟨start, rfl⟩ := part
  intro c mem
  refine h c ?_
  rw [List.getLast?_append, mem]
  rfl

/-! ## The end of a path -/

/-- A path, or the same with an empty segment at its end. -/
inductive Extends (path : List String) : List String → Prop where
  | same : Extends path path
  | more (last : path.getLast? ≠ some "") : Extends path (path ++ [""])

theorem escape_ne_empty {segment : List Char} (filled : segment ≠ []) :
    escape pathEscapes segment ≠ "" := by
  obtain ⟨c, rest, rfl⟩ := List.exists_cons_of_ne_nil filled
  obtain ⟨first, tail, bytes, -⟩ := (Text.Utf8.encodes_char c).head_eq []
  intro empty
  have none : escapeByte pathEscapes first = [] := by
    rw [escape, Text.Utf8.encode_ofList, List.flatMap_cons, bytes] at empty
    exact List.flatMap_eq_nil_iff.1 (String.ofList_inj.1 empty) first List.mem_cons_self
  rw [escapeByte] at none
  split at none <;> cases none

theorem readSegments_concat (segments : List (List Char)) (last : List Char)
    (path : List String) :
    readSegments path (segments ++ [last]) =
      readSegment true (segments.foldl (readSegment false) path) last := by
  induction segments generalizing path with
  | nil => rfl
  | cons segment rest ih =>
    rw [List.cons_append, readSegments, ih]
    · rfl
    · exact List.append_ne_nil_of_right_ne_nil _ (List.cons_ne_nil _ _)

theorem readSegment_empty (last : Bool) (path : List String) :
    readSegment last path [] = path ++ [""] :=
  (whole_empty false).readSegment_eq last path

theorem readSegments_slash {s : List Char} (filled : s ≠ []) (last : s.getLast? ≠ some '/')
    (path : List String) :
    Extends (readSegments path (Text.split '/' s))
      (readSegments path (Text.split '/' (s ++ ['/']))) := by
  obtain ⟨segments, segment, cut, filled⟩ := Text.split_last filled last
  rw [Text.split_concat, cut, readSegments_concat, readSegments_concat, List.foldl_append,
    List.foldl_cons, List.foldl_nil, readSegment_empty]
  generalize segments.foldl (readSegment false) path = path
  rcases readSegment_cases path segment with ⟨-, kept, -, read⟩ | ⟨-, read⟩
  · rw [read, read, if_pos rfl, if_neg Bool.false_ne_true, List.append_nil]
    exact .same
  · rw [read, read]
    refine .more ?_
    rw [List.getLast?_concat]
    exact fun same => escape_ne_empty filled (Option.some.inj same)

theorem readPath_slash {s : List Char} (closed : Open special s) :
    Extends (readPath special s) (readPath special (s ++ ['/'])) := by
  cases s with
  | nil =>
    cases special with
    | false =>
      have none : ([] : List String).getLast? ≠ some "" := nofun
      exact .more none
    | true => exact .same
  | cons c s =>
    have slash : (if isSlash special '/' then '/' else '/') = '/' := ite_self _
    rw [readPath, readPath, List.map_append, List.map_singleton, slash]
    have filled : ((c :: s).map fun c => if isSlash special c then '/' else c) ≠ [] := by simp
    have last : ((c :: s).map fun c => if isSlash special c then '/' else c).getLast? ≠ some '/' := by
      rw [List.getLast?_map]
      intro same
      obtain ⟨d, end', same⟩ := Option.map_eq_some_iff.1 same
      rw [closed d end', if_neg Bool.false_ne_true] at same
      have none := closed d end'
      rw [same] at none
      cases none
    generalize ((c :: s).map fun c => if isSlash special c then '/' else c) = s at filled last
    split
    · exact absurd rfl filled
    · rename_i rest
      have more : rest ≠ [] := by
        rintro rfl
        exact last rfl
      refine readSegments_slash more ?_ []
      obtain ⟨d, rest, rfl⟩ := List.exists_cons_of_ne_nil more
      rwa [List.getLast?_cons_cons] at last
    · rename_i other
      split
      · rename_i empty
        simp at empty
      · rename_i rest slashed
        obtain ⟨d, front, rfl⟩ := List.exists_cons_of_ne_nil filled
        obtain ⟨rfl, -⟩ := List.cons.inj slashed
        exact absurd rfl (other front)
      · exact readSegments_slash filled last []

/-- The same URL, but for an empty segment that it may have more at the end of its path. -/
structure Beside (u u' : Url) : Prop where
  path : ∃ p p', u.path = some p ∧ Extends p p' ∧ u' = { u with path := some p' }

theorem readTail_eq (u : Url) {front : List Char} (uncut : ∀ c ∈ front, endsPath c = false)
    (stop : ∀ c ∈ after.head?, endsPath c = true) :
    readTail u (front ++ after) =
      { readRest u after with path := some (readPath (isSpecial u.scheme) front) } := by
  have all : (front ++ after).takeWhile (fun c => !endsPath c) = front := by
    rw [takeWhile_stop front fun c mem => by rw [stop c mem]; rfl, List.takeWhile_eq_self_iff]
    exact fun c mem => by rw [uncut c mem]; rfl
  rw [readTail, all, List.drop_left]
  rfl

theorem readTail_slash (u : Url) {front : List Char} (uncut : ∀ c ∈ front, endsPath c = false)
    (closed : Open (isSpecial u.scheme) front) (stop : ∀ c ∈ after.head?, endsPath c = true) :
    Beside (readTail u (front ++ after)) (readTail u (front ++ '/' :: after)) := by
  have uncut' : ∀ c ∈ front ++ ['/'], endsPath c = false :=
    List.forall_mem_append.2 ⟨uncut, List.forall_mem_singleton.2 rfl⟩
  rw [List.append_cons front, readTail_eq u uncut stop, readTail_eq u uncut' stop]
  exact ⟨_, _, rfl, readPath_slash closed, rfl⟩

/-- The same fault, or URLs that are beside each other. -/
inductive Alongside : Except Fault Url → Except Fault Url → Prop where
  | fault (fault : Fault) : Alongside (.error fault) (.error fault)
  | beside {u u' : Url} (beside : Beside u u') : Alongside (.ok u) (.ok u')

theorem alongside_self {r : Except Fault Url}
    (written : ∀ u, r = .ok u → ∃ path, u.path = some path) : Alongside r r := by
  cases r with
  | error fault => exact .fault fault
  | ok u =>
    obtain ⟨path, written⟩ := written u rfl
    exact .beside ⟨path, path, written, .same, by rw [← written]⟩

/-! ## Authorities and paths -/

theorem splitUser_suffix (s : List Char) : (splitUser s).2 <:+ s := by
  rw [splitUser]
  split
  · exact List.suffix_refl s
  · exact List.reverse_prefix.1 (by rw [List.reverse_reverse]; exact List.takeWhile_prefix _)

theorem readUser_scheme (u : Url) (user : Option (List Char)) :
    (readUser u user).scheme = u.scheme := by
  cases user <;> rfl

/-- A path follows what is read as an authority, whatever comes after the path. -/
theorem readAuthority_eq (scheme : String) (before : List Char) :
    ∃ place : Except Fault (Url × List Char),
      (∀ u front, place = .ok (u, front) → u.scheme = scheme ∧ front <:+ before) ∧
      ∀ tail, (∀ c ∈ tail.head?, isSlash (isSpecial scheme) c = true ∨ endsPath c = true) →
        readAuthority scheme (before ++ tail) = place.map fun x => readTail x.1 (x.2 ++ tail) := by
  generalize cut : before.takeWhile (fun c => !isSlash (isSpecial scheme) c && !endsPath c) =
    authority
  have part := splitUser_suffix authority
  obtain ⟨rest, rfl⟩ : authority <+: before := cut ▸ List.takeWhile_prefix _
  have same : ∀ tail : List Char,
      (∀ c ∈ tail.head?, isSlash (isSpecial scheme) c = true ∨ endsPath c = true) →
      (authority ++ rest ++ tail).takeWhile
        (fun c => !isSlash (isSpecial scheme) c && !endsPath c) = authority := by
    intro tail stop
    rw [takeWhile_stop _ fun c mem => by rcases stop c mem with h | h <;> simp [h], cut]
  cases split : splitUser authority with
  | mk user place =>
    rw [split] at part
    by_cases missing : (takeHost false place).isEmpty && (user.isSome || place != [])
    · refine ⟨.error .emptyHost, nofun, fun tail stop => ?_⟩
      simp only [readAuthority, same tail stop, split]
      rw [if_pos missing]
      rfl
    cases host : readHost (isSpecial scheme) (takeHost false place) with
    | error fault =>
      refine ⟨.error fault, nofun, fun tail stop => ?_⟩
      simp only [readAuthority, same tail stop, split]
      rw [if_neg missing, host]
      rfl
    | ok host' =>
      let port := (place.drop ((takeHost false place).length + 1)).takeWhile (· != '\\')
      let behind := place.drop ((takeHost false place).length + 1 + port.length)
      cases read : readPort scheme port with
      | error fault =>
        refine ⟨.error fault, nofun, fun tail stop => ?_⟩
        simp only [readAuthority, same tail stop, split]
        rw [if_neg missing, host]
        simp only [port] at read
        simp only [bind, Except.bind, read]
        rfl
      | ok port' =>
        refine ⟨.ok (readUser { scheme, host := some host', port := port', path := none } user,
          behind ++ rest), ?_, fun tail stop => ?_⟩
        · rintro _ _ ⟨⟩
          refine ⟨readUser_scheme _ user, List.suffix_append_self_iff.2 ?_⟩
          exact (List.drop_suffix _ _).trans part
        · simp only [readAuthority, same tail stop, split]
          rw [if_neg missing, host]
          simp only [port] at read
          simp only [bind, Except.bind, Except.map, read, List.append_assoc, List.drop_left, behind,
            port]

theorem readTail_whole {u : Url} {s : List Char} {path : List String}
    (written : (readTail u s).path = some path) : ∀ w ∈ path, Whole (isSpecial u.scheme) w := by
  obtain rfl := Option.some.inj written
  exact readPath_whole _ _

theorem readAuthority_whole {s : List Char} {u : Url} (read : readAuthority scheme s = .ok u) :
    u.scheme = scheme ∧ ∃ path, u.path = some path ∧ ∀ w ∈ path, Whole (isSpecial scheme) w := by
  obtain ⟨place, parts, reads⟩ := readAuthority_eq scheme s
  rw [← List.append_nil s, reads [] nofun] at read
  cases place with
  | error fault => cases read
  | ok x =>
    obtain rfl := Except.ok.inj read
    obtain ⟨rfl, -⟩ := parts _ _ rfl
    exact ⟨rfl, _, rfl, readTail_whole rfl⟩

theorem readAuthority_slash (uncut : ∀ c ∈ before, endsPath c = false)
    (closed : Open (isSpecial scheme) before) (stop : ∀ c ∈ after.head?, endsPath c = true) :
    Alongside (readAuthority scheme (before ++ after)) (readAuthority scheme (before ++ '/' :: after)) := by
  obtain ⟨place, parts, reads⟩ := readAuthority_eq scheme before
  rw [reads after fun c mem => .inr (stop c mem),
    reads ('/' :: after) fun c mem => .inl (Option.mem_some.1 mem ▸ rfl)]
  cases place with
  | error fault => exact .fault fault
  | ok x =>
    obtain ⟨rfl, part⟩ := parts _ _ rfl
    exact .beside (readTail_slash _ (fun c mem => uncut c (part.mem mem)) (closed.of_suffix part) stop)

/-! ## Files -/

/-- The host of a file, and what follows it. -/
def filePlace (s : List Char) : List Char × List Char :=
  if (s.takeWhile (isSlash true)).length ≥ 2 then
    let host := (s.drop 2).takeWhile fun c => !isSlash true c && !endsPath c
    (host, (s.drop 2).drop host.length)
  else ([], s)

/-- A path without the empty segments before its first name. -/
def fromName (path : List String) : List String :=
  let named := path.dropWhile (· == "")
  if named.isEmpty then [""] else named

/-- The host of a file, if it has one. -/
def fileHost (name : List Char) : Except Fault (Option Host) :=
  if name.isEmpty then .ok none
  else do
    let host ← Host.parse name
    .ok (if host == .name "localhost" then none else some host)

def fileUrl (s : List Char) (host : Option Host) : Url :=
  let u := readTail { scheme := "file", host, path := none } s
  { u with path := u.path.map fromName }

theorem fileUrl_path (s : List Char) (host : Option Host) : (fileUrl s host).path =
    (readTail { scheme := "file", host, path := none } s).path.map fromName := rfl

theorem readFile_eq (s : List Char) :
    readFile s = (fileHost (filePlace s).1).map (fileUrl (filePlace s).2) := by
  rw [filePlace]
  by_cases two : (s.takeWhile (isSlash true)).length ≥ 2
  · simp only [readFile, if_pos two]
    rw [fileHost]
    split
    · rfl
    · cases Host.parse ((s.drop 2).takeWhile fun c => !isSlash true c && !endsPath c) <;> rfl
  · simp only [readFile, if_neg two]
    rfl

theorem filePlace_suffix (s : List Char) : (filePlace s).2 <:+ s := by
  rw [filePlace]
  split
  · exact (List.drop_suffix _ _).trans (List.drop_suffix _ _)
  · exact List.suffix_refl s

theorem isSlash_of_endsPath {c : Char} (h : endsPath c = true) : isSlash special c = false := by
  rw [endsPath, Bool.or_eq_true, beq_iff_eq, beq_iff_eq] at h
  rcases h with rfl | rfl <;> cases special <;> decide

theorem filePlace_append (closed : Open true before) (stop : ∀ c ∈ after.head?, endsPath c = true)
    {tail : List Char} (ends : tail = after ∨ tail = '/' :: after) :
    filePlace (before ++ tail) = ((filePlace before).1, (filePlace before).2 ++ tail) := by
  have none : after.takeWhile (isSlash true) = [] :=
    takeWhile_stop [] fun c mem => isSlash_of_endsPath (stop c mem)
  have stop' : ∀ c ∈ tail.head?, (!isSlash true c && !endsPath c) = false := by
    rcases ends with rfl | rfl
    · exact fun c mem => by simp [stop c mem]
    · exact fun c mem => by obtain rfl := Option.mem_some.1 mem; rfl
  rcases before.eq_nil_or_concat' with rfl | ⟨front, c, rfl⟩
  · have few : ¬ (tail.takeWhile (isSlash true)).length ≥ 2 := by
      rcases ends with rfl | rfl
      · rw [none]
        decide
      · rw [List.takeWhile_cons_of_pos rfl, none]
        decide
    rw [List.nil_append, filePlace, if_neg few]
    rfl
  · have name : isSlash true c = false := closed c (by simp)
    have slashes : ((front ++ [c]) ++ tail).takeWhile (isSlash true) =
        (front ++ [c]).takeWhile (isSlash true) := by
      refine (List.takeWhile_append ..).trans (if_neg fun all => ?_)
      have whole := (List.takeWhile_prefix (isSlash true)).eq_of_length all
      exact absurd (List.takeWhile_eq_self_iff.1 whole c (by simp)) (by simp [name])
    rw [filePlace, filePlace, slashes]
    split
    · rename_i two
      have long := Nat.le_trans two (List.takeWhile_prefix _).length_le
      simp only [List.drop_append_of_le_length long, takeWhile_stop _ stop', drop_takeWhile]
    · rfl

theorem extends_fromName {path path' : List String} (h : Extends path path') :
    Extends (fromName path) (fromName path') := by
  cases h with
  | same => exact .same
  | more last =>
    cases path with
    | nil => exact .same
    | cons first rest =>
      have nonempty := List.cons_ne_nil first rest
      generalize first :: rest = path at last nonempty ⊢
      have filled : path.dropWhile (· == "") ≠ [] := by
        intro none
        have all := List.dropWhile_eq_nil_iff.1 none (path.getLast nonempty) (List.getLast_mem _)
        exact last (by rw [List.getLast?_eq_some_getLast nonempty, beq_iff_eq.1 all])
      have dropped : ∀ more, fromName (path ++ more) = path.dropWhile (· == "") ++ more := by
        intro more
        have same : (path ++ more).dropWhile (· == "") = path.dropWhile (· == "") ++ more := by
          rw [List.dropWhile_append, if_neg (by simpa using filled)]
        rw [fromName, same]
        exact if_neg (by simp [filled])
      have whole := dropped []
      rw [List.append_nil, List.append_nil] at whole
      rw [whole, dropped]
      refine .more ?_
      obtain ⟨start, same⟩ := List.dropWhile_suffix (· == "") (l := path)
      rwa [← same, List.getLast?_append_of_ne_nil _ filled] at last

theorem fromName_mem {path : List String} {w : String} (mem : w ∈ fromName path) :
    w ∈ path ∨ w = "" := by
  rw [fromName] at mem
  split at mem
  · exact .inr (List.mem_singleton.1 mem)
  · exact .inl ((List.dropWhile_suffix _).mem mem)

theorem readFile_whole {s : List Char} {u : Url} (read : readFile s = .ok u) :
    u.scheme = "file" ∧ ∀ path, u.path = some path → ∀ w ∈ path, Whole true w := by
  rw [readFile_eq] at read
  cases found : fileHost (filePlace s).1 with
  | error fault =>
    rw [found] at read
    cases read
  | ok host =>
    rw [found] at read
    obtain rfl := Except.ok.inj read
    refine ⟨rfl, fun path written w mem => ?_⟩
    rw [fileUrl_path] at written
    obtain ⟨path, tail, rfl⟩ := Option.map_eq_some_iff.1 written
    rcases fromName_mem mem with mem | rfl
    · exact readTail_whole tail w mem
    · exact whole_empty true

theorem readFile_slash (uncut : ∀ c ∈ before, endsPath c = false) (closed : Open true before)
    (stop : ∀ c ∈ after.head?, endsPath c = true) :
    Alongside (readFile (before ++ after)) (readFile (before ++ '/' :: after)) := by
  rw [readFile_eq, filePlace_append closed stop (.inl rfl), readFile_eq,
    filePlace_append closed stop (.inr rfl)]
  have part := filePlace_suffix before
  cases fileHost (filePlace before).1 with
  | error fault => exact .fault fault
  | ok host =>
    obtain ⟨path, path', written, extends', same⟩ :=
      readTail_slash { scheme := "file", host, path := none } (fun c mem => uncut c (part.mem mem))
        (closed.of_suffix part) stop
    refine .beside ⟨fromName path, fromName path', ?_, extends_fromName extends', ?_⟩
    · exact congrArg (Option.map fromName) written
    · rw [fileUrl, same]
      rfl

/-! ## Whole texts -/

/-- The scheme stands before the path. -/
theorem splitScheme?_append {tail : List Char}
    (stop : ∀ c ∈ tail.head?, c = '/' ∨ endsPath c = true) :
    splitScheme? (before ++ tail) = (splitScheme? before).map fun x => (x.1, x.2 ++ tail) := by
  have outside : ∀ c ∈ tail.head?, c ≠ ':' ∧
      (c.isAlphanum || c == '+' || c == '-' || c == '.') = false := by
    intro c mem
    rcases stop c mem with rfl | ends
    · decide
    · rw [endsPath, Bool.or_eq_true, beq_iff_eq, beq_iff_eq] at ends
      rcases ends with rfl | rfl <;> decide
  simp only [splitScheme?, takeWhile_stop before fun c mem => (outside c mem).2, drop_takeWhile]
  generalize before.takeWhile (fun c => c.isAlphanum || c == '+' || c == '-' || c == '.') = name
  cases name.head? with
  | none => rfl
  | some first =>
    cases before.drop name.length with
    | nil =>
      cases tail with
      | nil => rfl
      | cons c tail =>
        have other := (outside c rfl).1
        split
        · rename_i colon
          exact absurd (List.cons.inj colon).1 other
        · rfl
    | cons c rest =>
      by_cases colon : c = ':'
      · subst colon
        change (if first.isAlpha then _ else _) = Option.map _ (if first.isAlpha then _ else _)
        split <;> rfl
      · simp [colon]

theorem splitScheme?_suffix {rest : List Char} (found : splitScheme? before = some (scheme, rest)) :
    rest <:+ before := by
  simp only [splitScheme?] at found
  split at found
  · rename_i behind
    split at found
    · cases found
      exact (List.suffix_cons _ _).trans (behind ▸ List.drop_suffix _ _)
    · cases found
  · cases found

/-- What is read behind a well-known scheme. -/
theorem readKnown_slash (known : isSpecial scheme = true) (uncut : ∀ c ∈ before, endsPath c = false)
    (closed : Open true before) (stop : ∀ c ∈ after.head?, endsPath c = true) :
    Alongside (readAuthority scheme ((before ++ after).dropWhile (isSlash true)))
      (readAuthority scheme ((before ++ '/' :: after).dropWhile (isSlash true))) := by
  by_cases filled : before.dropWhile (isSlash true) = []
  · have none : before = [] := by
      rcases before.eq_nil_or_concat' with none | ⟨front, c, rfl⟩
      · exact none
      · have slash := List.dropWhile_eq_nil_iff.1 filled c (by simp)
        rw [closed c (by simp)] at slash
        cases slash
    subst none
    rw [List.nil_append, List.nil_append, List.dropWhile_cons_of_pos rfl]
    refine alongside_self fun u read => ?_
    obtain ⟨-, path, written, -⟩ := readAuthority_whole read
    exact ⟨path, written⟩
  · have dropped : ∀ tail, (before ++ tail).dropWhile (isSlash true) =
        before.dropWhile (isSlash true) ++ tail := by
      intro tail
      rw [List.dropWhile_append, if_neg (by simpa using filled)]
    have part := List.dropWhile_suffix (isSlash true) (l := before)
    rw [dropped, dropped]
    exact readAuthority_slash (fun c mem => uncut c (part.mem mem))
      (known.symm ▸ closed.of_suffix part) stop

/-- What is read behind any other scheme. -/
def readOther (scheme : String) (s : List Char) : Except Fault Url :=
  match s with
  | '/' :: '/' :: rest => readAuthority scheme rest
  | '/' :: _ => .ok (readTail { scheme, host := none, path := none } s)
  | _ => .ok { scheme, host := none, path := none }

theorem readOther_eq {s : List Char} (single : ∀ rest, s ≠ '/' :: rest) (scheme : String) :
    readOther scheme ('/' :: s) = .ok (readTail { scheme, host := none, path := none } ('/' :: s)) := by
  rw [readOther]
  exact single

theorem readOther_whole {s : List Char} {u : Url} (read : readOther scheme s = .ok u) :
    u.scheme = scheme ∧ ∀ path, u.path = some path →
      s.head? = some '/' ∧ ∀ w ∈ path, Whole (isSpecial scheme) w := by
  unfold readOther at read
  split at read
  · obtain ⟨rfl, path, written, whole⟩ := readAuthority_whole read
    refine ⟨rfl, fun path' written' => ⟨rfl, ?_⟩⟩
    rw [Option.some.inj (written'.symm.trans written)]
    exact whole
  · obtain rfl := Except.ok.inj read
    exact ⟨rfl, fun path written => ⟨rfl, readTail_whole written⟩⟩
  · obtain rfl := Except.ok.inj read
    exact ⟨rfl, nofun⟩

theorem readOther_slash (rooted : before.head? = some '/') (uncut : ∀ c ∈ before, endsPath c = false)
    (closed : Open (isSpecial scheme) before) (stop : ∀ c ∈ after.head?, endsPath c = true) :
    Alongside (readOther scheme (before ++ after)) (readOther scheme (before ++ '/' :: after)) := by
  rcases before with - | ⟨c, - | ⟨d, rest⟩⟩
  · cases rooted
  · obtain rfl := Option.some.inj rooted
    cases closed '/' rfl
  · obtain rfl := Option.some.inj rooted
    by_cases double : d = '/'
    · subst double
      have part : rest <:+ '/' :: '/' :: rest := ⟨['/', '/'], rfl⟩
      exact readAuthority_slash (fun c mem => uncut c (part.mem mem)) (closed.of_suffix part) stop
    · have read : ∀ tail, readOther scheme ('/' :: d :: rest ++ tail) = .ok (readTail
          { scheme, host := none, path := none } ('/' :: d :: rest ++ tail)) :=
        fun tail => readOther_eq (fun _ same => double (List.cons.inj same).1) scheme
      rw [read, read]
      exact .beside (readTail_slash { scheme, host := none, path := none } uncut closed stop)

/-- What is read behind a scheme. -/
def readBehind (scheme : String) (s : List Char) : Except Fault Url :=
  if scheme == "file" then readFile s
  else if isSpecial scheme then readAuthority scheme (s.dropWhile (isSlash true))
  else readOther scheme s

theorem readBehind_whole {s : List Char} {u : Url} (read : readBehind scheme s = .ok u) :
    u.scheme = scheme ∧ ∀ path, u.path = some path → ∀ w ∈ path, Whole (isSpecial scheme) w := by
  rw [readBehind] at read
  split at read
  · rename_i file
    obtain rfl := beq_iff_eq.1 file
    exact readFile_whole read
  · split at read
    · obtain ⟨same, path, written, whole⟩ := readAuthority_whole read
      refine ⟨same, fun path' written' => ?_⟩
      rw [Option.some.inj (written'.symm.trans written)]
      exact whole
    · obtain ⟨same, whole⟩ := readOther_whole read
      exact ⟨same, fun path written => (whole path written).2⟩

/-- The slash is no more than that if there is a path in front of it or a host. -/
theorem readBehind_slash {u : Url} {path : List String}
    (read : readBehind scheme (before ++ after) = .ok u ∨
      readBehind scheme (before ++ '/' :: after) = .ok u ∧ u.host ≠ none)
    (written : u.path = some path) (uncut : ∀ c ∈ before, endsPath c = false)
    (closed : Open (isSpecial scheme) before) (stop : ∀ c ∈ after.head?, endsPath c = true) :
    Alongside (readBehind scheme (before ++ after)) (readBehind scheme (before ++ '/' :: after)) := by
  rw [readBehind, readBehind] at read ⊢
  by_cases file : scheme == "file"
  · rw [if_pos file, if_pos file]
    obtain rfl := beq_iff_eq.1 file
    exact readFile_slash uncut closed stop
  rw [if_neg file, if_neg file] at read ⊢
  by_cases known : isSpecial scheme
  · rw [if_pos known, if_pos known]
    rw [known] at closed
    exact readKnown_slash known uncut closed stop
  · rw [if_neg known, if_neg known] at read ⊢
    refine readOther_slash ?_ uncut closed stop
    cases before with
    | nil =>
      rcases read with read | ⟨read, host⟩
      · cases stop '/' ((readOther_whole read).2 path written).1
      · have single : ∀ rest, after ≠ '/' :: rest := by
          rintro rest rfl
          cases stop '/' rfl
        rw [List.nil_append, readOther_eq single] at read
        obtain rfl := Except.ok.inj read
        exact absurd rfl host
    | cons c rest =>
      rcases read with read | ⟨read, -⟩ <;> exact ((readOther_whole read).2 path written).1

theorem parse_eq {s : String} {tail : List Char} (text : clean s.toList = before ++ tail)
    (stop : ∀ c ∈ tail.head?, c = '/' ∨ endsPath c = true) :
    parse s = match splitScheme? before with
      | none => .error .relative
      | some x => readBehind x.1 (x.2 ++ tail) := by
  rw [parse, text, splitScheme?_append stop]
  cases splitScheme? before <;> rfl

/-- The path of a URL that is read consists of segments. -/
theorem parse_whole {s : String} {u : Url} {path : List String} (read : parse s = .ok u)
    (written : u.path = some path) : ∀ w ∈ path, Whole (isSpecial u.scheme) w := by
  rw [parse_eq (List.append_nil _).symm nofun] at read
  split at read
  · cases read
  · obtain ⟨same, whole⟩ := readBehind_whole read
    rw [same]
    exact whole path written

/-- Two texts, the second with a slash more where the path of the first ends. -/
structure OneSlash (special : Bool) (base base' : String) : Prop where
  cut : ∃ before after, clean base.toList = before ++ after ∧
    clean base'.toList = before ++ '/' :: after ∧ Open special before ∧
    (∀ c ∈ before, endsPath c = false) ∧ ∀ c ∈ after.head?, endsPath c = true

/-- A slash more at the end of the path is an empty segment more at most. -/
theorem parse_slash {base base' : String} {u : Url} {path : List String}
    (read : parse base = .ok u ∨ parse base' = .ok u ∧ u.host ≠ none) (written : u.path = some path)
    (slash : OneSlash (isSpecial u.scheme) base base') : Alongside (parse base) (parse base') := by
  obtain ⟨before, after, text, text', closed, uncut, stop⟩ := slash.cut
  have first := parse_eq text fun c mem => .inr (stop c mem)
  have second := parse_eq text' fun c mem => .inl (Option.mem_some.1 mem).symm
  rw [first, second] at read ⊢
  cases found : splitScheme? before with
  | none => exact .fault .relative
  | some x =>
    rw [found] at read
    have part := splitScheme?_suffix found
    have same : u.scheme = x.1 := by
      rcases read with read | ⟨read, -⟩ <;> exact (readBehind_whole read).1
    rw [same] at closed
    exact readBehind_slash read written (fun c mem => uncut c (part.mem mem))
      (closed.of_suffix part) stop

end Acceptance.Url
