import Acceptance.Proofs.Provider
import Acceptance.Proofs.UrlReading

/-!
# Where users are asked for

A realm and the id of a user are segments of the path that is asked for. They lead nowhere else, unless
they are a dot or two, or have a tab or a line break in them.

* `Url.Leads`: a URL below another one;
* `Call.place?`: below which URL a call about users goes, and how far;
* `Identity.asked_iff`: what is asked for.
-/

namespace Acceptance

open Http

/-! ## Below a URL -/

namespace Url

variable {root u : Url} {path : List String} {segments : List String}

/-- A path without the empty segment at its end. -/
def lessEmptyEnd (path : List String) : List String :=
  if path.getLast? = some "" then path.dropLast else path

/-- The second URL is in the same place of the network as the first, and its path goes on with one
segment for each of the texts. -/
structure Leads (root : Url) (segments : List String) (u : Url) : Prop where
  scheme : u.scheme = root.scheme
  host : u.host = root.host
  port : u.port = root.port
  path : ∃ path written, root.path = some path ∧ u.path = some (lessEmptyEnd path ++ written) ∧
    List.Forall₂ StandsFor written segments

/-- The text of the path is read as the segments that it was put together from. -/
structure Readable (u : Url) : Prop where
  uncut : ∀ c ∈ u.pathText.toList, endsPath c = false
  segments : ∃ path, u.path = some path ∧ readPath (isSpecial u.scheme) u.pathText.toList = path

theorem dropEmptyEnd_eq (other : path ≠ ["", ""]) : dropEmptyEnd path = lessEmptyEnd path := by
  rcases path.eq_nil_or_concat' with rfl | ⟨front, w, rfl⟩
  · rfl
  · by_cases empty : w = ""
    · subst empty
      cases front with
      | nil => rfl
      | cons first rest =>
        have longer : first :: rest ≠ [""] := by
          intro same
          exact other (by rw [same]; rfl)
        have last : (first :: rest ++ [""]).getLast? = some "" := List.getLast?_concat ..
        simp only [dropEmptyEnd, lessEmptyEnd, last, List.dropLast_concat]
        simpa using longer
    · have named : front ++ [w] ≠ [""] := by
        intro same
        have last := congrArg List.getLast? same
        simp [empty] at last
      simp [dropEmptyEnd, lessEmptyEnd, empty, named]

/-- One more slash is no segment more. -/
theorem dropEmptyEnd_of_extends {path' : List String} (h : Extends path path') :
    dropEmptyEnd path' = dropEmptyEnd path := by
  cases h with
  | same => rfl
  | more last =>
    have other : path ≠ ["", ""] := by
      rintro rfl
      exact last rfl
    have other' : path ++ [""] ≠ ["", ""] := by
      intro same
      have one : path ++ [""] = [""] ++ [""] := same
      rw [List.append_cancel_right one] at last
      exact last rfl
    rw [dropEmptyEnd_eq other, dropEmptyEnd_eq other', lessEmptyEnd, lessEmptyEnd, if_neg last]
    simp

theorem below?_eq (rooted : root.path = some path) (segments : List String) :
    root.below? segments = some { root with
      path := some (segments.foldl (pushSegment (isSpecial root.scheme)) (dropEmptyEnd path)) } := by
  rw [below?, rooted]
  rfl

theorem eq_of_below? (below : root.below? segments = some u) :
    ∃ path, root.path = some path ∧ { root with
      path := some (segments.foldl (pushSegment (isSpecial root.scheme)) (dropEmptyEnd path)) } = u := by
  cases rooted : root.path with
  | none =>
    rw [below?, rooted] at below
    cases below
  | some path =>
    rw [below?_eq rooted] at below
    exact ⟨path, rfl, Option.some.inj below⟩

theorem below?_of_beside {root' : Url} (h : Beside root root') (segments : List String) :
    root'.below? segments = root.below? segments := by
  obtain ⟨path, path', rooted, extends', rfl⟩ := h.path
  rw [below?_eq rooted, below?_eq rfl, dropEmptyEnd_of_extends extends']

theorem leads_iff (rooted : root.path = some path) (below : root.below? segments = some u) :
    Leads root segments u ↔ path ≠ ["", ""] ∧ ∀ s ∈ segments, Kept s := by
  rw [below?_eq rooted] at below
  obtain rfl := Option.some.inj below
  rw [← push_written_iff (isSpecial root.scheme) (dropEmptyEnd path)]
  constructor
  · intro leads
    obtain ⟨path', written, rooted', pushed, stands⟩ := leads.path
    obtain rfl := Option.some.inj (rooted.symm.trans rooted')
    have pushed := Option.some.inj pushed
    have other : path ≠ ["", ""] := by
      -- both empty segments are dropped, and there is one too few
      rintro rfl
      have short := length_push (isSpecial root.scheme) [] segments
      have long := congrArg List.length pushed
      rw [List.length_append, stands.length_eq] at long
      simp [dropEmptyEnd, lessEmptyEnd] at long short
      omega
    rw [dropEmptyEnd_eq other] at pushed ⊢
    exact ⟨other, written, pushed, stands⟩
  · rintro ⟨other, written, pushed, stands⟩
    have reached := pushed.trans (by rw [dropEmptyEnd_eq other])
    exact ⟨rfl, rfl, rfl, path, written, rooted, congrArg some reached, stands⟩

theorem dropEmptyEnd_part (path : List String) : dropEmptyEnd path <+: path := by
  simp only [dropEmptyEnd]
  split
  · split
    · exact List.nil_prefix
    · exact List.dropLast_prefix path
  · split
    · exact List.nil_prefix
    · exact List.prefix_refl path

theorem endsPath_of_shown {c : Char} (h : pathEscapes c.toNat = false) : endsPath c = false := by
  refine Bool.eq_false_iff.2 fun ends => ?_
  rw [endsPath, Bool.or_eq_true, beq_iff_eq, beq_iff_eq] at ends
  rcases ends with rfl | rfl <;> exact absurd h (by decide)

theorem readable_of_whole (written : u.path = some path) (filled : path ≠ [])
    (whole : ∀ w ∈ path, Whole (isSpecial u.scheme) w) : Readable u := by
  refine ⟨fun c mem => ?_, path, written, readPath_pathText written filled whole⟩
  rw [toList_pathText written] at mem
  obtain ⟨segment, part, char⟩ := List.mem_flatMap.1 mem
  obtain ⟨w, segment, rfl⟩ := List.mem_map.1 part
  rcases List.mem_cons.1 char with rfl | char
  · rfl
  · exact endsPath_of_shown ((whole w segment).shown c char)

/-- Whatever is put after the first segment, the path is read as it was put together. -/
theorem readable_below {base first : String} (read : parse base = .ok root) (kept : Kept first)
    (below : root.below? (first :: segments) = some u) : Readable u := by
  obtain ⟨path, rooted, rfl⟩ := eq_of_below? below
  have whole : ∀ w ∈ dropEmptyEnd path, Whole (isSpecial root.scheme) w :=
    fun w mem => parse_whole read rooted w ((dropEmptyEnd_part path).mem mem)
  have step := pushSegment_pushed (isSpecial root.scheme) (dropEmptyEnd path) first
  exact readable_of_whole rfl (push_ne_nil _ segments (step.ne_nil (.inr kept)))
    (push_whole _ (first :: segments) whole)

end Url

/-! ## Calls about users -/

/-- Where a call about users goes. -/
structure Place where
  base : String
  /-- The realm and, in a call about one user, that user's id. -/
  names : List String
  segments : List String
  query : List (String × String) := []

/-- What is asked for at a URL. -/
def Place.asked (place : Place) (u : Url) : Url :=
  (if place.query.isEmpty then u else u.addQuery place.query).withoutUser

theorem Place.asked_eq (place : Place) (u : Url) :
    ∃ query, place.asked u = { u with username := "", password := none, query } := by
  rw [asked]
  split
  · exact ⟨u.query, rfl⟩
  · exact ⟨_, rfl⟩

def Call.place? : Call → Option Place
  | findUser base _ realm username =>
    some ⟨base, [realm], ["admin", "realms", realm, "users"],
      [("username", username), ("exact", "true")]⟩
  | createUser base _ realm _ _ => some ⟨base, [realm], ["admin", "realms", realm, "users"], []⟩
  | resetPassword base _ realm user _ =>
    some ⟨base, [realm, user], ["admin", "realms", realm, "users", user, "reset-password"], []⟩
  | _ => none

namespace Identity

open Url (Leads Readable Kept OneSlash StandsFor)

variable {κ τ ρ : Type} {call : Call} {place : Place}

theorem kept_fixed : Kept "admin" ∧ Kept "realms" ∧ Kept "users" ∧ Kept "reset-password" := by
  decide

/-- Only the names can lead elsewhere. -/
theorem kept_segments_iff (about : call.place? = some place) :
    (∀ s ∈ place.segments, Kept s) ↔ ∀ s ∈ place.names, Kept s := by
  obtain ⟨admin, realms, users, reset⟩ := kept_fixed
  cases call with
  | findUser | createUser | resetPassword =>
    cases about
    simp [admin, realms, users, reset]
  | _ => cases about

theorem place_segments (about : call.place? = some place) :
    ∃ rest, place.segments = "admin" :: rest := by
  cases call with
  | findUser | createUser | resetPassword =>
    cases about
    exact ⟨_, rfl⟩
  | _ => cases about

/-- A call about users asks for what is below its URL. -/
theorem Asks.target_eq {request : Request} (h : Asks call request) (about : call.place? = some place) :
    ∃ u, Client.endpoint place.base place.segments = .ok u ∧
      request.target = (place.asked u).text := by
  cases h with
  | token => cases about
  | search endpoint | create endpoint | reset endpoint =>
    cases about
    exact ⟨_, endpoint, rfl⟩

theorem endpoint_eq_ok_iff {base : String} {segments : List String} {u : Url} :
    Client.endpoint base segments = .ok u ↔
      ∃ root, Url.parse base = .ok root ∧ root.below? segments = some u := by
  rw [Client.endpoint]
  cases Url.parse base with
  | error fault => simp
  | ok root =>
    cases below : root.below? segments with
    | none => simp [below]
    | some v => simp [below]

/-- A slash at the end makes no difference to a URL that names a host. -/
theorem endpoint_slash {base base' : String} {segments : List String} {u : Url}
    (accepted : Client.endpoint base segments = .ok u ∨
      Client.endpoint base' segments = .ok u ∧ u.host ≠ none)
    (slash : OneSlash (Url.isSpecial u.scheme) base base') :
    Client.endpoint base segments = .ok u ∧ Client.endpoint base' segments = .ok u := by
  simp only [endpoint_eq_ok_iff] at accepted ⊢
  obtain ⟨root, read, below⟩ : ∃ root, (Url.parse base = .ok root ∨
      Url.parse base' = .ok root ∧ u.host ≠ none) ∧ root.below? segments = some u := by
    rcases accepted with ⟨root, read, below⟩ | ⟨⟨root, read, below⟩, host⟩
    · exact ⟨root, .inl read, below⟩
    · exact ⟨root, .inr ⟨read, host⟩, below⟩
  obtain ⟨path, rooted, rfl⟩ := Url.eq_of_below? below
  have alongside := Url.parse_slash read rooted slash
  generalize Url.parse base = r at read alongside
  generalize Url.parse base' = r' at read alongside
  cases alongside with
  | fault => rcases read with read | ⟨read, -⟩ <;> cases read
  | beside h =>
    have same := Url.below?_of_beside h segments
    rcases read with ⟨⟨⟩⟩ | ⟨⟨⟩, -⟩
    · exact ⟨⟨_, rfl, below⟩, _, rfl, same.trans below⟩
    · exact ⟨⟨_, rfl, same.symm.trans below⟩, _, rfl, below⟩

/-- What a call about users asks for is below its URL, with a segment for the realm and one for the
user, exactly if these are kept and the path of the URL is not two empty segments. In any case the
text of the path is read as it was put together, and a slash at the end of the URL makes no
difference. -/
theorem asked_iff [Transport κ] [Transport τ] [Launcher ρ] (about : call.place? = some place)
    {u : Url} (accepted : Client.endpoint place.base place.segments = .ok u)
    (c : Collaborators κ (Wire τ) ρ) :
    ∃ root path part, Url.parse place.base = .ok root ∧ root.path = some path ∧
      (Party.react c call).2.identity.log = c.identity.log ++ part ∧ part.length ≤ 1 ∧
      (∀ e ∈ part, e.request.target = (place.asked u).text) ∧ Readable (place.asked u) ∧
      (Leads root place.segments (place.asked u) ↔
        path ≠ ["", ""] ∧ ∀ s ∈ place.names, Kept s) ∧
      ∀ base', OneSlash (Url.isSpecial u.scheme) place.base base' ∨
          u.host ≠ none ∧ OneSlash (Url.isSpecial u.scheme) base' place.base →
        Client.endpoint base' place.segments = .ok u := by
  obtain ⟨root, read, below⟩ := endpoint_eq_ok_iff.1 accepted
  obtain ⟨path, rooted, -⟩ := Url.eq_of_below? below
  obtain ⟨part, log, exchanged⟩ := (c.react_reacts call).exchanged
  refine ⟨root, path, part, read, rooted, log, exchanged.few, fun e mem => ?_, ?_, ?_,
    fun base' slash => ?_⟩
  · obtain ⟨v, accepted', target⟩ := (exchanged.asks e mem).target_eq about
    obtain rfl := Except.ok.inj (accepted.symm.trans accepted')
    exact target
  · obtain ⟨rest, segments⟩ := place_segments about
    rw [segments] at below
    have readable := Url.readable_below read kept_fixed.1 below
    obtain ⟨query, asked⟩ := place.asked_eq u
    rw [asked]
    exact ⟨readable.uncut, readable.segments⟩
  · rw [← kept_segments_iff about, ← Url.leads_iff rooted below]
    obtain ⟨query, asked⟩ := place.asked_eq u
    rw [asked]
    exact ⟨fun leads => ⟨leads.scheme, leads.host, leads.port, leads.path⟩,
      fun leads => ⟨leads.scheme, leads.host, leads.port, leads.path⟩⟩
  · rcases slash with slash | ⟨host, slash⟩
    · exact (endpoint_slash (.inl accepted) slash).2
    · exact (endpoint_slash (.inr ⟨accepted, host⟩) slash).1

/-- What a path gives a meaning of its own is kept in names, and the slash at the end is not. -/
theorem asked_iff_reserved :
    let call := Call.resetPassword "https://id.example/auth" "tok" "a/b" "%2e?#." "s3cret"
    let c : Collaborators Listing (Wire Listing) Idle := ⟨⟨⟨⟩, []⟩, ⟨⟨⟩, []⟩, ⟨⟩, "pytest", 0⟩
    ∃ place root u e, call.place? = some place ∧ Url.parse place.base = .ok root ∧
      (Party.react c call).2.identity.log = [e] ∧ e.request.target = (place.asked u).text ∧
      Leads root place.segments (place.asked u) ∧
      Client.endpoint "https://id.example/auth/" place.segments = .ok u := by
  intro call c
  let root : Url := { scheme := "https", host := some (.name "id.example"), path := some ["auth"] }
  let path := ["auth", "admin", "realms", "a%2Fb", "users", "%252e%3F%23.", "reset-password"]
  let u : Url := { root with path := some path }
  have read : Url.parse "https://id.example/auth" = .ok root := by decide +kernel
  have accepted : Client.endpoint "https://id.example/auth"
      ["admin", "realms", "a/b", "users", "%2e?#.", "reset-password"] = .ok u :=
    endpoint_eq_ok_iff.2 ⟨root, read, by decide +kernel⟩
  have sent : (Party.react c call).2.identity.log.length = 1 := by decide +kernel
  have about : call.place? = some ⟨"https://id.example/auth", ["a/b", "%2e?#."],
    ["admin", "realms", "a/b", "users", "%2e?#.", "reset-password"], []⟩ := rfl
  obtain ⟨root', path', part, read', rooted, log, -, targets, -, leads, slash⟩ :=
    asked_iff about accepted c
  obtain rfl := Except.ok.inj (read.symm.trans read')
  obtain rfl := Option.some.inj rooted
  rw [log, List.length_append] at sent
  obtain ⟨e, rfl⟩ := List.length_eq_one_iff.1 ((Nat.zero_add _).symm.trans sent)
  have kept : ∀ s ∈ ["a/b", "%2e?#."], Kept s :=
    List.forall_mem_cons.2 ⟨by decide, List.forall_mem_singleton.2 (by decide)⟩
  have unended : "https://id.example/auth".toList.all (!Url.endsPath ·) := by decide +kernel
  have oneSlash : OneSlash (Url.isSpecial "https") "https://id.example/auth"
      "https://id.example/auth/" :=
    ⟨"https://id.example/auth".toList, [], by decide +kernel, by decide +kernel,
      by decide, by simpa only [List.all_eq_true, Bool.not_eq_true'] using unended, nofun⟩
  exact ⟨_, root, u, e, about, read, log, targets e List.mem_cons_self,
    leads.2 ⟨by decide, kept⟩, slash _ (.inl oneSlash)⟩

/-- A tab in a realm is left out, and another realm is asked for. -/
theorem not_asked_tab :
    let call := Call.createUser "https://auth.example.com" "tok" "a\tb" "vip-tester" "s3cret"
    ∃ place root u, call.place? = some place ∧ Url.parse place.base = .ok root ∧
      Client.endpoint place.base place.segments = .ok u ∧
      (place.asked u).text = "https://auth.example.com/admin/realms/ab/users" ∧
      ¬ Leads root place.segments (place.asked u) := by
  let root : Url := { scheme := "https", host := some (.name "auth.example.com"), path := some [""] }
  let u : Url := { root with path := some ["admin", "realms", "ab", "users"] }
  have read : Url.parse "https://auth.example.com" = .ok root := by decide +kernel
  have below : root.below? ["admin", "realms", "a\tb", "users"] = some u := by decide +kernel
  refine ⟨_, root, u, rfl, read, endpoint_eq_ok_iff.2 ⟨root, read, below⟩, by decide +kernel, ?_⟩
  intro leads
  obtain ⟨path, written, rooted, same, stands⟩ := leads.path
  obtain rfl := Option.some.inj rooted
  obtain rfl : ["admin", "realms", "ab", "users"] = written := Option.some.inj same
  simp only [List.forall₂_cons] at stands
  obtain ⟨-, -, tab, -⟩ := stands
  exact absurd tab (by unfold StandsFor; decide)

end Identity

end Acceptance
