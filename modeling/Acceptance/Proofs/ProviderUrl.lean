import Acceptance.Proofs.Trimming
import Acceptance.Site

/-!
# Where users are managed

The URL of the identity provider may be given for the run, be declared by the site, or come of the
domain.

* `Stripped`, `Preferred`: the first of several texts of which something is left without the slashes
  at its end;
* `Site.Resolves`: what the URL is to be;
* `Site.resolves_iff`: where it is so, and what it is elsewhere.
-/

namespace Acceptance

/-- `t` is what is left of `s` without the slashes at its end. -/
structure Stripped (s t : String) : Prop where
  slashes : ∃ n, s.toList = t.toList ++ List.replicate n '/'
  last : t.toList.getLast? ≠ some '/'

theorem stripped_iff {s t : String} : Stripped s t ↔ withoutEndSlashes s = t := by
  have made : withoutEndSlashes s = t ↔ Text.dropEndWhile (· == '/') s.toList = t.toList := by
    rw [withoutEndSlashes, ← String.toList_inj, String.toList_ofList]
  rw [made, Text.dropEndWhile_eq_iff]
  constructor
  · rintro ⟨⟨n, split⟩, last⟩
    refine ⟨_, split, fun c mem => ?_, fun c ends slash => last ?_⟩
    · rw [List.eq_of_mem_replicate mem]
      rfl
    · rw [ends, eq_of_beq slash]
  · rintro ⟨after, split, slashes, last⟩
    refine ⟨⟨after.length, ?_⟩, fun ends => last _ ends rfl⟩
    rw [split, ← List.eq_replicate_of_mem fun c mem => eq_of_beq (slashes c mem)]

theorem stripped_empty {t : String} : Stripped "" t ↔ t = "" := by
  rw [stripped_iff, eq_comm]
  rfl

/-- `url` is the first of the texts of which something is left without the slashes at its end, and
it is what is left of it. -/
inductive Preferred : List String → String → Prop where
  | here {s url : String} {rest : List String} (left : Stripped s url) (something : url ≠ "") :
      Preferred (s :: rest) url
  | later {s url : String} {rest : List String} (nothing : Stripped s "")
      (next : Preferred rest url) : Preferred (s :: rest) url

theorem preferred_iff {sources : List String} {url : String} :
    Preferred sources url ↔ (sources.map withoutEndSlashes).find? (· ≠ "") = some url := by
  induction sources with
  | nil => exact ⟨nofun, nofun⟩
  | cons s rest ih =>
    rw [List.map_cons]
    by_cases nothing : withoutEndSlashes s = ""
    · rw [List.find?_cons_of_neg (by simpa using nothing), ← ih]
      refine ⟨fun h => ?_, .later (stripped_iff.2 nothing)⟩
      cases h with
      | here left something => exact absurd ((stripped_iff.1 left).symm.trans nothing) something
      | later _ next => exact next
    · rw [List.find?_cons_of_pos (by simpa using nothing), Option.some.injEq]
      refine ⟨fun h => ?_, fun same => .here (stripped_iff.2 same) (same ▸ nothing)⟩
      cases h with
      | here left => exact stripped_iff.1 left
      | later none => exact absurd (stripped_iff.1 none) nothing

theorem Preferred.unique {sources : List String} {url url' : String} (h : Preferred sources url)
    (h' : Preferred sources url') : url = url' :=
  Option.some.inj ((preferred_iff.1 h).symm.trans (preferred_iff.1 h'))

theorem Preferred.ne_empty {sources : List String} {url : String} (h : Preferred sources url) :
    url ≠ "" := by
  induction h with
  | here _ something => exact something
  | later _ _ ih => exact ih

/-- An empty text has no part in it. -/
theorem preferred_empty {rest : List String} {url : String} :
    Preferred ("" :: rest) url ↔ Preferred rest url := by
  refine ⟨fun h => ?_, .later (stripped_empty.2 rfl)⟩
  cases h with
  | here left something => exact absurd (stripped_empty.1 left) something
  | later _ next => exact next

namespace Site

variable (site : Site) (given : Option String)

/-- The URLs that are named, the one for the run before that of the site. -/
def namedUrls : List String := given.toList ++ (site.auth.bind (·.url)).toList

/-- What is to come of asking for the URL. -/
inductive Resolves : Except Error String → Prop where
  | named {url : String} (preferred : Preferred (site.namedUrls given) url) : Resolves (.ok url)
  | derived (unnamed : ∀ url, ¬ Preferred (site.namedUrls given) url) (domain : site.domain ≠ "") :
      Resolves (.ok ("https://auth." ++ site.domain))
  | unresolved (unnamed : ∀ url, ¬ Preferred (site.namedUrls given) url)
      (domain : site.domain = "") : Resolves (.error (.config
        s!"site {site.name} has no domain; pass an identity provider URL override"))

/-- What the domain has to say. -/
def derivedUrl : Except Error String :=
  if site.domain = "" then
    .error (.config s!"site {site.name} has no domain; pass an identity provider URL override")
  else .ok ("https://auth." ++ site.domain)

/-- What comes instead where the first URL that is named leaves nothing: it is taken although it is
but slashes, or, being empty, it hides the other. -/
inductive Spoilt : Except Error String → Prop where
  | slashes {first : String} {rest : List String} (named : site.namedUrls given = first :: rest)
      (nothing : Stripped first "") (something : first ≠ "") : Spoilt (.ok "")
  | hidden {rest : List String} {url : String} (named : site.namedUrls given = "" :: rest)
      (preferred : Preferred rest url) (other : site.derivedUrl ≠ .ok url) : Spoilt site.derivedUrl

variable {site given}

/-- What the domain has to say counts where no URL is named, and beside a URL that is the same. -/
theorem resolves_derivedUrl : site.Resolves given site.derivedUrl ↔
    ∀ url, Preferred (site.namedUrls given) url → site.derivedUrl = .ok url := by
  constructor
  · intro h url preferred
    generalize site.derivedUrl = r at h
    cases h with
    | named other => rw [other.unique preferred]
    | derived unnamed | unresolved unnamed => exact absurd preferred (unnamed url)
  · intro h
    by_cases unnamed : ∃ url, Preferred (site.namedUrls given) url
    · obtain ⟨url, preferred⟩ := unnamed
      rw [h url preferred]
      exact .named preferred
    · rw [not_exists] at unnamed
      unfold derivedUrl
      split
      · exact .unresolved unnamed ‹_›
      · exact .derived unnamed ‹_›

theorem auth_ne_empty (domain : String) : "https://auth." ++ domain ≠ "" := by
  intro empty
  have chars := congrArg String.toList empty
  simp at chars

/-- Nobody is sent to an empty URL. -/
theorem Resolves.ne_empty {url : String} (h : site.Resolves given (.ok url)) : url ≠ "" := by
  generalize same : Except.ok url = r at h
  cases h with
  | named preferred =>
    cases same
    exact preferred.ne_empty
  | derived =>
    cases same
    exact auth_ne_empty _
  | unresolved => cases same

/-- Only one thing is to come of it. -/
theorem Resolves.unique {r r' : Except Error String} (h : site.Resolves given r)
    (h' : site.Resolves given r') : r = r' := by
  cases h with
  | named preferred =>
    cases h' with
    | named other => rw [preferred.unique other]
    | derived unnamed | unresolved unnamed => exact absurd preferred (unnamed _)
  | derived unnamed domain =>
    cases h' with
    | named other => exact absurd other (unnamed _)
    | derived => rfl
    | unresolved _ none => exact absurd none domain
  | unresolved unnamed domain =>
    cases h' with
    | named other => exact absurd other (unnamed _)
    | derived _ some => exact absurd domain some
    | unresolved => rfl

variable (site given)

/-- The first URL that is named decides alone. -/
theorem identityProviderUrl_eq : site.identityProviderUrl given =
    match site.namedUrls given with
    | [] => site.derivedUrl
    | first :: _ => if first = "" then site.derivedUrl else .ok (withoutEndSlashes first) := by
  have first : (given <|> site.auth.bind (·.url)) = (site.namedUrls given).head? := by
    unfold namedUrls
    cases given <;> cases site.auth.bind (·.url) <;> rfl
  unfold identityProviderUrl derivedUrl
  rw [first]
  cases site.namedUrls given with
  | nil => simp
  | cons url rest => by_cases empty : url = "" <;> simp [nonempty?, empty]

variable {site given}

theorem Spoilt.identityProviderUrl_eq {r : Except Error String} (h : site.Spoilt given r) :
    site.identityProviderUrl given = r := by
  rw [Site.identityProviderUrl_eq]
  cases h with
  | slashes named nothing something =>
    rw [named]
    dsimp only
    rw [if_neg something, stripped_iff.1 nothing]
  | hidden named =>
    rw [named]
    rfl

theorem Spoilt.not_resolves {r : Except Error String} (h : site.Spoilt given r) :
    ¬ site.Resolves given r := by
  cases h with
  | slashes => exact fun resolves => resolves.ne_empty rfl
  | hidden named preferred other =>
    intro resolves
    rw [resolves_derivedUrl, named] at resolves
    exact other (resolves _ (preferred_empty.2 preferred))

/-- What the domain has to say is never empty. -/
theorem derivedUrl_ne_empty : site.derivedUrl ≠ .ok "" := by
  unfold derivedUrl
  split
  · nofun
  · exact fun same => auth_ne_empty _ (Except.ok.inj same)

variable (site given)

theorem resolves_of_not_spoilt (unspoilt : ∀ r, ¬ site.Spoilt given r) :
    site.Resolves given (site.identityProviderUrl given) := by
  rw [identityProviderUrl_eq]
  cases named : site.namedUrls given with
  | nil =>
    refine resolves_derivedUrl.2 fun url preferred => ?_
    rw [named] at preferred
    cases preferred
  | cons first rest =>
    dsimp only
    by_cases empty : first = ""
    · subst empty
      rw [if_pos rfl, resolves_derivedUrl, named]
      intro url preferred
      exact Decidable.byContradiction fun other =>
        unspoilt _ (.hidden named (preferred_empty.1 preferred) other)
    · rw [if_neg empty]
      have left : Stripped first (withoutEndSlashes first) := stripped_iff.2 rfl
      by_cases nothing : withoutEndSlashes first = ""
      · rw [nothing] at left
        exact absurd (.slashes named left empty) (unspoilt _)
      · refine .named ?_
        rw [named]
        exact .here left nothing

/-- Asking for the URL gives what is to come of it unless the first URL that is named leaves
nothing, and then spoils the answer. The URL is empty if and only if the first is but slashes. -/
theorem resolves_iff :
    (site.Resolves given (site.identityProviderUrl given) ↔ ∀ r, ¬ site.Spoilt given r) ∧
    (∀ r, site.Spoilt given r → site.identityProviderUrl given = r) ∧
    (site.identityProviderUrl given = .ok "" ↔
      ∃ first rest, site.namedUrls given = first :: rest ∧ Stripped first "" ∧ first ≠ "") := by
  refine ⟨⟨fun resolves r spoilt => ?_, resolves_of_not_spoilt site given⟩,
    fun r spoilt => spoilt.identityProviderUrl_eq, fun empty => ?_, ?_⟩
  · rw [spoilt.identityProviderUrl_eq] at resolves
    exact spoilt.not_resolves resolves
  · by_cases unspoilt : ∀ r, ¬ site.Spoilt given r
    · have resolves := resolves_of_not_spoilt site given unspoilt
      rw [empty] at resolves
      exact absurd rfl resolves.ne_empty
    · obtain ⟨r, spoilt⟩ := not_forall_not.1 unspoilt
      have same := spoilt.identityProviderUrl_eq.symm.trans empty
      cases spoilt with
      | slashes named nothing something => exact ⟨_, _, named, nothing, something⟩
      | hidden => exact absurd same derivedUrl_ne_empty
  · rintro ⟨first, rest, named, nothing, something⟩
    exact (Spoilt.slashes named nothing something).identityProviderUrl_eq

/-- A site that declares where its users are managed. -/
def declaring : Site where
  name := "acme"
  domain := "example.com"
  auth := some { enabled := true, url := some "https://login.example.com" }

/-- With an empty URL for the run, and with one of slashes, the declared one is passed over. -/
theorem not_resolves_declaring :
    ¬ declaring.Resolves (some "") (declaring.identityProviderUrl (some "")) ∧
      ¬ declaring.Resolves (some "///") (declaring.identityProviderUrl (some "///")) := by
  constructor
  · have spoilt : declaring.Spoilt (some "") declaring.derivedUrl :=
      .hidden rfl (preferred_iff.2 rfl) (by decide)
    rw [spoilt.identityProviderUrl_eq]
    exact spoilt.not_resolves
  · have spoilt : declaring.Spoilt (some "///") (.ok "") :=
      .slashes rfl (stripped_iff.2 rfl) (by decide)
    rw [spoilt.identityProviderUrl_eq]
    exact spoilt.not_resolves

end Site

end Acceptance
