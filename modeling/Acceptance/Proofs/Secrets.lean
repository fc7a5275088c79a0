import Acceptance.Cluster.Client
import Acceptance.Proofs.Base64
import Acceptance.Proofs.JsonText
import Acceptance.Proofs.Schema
import Acceptance.Proofs.Utf8
import Acceptance.Proofs.Wire

/-!
# Secrets in the cluster

A secret goes to the cluster with its entries in base 64, and comes back with them; there may be
others that go over them as they are.

* `Cluster.Holding`: what a secret holds, and how a response says so;
* `Cluster.Holding.Reads`: what is to come of reading it;
* `Cluster.secrets_kept`: a published secret is read as it was, and each other as it is to be.
-/

namespace Acceptance.Cluster

open Http
open Text.Utf8 (Bytes)

/-! ## What a secret holds -/

/-- What a secret holds: bytes, and texts that go over them. -/
structure Holding where
  data : Dict Bytes
  plain : Dict String

/-- Bytes in base 64. -/
def Encoded (bytes : Bytes) (value : Json) : Prop :=
  value = .string (String.ofList (Base64.encode bytes))

/-- How bytes may be written: in base 64, or as `null` if there are none. -/
inductive WritesBytes : Bytes → Json → Prop where
  | encoded {bytes : Bytes} {value : Json} (encoded : Encoded bytes value) : WritesBytes bytes value
  | null : WritesBytes [] .null

def WritesText (s : String) (value : Json) : Prop := value = .string s

/-- How a member of a resource says what a dictionary holds. A dictionary that holds nothing may be
left out. -/
inductive Writes {α : Type} (each : α → Json → Prop) (d : Dict α) : Option Json → Prop where
  | absent (nothing : d.entries = []) : Writes each d none
  | null (nothing : d.entries = []) : Writes each d (some .null)
  | object {members : List (String × Json)}
      (same : List.Forall₂ (fun e m => e.1 = m.1 ∧ each e.2 m.2) d.entries members) :
      Writes each d (some (.object members))

namespace Holding

/-- A response that is a secret, and what it holds. -/
structure Shown (h : Holding) (value : Json) : Prop where
  secret : (secretKind.read? value).isSome
  data : Writes WritesBytes h.data (value.member? "data")
  plain : Writes WritesText h.plain (value.member? "stringData")

/-- The bytes are text. -/
def IsText (bytes : Bytes) : Prop := ∃ s, bytes = Text.Utf8.encode s

/-- All its bytes are text. -/
def Valid (h : Holding) : Prop := ∀ key bytes, h.data.get? key = some bytes → IsText bytes

/-- What is to come of reading it: all its texts, or the name of the first that is none. -/
inductive Reads (h : Holding) (ns name : String) : Except Error (Option SecretData) → Prop where
  | texts {data : SecretData} (valid : h.Valid)
      (each : ∀ key, match h.plain.get? key with
        | some s => data.get? key = some s
        | none => (data.get? key).map Text.Utf8.encode = h.data.get? key) :
      Reads h ns name (.ok (some data))
  | notText {key : String} {bytes : Bytes} (entry : h.data.get? key = some bytes)
      (offends : ¬ IsText bytes)
      (first : ∀ key' bytes', h.data.get? key' = some bytes' → ¬ IsText bytes' →
        Text.Utf8.encode key ≤ Text.Utf8.encode key') :
      Reads h ns name
        (.error (.controlPlane "get secret" s!"{ns}/{name} key {key} is not valid UTF-8"))

variable {h : Holding} {value read : Json}

end Holding

/-- A dictionary is read entry by entry. -/
theorem Writes.entriesOf {α : Type} {each : α → Json → Prop} {d : Dict α} {value read : Json}
    {name : String} (written : Writes each d (value.member? name)) {schema : Schema}
    (own : (Schema.dict schema).own? (value.member? name) = some (read.member? name)) :
    List.Forall₂ (fun e v => e.1 = v.1 ∧ ∃ w, each e.2 w ∧ schema.read? w = some v.2) d.entries
      (entriesOf name read) := by
  generalize value.member? name = member at written own
  cases written with
  | absent nothing =>
    have absent : read.member? name = none := (Option.some.inj own).symm
    simp [Cluster.entriesOf, Json.present?, absent, nothing]
  | null nothing =>
    have absent : read.member? name = none := (Option.some.inj own).symm
    simp [Cluster.entriesOf, Json.present?, absent, nothing]
  | @object members same =>
    simp only [Schema.own?, Schema.read?, Json.members?, Option.bind_eq_bind, Option.bind_some,
      Option.map_eq_some_iff, Option.bind_eq_some_iff, Option.some.injEq] at own
    obtain ⟨_, ⟨values, readValues, rfl⟩, present⟩ := own
    have entries : Cluster.entriesOf name read = values := by
      simp [Cluster.entriesOf, Json.present?, ← present, Json.members?]
    rw [entries]
    have each := Schema.readValues?_forall readValues
    clear readValues present entries
    revert same
    generalize d.entries = entries
    intro same
    induction same generalizing values with
    | nil =>
      cases each
      exact .nil
    | cons first _ ih =>
      cases each with
      | cons second others => exact .cons ⟨first.1.trans second.1, _, first.2, second.2⟩ (ih _ others)

/-- The texts of entries, or the name of the first that is none. -/
theorem decodedEntries_cases {entries : List (String × Bytes)} {values : List (String × Json)}
    (same : List.Forall₂ (fun e v => e.1 = v.1 ∧ decodedText? v.2 = Text.Utf8.decode? e.2) entries
      values) :
    (∃ texts, List.Forall₂ (fun e t => e.1 = t.1 ∧ e.2 = Text.Utf8.encode t.2) entries texts ∧
      decodedEntries values = .ok texts) ∨
    ∃ before e after, entries = before ++ e :: after ∧ (∀ b ∈ before, Holding.IsText b.2) ∧
      ¬ Holding.IsText e.2 ∧ decodedEntries values = .error e.1 := by
  induction same with
  | nil => exact .inl ⟨[], .nil, rfl⟩
  | @cons e v entries values first _ ih =>
    obtain ⟨key, value⟩ := v
    obtain ⟨name, decoded⟩ := first
    cases text : Text.Utf8.decode? e.2 with
    | none =>
      refine .inr ⟨[], e, entries, rfl, nofun, ?_, ?_⟩
      · rintro ⟨s, bytes⟩
        rw [Text.Utf8.decode?_eq_some_iff.2 bytes] at text
        cases text
      · simp only [decodedEntries, decoded, text, name]
    | some s =>
      have bytes := Text.Utf8.decode?_eq_some_iff.1 text
      rcases ih with ⟨texts, each, read⟩ | ⟨before, f, after, rfl, valid, offends, read⟩
      · refine .inl ⟨(e.1, s) :: texts, .cons ⟨rfl, bytes⟩ each, ?_⟩
        simp only [decodedEntries, decoded, text, name, read]
        rfl
      · refine .inr ⟨e :: before, f, after, rfl, List.forall_mem_cons.2 ⟨⟨s, bytes⟩, valid⟩, offends, ?_⟩
        simp only [decodedEntries, decoded, text, read]
        rfl

theorem decodedText?_of_writes {bytes : Bytes} {v : Json}
    (h : ∃ w, WritesBytes bytes w ∧ Schema.bytes.read? w = some v) :
    decodedText? v = Text.Utf8.decode? bytes := by
  obtain ⟨w, written, read⟩ := h
  cases written with
  | encoded same =>
    rw [same] at read
    simp only [Schema.read?, Schema.readBytes?, String.toList_ofList, Base64.decode_encode,
      Option.map_some, Option.some.injEq] at read
    simp [decodedText?, ← read, Json.text?, Base64.decode_encode]
  | null =>
    cases read
    rfl

theorem names_eq {α β : Type} {R : String × α → String × β → Prop} {entries : List (String × α)}
    {others : List (String × β)} (same : List.Forall₂ R entries others)
    (name : ∀ {e o}, R e o → e.1 = o.1) : entries.map (·.1) = others.map (·.1) := by
  induction same with
  | nil => rfl
  | cons first _ ih => rw [List.map_cons, List.map_cons, name first, ih]

theorem entryAt?_texts {entries : List (String × Bytes)} {texts : List (String × String)}
    (same : List.Forall₂ (fun e t => e.1 = t.1 ∧ e.2 = Text.Utf8.encode t.2) entries texts)
    (key : String) : (entryAt? key texts).map Text.Utf8.encode = entryAt? key entries := by
  induction same with
  | nil => rfl
  | cons first _ ih =>
    rw [entryAt?_cons, entryAt?_cons, first.1, first.2, ← ih]
    split <;> rfl

theorem plainEntries_eq {entries : List (String × String)} {values : List (String × Json)}
    (same : List.Forall₂ (fun e v => v = (e.1, Json.string e.2)) entries values) :
    values.filterMap (fun e => e.2.text?.map (e.1, ·)) = entries := by
  induction same with
  | nil => rfl
  | cons first _ ih =>
    subst first
    exact congrArg _ ih

namespace Holding

variable {h : Holding} {value read : Json}

/-- What a secret holds is read as texts, with the plain ones over the others, or it is refused for
the first of its bytes that are none. -/
theorem Shown.secretData_cases (shown : h.Shown value) (kind : secretKind.read? value = some read) :
    (∃ texts : SecretData, List.Forall₂ (fun e t => e.1 = t.1 ∧ e.2 = Text.Utf8.encode t.2)
        h.data.entries texts.entries ∧ secretData read = .ok (texts.overlay h.plain)) ∨
    ∃ before e after, h.data.entries = before ++ e :: after ∧ (∀ b ∈ before, IsText b.2) ∧
      ¬ IsText e.2 ∧ secretData read = .error e.1 := by
  have record : (Schema.record secretKind.fields).read? value = some read := by
    rw [Kind.read?] at kind
    split at kind
    · cases kind
    · exact kind
  have own := Schema.read?_record record (by decide)
  have data := shown.data.entriesOf (own ("data", .dict .bytes) (by simp [secretKind]))
  have plain := shown.plain.entriesOf (own ("stringData", .dict .text) (by simp [secretKind]))
  have laid : (entriesOf "stringData" read).filterMap (fun e => e.2.text?.map (e.1, ·)) =
      h.plain.entries := by
    refine plainEntries_eq (plain.imp fun e v same => ?_)
    obtain ⟨name, w, rfl, read⟩ := same
    exact Prod.ext name.symm (Option.some.inj read).symm
  have bytes := data.imp fun e v same => And.intro same.1 (decodedText?_of_writes same.2)
  rcases decodedEntries_cases bytes with
    ⟨texts, each, decoded⟩ | ⟨before, e, after, entries, valid, offends, decoded⟩
  · have names := names_eq each And.left
    have ascending : Ascending texts := by
      have order := List.pairwise_map.2 h.data.ascending
      rw [names] at order
      exact List.pairwise_map.1 order
    refine .inl ⟨⟨texts, ascending⟩, each, ?_⟩
    rw [secretData, decoded, laid]
    exact congrArg Except.ok (Dict.ofList_append ⟨texts, ascending⟩ h.plain)
  · refine .inr ⟨before, e, after, entries, valid, offends, ?_⟩
    rw [secretData, decoded]
    rfl

theorem get?_texts {texts : SecretData}
    (each : List.Forall₂ (fun e t => e.1 = t.1 ∧ e.2 = Text.Utf8.encode t.2) h.data.entries
      texts.entries) (key : String) : (texts.get? key).map Text.Utf8.encode = h.data.get? key :=
  entryAt?_texts each key

/-- What the reading comes to. -/
theorem Shown.reads (shown : h.Shown value) (kind : secretKind.read? value = some read)
    (ns name : String) : h.Reads ns name ((Client.dataOfSecret ns name read).map some) := by
  rcases shown.secretData_cases kind with
    ⟨texts, each, data⟩ | ⟨before, e, after, entries, valid, offends, data⟩
  · rw [Client.dataOfSecret, data]
    refine .texts (fun key bytes entry => ?_) fun key => ?_
    · rw [← get?_texts each] at entry
      obtain ⟨s, _, rfl⟩ := Option.map_eq_some_iff.1 entry
      exact ⟨s, rfl⟩
    · rw [Dict.get?_overlay, ← get?_texts each]
      cases h.plain.get? key <;> rfl
  · rw [Client.dataOfSecret, data]
    have mem : e ∈ h.data.entries := by simp [entries]
    refine .notText (Dict.get?_of_mem mem) offends fun key' bytes' entry' offends' => ?_
    have ascending := h.data.ascending
    have mem' := Dict.mem_of_get? entry'
    rw [entries] at ascending mem'
    rcases List.mem_append.1 mem' with early | rest
    · exact absurd (valid _ early) offends'
    · rcases List.mem_cons.1 rest with rfl | late
      · exact List.le_refl _
      · have later := (List.pairwise_cons.1 (List.pairwise_append.1 ascending).2.1).1 _ late
        exact List.le_of_lt (Text.Utf8.encode_lt_iff.2 later)

/-- The texts are read exactly if they are all there. -/
theorem Reads.isSome_iff {ns name : String} {result : Except Error (Option SecretData)}
    (reads : h.Reads ns name result) : (∃ data, result = .ok (some data)) ↔ h.Valid := by
  cases reads with
  | texts valid each => exact ⟨fun _ => valid, fun _ => ⟨_, rfl⟩⟩
  | notText entry offends first =>
    exact ⟨fun some => absurd some.choose_spec nofun, fun valid => absurd (valid _ _ entry) offends⟩

end Holding

/-! ## What is published -/

namespace Client

variable {τ α : Type} [Transport τ]

/-- Sending comes to one request and what the response is good for, if there is a target at all. -/
theorem send_eq {method : Method} {target : Except RequestFault String} {body : Option Body}
    (c : Connection τ) : send method target body c =
      match target with
      | .error fault => (.error (.request fault), c)
      | .ok target =>
        let (answer, transport) := Transport.send c.transport ⟨method, target, none, body⟩
        ((answer.mapError Fault.transport).bind accepted, { c with transport }) := by
  cases target with
  | error fault => rfl
  | ok target =>
    cases sent : Transport.send c.transport ⟨method, target, none, body⟩ with
    | mk answer t =>
      simp only [send, bind, Exchange.bind, Exchange.ofExcept, Exchange.mapError, Exchange.send,
        Transport.send, Except.mapError, sent]
      cases answer <;> rfl

end Client

/-- The cluster answers the question for a secret with a text. -/
structure Connection.Answers {τ : Type} [Transport τ] (c : Connection τ) (ns name text : String) :
    Prop where
  answer : ∃ target response, named secrets ns name "" = .ok target ∧
    (Transport.send c.transport ⟨.get, target, none, none⟩).1 = .ok response ∧
    isFailure response.status = false ∧ response.body = Text.Utf8.encode text

namespace Client

variable {τ : Type} [Transport τ]

theorem bodyText_encode (text : String) : bodyText (Text.Utf8.encode text) = .ok text := by
  rw [bodyText, Text.Utf8.fault?_encode, Text.Utf8.decode?_eq_some_iff.2 rfl]

theorem getSecret_answered {c : Connection τ} {ns name text : String} {value read : Json}
    (answers : c.Answers ns name text) (parsed : Json.parse? text = some value)
    (kind : secretKind.read? value = some read) :
    (getSecret ns name c).1 = (dataOfSecret ns name read).map some := by
  obtain ⟨target, ⟨status, body⟩, named, answer, success, rfl⟩ := answers.answer
  have sent : ∃ c', send .get (Cluster.named secrets ns name "") none c =
      (.ok ⟨status, Text.Utf8.encode text⟩, c') := by
    rw [send_eq, named]
    dsimp only
    rw [answer]
    refine ⟨_, Prod.ext ?_ rfl⟩
    simp only [Except.mapError, Except.bind, accepted, success]
    rfl
  obtain ⟨c', sent⟩ := sent
  have found : getSecretValue "get secret" ns name c = (.ok (some read), c') := by
    have got : get secrets secretKind.read? ns name c = (.ok read, c') := by
      rw [get, Exchange.bind_ok sent]
      simp only [Exchange.ofExcept, readAs, readValue, bodyText_encode, bind, Except.bind, parsed, kind]
    rw [getSecretValue, got]
    rfl
  rw [getSecret, Exchange.bind_ok found]
  cases data : dataOfSecret ns name read <;>
    simp only [bind, Exchange.bind, Exchange.ofExcept, data] <;> rfl

end Client

section

variable (ns name : String) (data : SecretData)

theorem secret_eq : secret ns name data = .object [
    ("apiVersion", .string "v1"), ("data", .ofDict encodedText data), ("kind", .string "Secret"),
    ("metadata", .object [("name", .string name), ("namespace", .string ns)]),
    ("type", .string "Opaque")] := by
  simp only [secret, identity, Json.ofMembers, List.foldl_cons, List.foldl_nil, insertEntry,
    String.reduceLT, reduceIte]

theorem secret_ofTexts : Json.OfTexts Json.maxDepth (secret ns name data) := by
  have entries : ∀ {depth}, Json.OfTexts (depth + 1) (.ofDict encodedText data) := by
    refine .object (Dict.ascending _) fun m mem => ?_
    obtain ⟨e, _, rfl⟩ := List.mem_map.1 mem
    exact .text _
  have metadata : ∀ {depth}, Json.OfTexts (depth + 1)
      (.object [("name", .string name), ("namespace", .string ns)]) :=
    .object (ascending_of_names ["name", "namespace"] rfl (by decide)) (by simp [Json.OfTexts.text])
  rw [secret_eq]
  exact .object (ascending_of_names ["apiVersion", "data", "kind", "metadata", "type"] rfl (by decide))
    (by simp [Json.OfTexts.text, entries, metadata])

theorem isSome_read?_entries :
    ((Schema.dict .bytes).read? (.ofDict encodedText data)).isSome := by
  have each : ∀ m ∈ (data.map fun _ => encodedText).entries, (Schema.bytes.read? m.2).isSome := by
    intro m mem
    obtain ⟨e, _, rfl⟩ := List.mem_map.1 mem
    simp [Schema.read?, encodedText, Schema.readBytes?, Base64.decode_encode]
  obtain ⟨values, readValues⟩ := Option.isSome_iff_exists.1 (Schema.isSome_readValues? each)
  rw [Schema.read?, Json.ofDict, Json.members?, Option.bind_eq_bind, Option.bind_some]
  exact readValues ▸ rfl

/-- A published secret reads as one. -/
theorem isSome_read?_secret : (secretKind.read? (secret ns name data)).isSome := by
  have kind : (secretKind.read? (secret ns name data)) =
      (Schema.record secretKind.fields).read? (secret ns name data) := by
    rw [secret_eq]
    rfl
  have entries := isSome_read?_entries data
  rw [kind, secret_eq]
  refine Schema.isSome_read?_record fun f mem => ?_
  simp only [secretKind, List.mem_cons, List.not_mem_nil, or_false] at mem
  rcases mem with rfl | rfl | rfl | rfl | rfl
  · rw [← Option.isSome_map] at entries
    exact entries
  · rfl
  · rfl
  · rfl
  · rfl

/-- The texts of a published secret are written by their bytes. -/
theorem secret_encoded :
    Writes Encoded (data.map fun _ => Text.Utf8.encode) ((secret ns name data).member? "data") := by
  rw [secret_eq]
  refine .object ?_
  rw [Dict.map, Dict.map, List.forall₂_map_left_iff, List.forall₂_map_right_iff, List.forall₂_same]
  exact fun e _ => ⟨rfl, rfl⟩

theorem secret_shown :
    (Holding.mk (data.map fun _ => Text.Utf8.encode) .empty).Shown (secret ns name data) where
  secret := isSome_read?_secret ns name data
  data := by
    generalize member : (secret ns name data).member? "data" = value
    have encoded := member ▸ secret_encoded ns name data
    cases encoded with
    | absent nothing => exact .absent nothing
    | null nothing => exact .null nothing
    | object same => exact .object (same.imp fun _ _ e => ⟨e.1, .encoded e.2⟩)
  plain := by
    rw [secret_eq]
    exact .absent rfl

end

/-- A request that publishes texts: they are written by their bytes, and a cluster that answers with
what it was sent gives them back. -/
structure Publishes (ns name : String) (data : SecretData) (request : Request) : Prop where
  method : request.method = .patch
  body : ∃ body value, request.body = some body ∧ Json.parse? body.text = some value ∧
    Writes Encoded (data.map fun _ => Text.Utf8.encode) (value.member? "data") ∧
    ∀ {τ : Type} [Transport τ] (c : Connection τ), c.Answers ns name body.text →
      (Client.getSecret ns name c).1 = .ok (some data)

/-- The query that goes with what is published. -/
def publishing : String := "?force=true&fieldManager=vip"

namespace Client

variable {τ : Type} [Transport τ]

theorem applySecret_log (ns name : String) (data : SecretData) (c : Connection (Wire τ)) :
    (applySecret ns name data c).2.transport.log = c.transport.log ++
      match named secrets ns name publishing with
      | .error _ => []
      | .ok target =>
        let request : Request := ⟨.patch, target, none,
          some ⟨"application/apply-patch+yaml", (secret ns name data).text⟩⟩
        [⟨request, (Transport.send c.transport.carrier request).1⟩] := by
  have query : "?" ++ form [("force", "true"), ("fieldManager", "vip")] = publishing := by
    decide +kernel
  have sent : (applySecret ns name data c).2 = (send .patch (named secrets ns name publishing)
      (some ⟨"application/apply-patch+yaml", (secret ns name data).text⟩) c).2 := by
    change (apply secrets secretKind ns name (secret ns name data) c).2 = _
    rw [← query, apply]
    refine Exchange.bind_still _ _ (fun response t => ?_) c
    cases readAs secretKind.read? response <;> rfl
  rw [sent, send_eq]
  cases named secrets ns name publishing with
  | error fault => exact (List.append_nil _).symm
  | ok target => rfl

end Client

theorem texts_of_map {data texts : SecretData}
    (each : List.Forall₂ (fun e t => e.1 = t.1 ∧ e.2 = Text.Utf8.encode t.2)
      (data.map fun _ => Text.Utf8.encode).entries texts.entries) : texts = data := by
  rw [Dict.map, List.forall₂_map_left_iff] at each
  have same := each.imp fun e t same => Prod.ext same.1 (Text.Utf8.encode_inj.1 same.2)
  exact (Dict.eq_of_entries (List.forall₂_eq_eq_eq ▸ same)).symm

theorem secret_publishes (ns name target : String) (data : SecretData) :
    Publishes ns name data ⟨.patch, target, none,
      some ⟨"application/apply-patch+yaml", (secret ns name data).text⟩⟩ where
  method := rfl
  body := by
    have parsed := Json.parse?_text (secret_ofTexts ns name data)
    refine ⟨_, _, rfl, parsed, secret_encoded ns name data, fun c answers => ?_⟩
    have shown := secret_shown ns name data
    obtain ⟨read, kind⟩ := Option.isSome_iff_exists.1 shown.secret
    rw [Client.getSecret_answered answers parsed kind]
    rcases shown.secretData_cases kind with ⟨texts, each, same⟩ | ⟨_, e, _, entries, _, offends, _⟩
    · rw [texts_of_map each] at same
      rw [Client.dataOfSecret, same]
      rfl
    · have mem : e ∈ (data.map fun _ => Text.Utf8.encode).entries  :=
        entries ▸ List.mem_append_right _ List.mem_cons_self
      obtain ⟨_, _, rfl⟩ := List.mem_map.1 mem
      exact absurd ⟨_, rfl⟩ offends

/-- What publishing a secret sends gives the secret back. Whatever a cluster answers for a secret, its
texts are read exactly if all its bytes are text, the plain ones over the others; else it is refused
for the first that are not, in the order of the bytes of their names. -/
theorem secrets_kept (ns name : String) :
    (∀ {τ : Type} [Transport τ] (data : SecretData) (c : Connection (Wire τ)),
      ∃ sent, (Client.applySecret ns name data c).2.transport.log = c.transport.log ++ sent ∧
        (sent = [] ↔ ∃ fault, named secrets ns name publishing = .error fault) ∧
        sent.length ≤ 1 ∧ ∀ e ∈ sent, Publishes ns name data e.request) ∧
    ∀ {τ : Type} [Transport τ] (h : Holding) (text : String) (value : Json) (c : Connection τ),
      Json.parse? text = some value → h.Shown value → c.Answers ns name text →
        ((∃ data, (Client.getSecret ns name c).1 = .ok (some data)) ↔ h.Valid) ∧
        h.Reads ns name (Client.getSecret ns name c).1 := by
  constructor
  · intro τ _ data c
    refine ⟨_, Client.applySecret_log ns name data c, ?_⟩
    cases named secrets ns name publishing with
    | error fault => simp
    | ok target => simpa using secret_publishes ns name target data
  · intro τ _ h text value c parsed shown answers
    obtain ⟨read, kind⟩ := Option.isSome_iff_exists.1 shown.secret
    rw [Client.getSecret_answered answers parsed kind]
    have reads := shown.reads kind ns name
    exact ⟨reads.isSome_iff, reads⟩

/-- A cluster that keeps the last text it was sent, and answers with it. -/
structure Keeper where
  kept : String

instance : Transport Keeper where
  send k request :=
    let kept := (request.body.map (·.text)).getD k.kept
    (.ok ⟨200, Text.Utf8.encode kept⟩, ⟨kept⟩)

theorem Keeper.answers (k : Keeper) :
    (⟨k, []⟩ : Connection Keeper).Answers "vip" "credentials" k.kept where
  answer := by
    have named : (named secrets "vip" "credentials" "").isOk := by decide +kernel
    cases accepted : Cluster.named secrets "vip" "credentials" "" with
    | error fault => cases accepted ▸ named
    | ok target => exact ⟨target, _, rfl, rfl, rfl, rfl⟩

/-- A secret is published and read again; another has bytes that are no text. -/
theorem secrets_kept_keeping :
    let data : SecretData := .ofList [("password", "pä\"ß"), ("username", "vip-tester")]
    let start : Connection (Wire Keeper) := ⟨⟨⟨""⟩, []⟩, []⟩
    let broken : Json := .object [("data", .object [("a", .string "YQ=="), ("b", .string "/w==")])]
    (∃ e body, (Client.applySecret "vip" "credentials" data start).2.transport.log = [e] ∧
        e.request.body = some body ∧
        (Client.getSecret "vip" "credentials" (⟨⟨body.text⟩, []⟩ : Connection Keeper)).1 =
          .ok (some data)) ∧
      ¬ ∃ data, (Client.getSecret "vip" "credentials" (⟨⟨broken.text⟩, []⟩ : Connection Keeper)).1 =
        .ok (some data) := by
  intro data start broken
  constructor
  · obtain ⟨sent, log, empty, one, each⟩ := (secrets_kept "vip" "credentials").1 data start
    have named : (named secrets "vip" "credentials" publishing).isOk := by decide +kernel
    cases sent with
    | nil =>
      obtain ⟨fault, refused⟩ := empty.1 rfl
      cases refused ▸ named
    | cons e others =>
      cases List.length_eq_zero_iff.1 (Nat.le_zero.1 (Nat.le_of_succ_le_succ one))
      obtain ⟨body, _, same, -, -, back⟩ := (each e List.mem_cons_self).body
      exact ⟨e, body, log, same, back _ (Keeper.answers ⟨body.text⟩)⟩
  · let h : Holding := ⟨.ofList [("a", [97]), ("b", [255])], .empty⟩
    have shown : h.Shown broken := {
      secret := by decide +kernel
      data := .object (.cons ⟨rfl, .encoded rfl⟩ (.cons ⟨rfl, .encoded rfl⟩ .nil))
      plain := .absent rfl }
    have entries : ∀ {depth}, Json.OfTexts (depth + 1)
        (.object [("a", .string "YQ=="), ("b", .string "/w==")]) :=
      .object (ascending_of_names ["a", "b"] rfl (by decide)) (by simp [Json.OfTexts.text])
    have parsed : Json.parse? broken.text = some broken := Json.parse?_text
      (.object (ascending_of_names ["data"] rfl (by decide)) (by simp [entries]))
    have read := (secrets_kept "vip" "credentials").2 h _ _ _ parsed shown (Keeper.answers ⟨broken.text⟩)
    intro some
    obtain ⟨s, bytes⟩ := read.1.1 some "b" [255] rfl
    have none : Text.Utf8.decode? [255] = .none := by decide +kernel
    rw [Text.Utf8.decode?_eq_some_iff.2 bytes] at none
    cases none

end Acceptance.Cluster
