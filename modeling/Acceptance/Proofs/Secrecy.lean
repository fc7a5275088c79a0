import Acceptance.Proofs.Likeness
import Acceptance.Proofs.Manifest
import Acceptance.Proofs.Misconfigured
import Acceptance.Proofs.Record
import Acceptance.Proofs.Stores
import Acceptance.Proofs.Succession

/-!
# What a password touches

The password of the administrator goes to the identity provider; that of the test user goes there too,
and into the secret of the test user. Nothing else of a run depends on them.

* `Call.redacted`, `Event.sight`: what is seen of a call and of an event by one who may see no
  password;
* `Session.Veiled`: two sessions that are seen alike;
* `Party.SameButPasswords`: collaborators that do not look at the passwords they are told, and that
  hold two passwords of the administrator;
* `Run.passwords_unseen`: two remote runs that differ in passwords are seen alike.
-/

namespace Acceptance

variable {σ α β : Type}

/-! ## Waiting does not look at the answer -/

/-- The same reaction with another answer. -/
def Reaction.map (f : α → β) (r : Reaction α) : Reaction β :=
  { r with answer := r.answer.map f }

def Due.map (f : α → β) (d : Due α) : Due β := ⟨d.time, d.ending.map f⟩

theorem Due.sooner_map (f : α → β) (a b : Option (Due α)) :
    sooner (a.map (Due.map f)) (b.map (Due.map f)) = (sooner a b).map (Due.map f) := by
  cases a with
  | none => cases b <;> rfl
  | some a =>
    cases b with
    | none => rfl
    | some b =>
      by_cases earlier : b.time < a.time
      · simp [sooner, Due.map, earlier]
      · simp [sooner, Due.map, earlier]

theorem Ending.ofExcept_map (f : α → β) (answer : Except Error α) :
    Ending.ofExcept (answer.map f) = (Ending.ofExcept answer).map f := by
  cases answer <;> rfl

namespace Clock

theorem due_map (f : α → β) (g : Guard) (r : Reaction α) (c : Clock) :
    due g (r.map f) c = (due g r c).map (Due.map f) := by
  have answer : (r.map f).lasts.map (fun d => Due.mk (c.now + d) (.ofExcept (r.map f).answer)) =
      (r.lasts.map fun d => Due.mk (c.now + d) (.ofExcept r.answer)).map (Due.map f) := by
    simp [Reaction.map, Due.map, Ending.ofExcept_map, Function.comp_def]
  have deadline : g.deadline.map (fun t => Due.mk (max c.now t) .expired) =
      (g.deadline.map fun t => Due.mk (max c.now t) .expired).map (Due.map f) := by
    simp [Due.map, Ending.map, Function.comp_def]
  have horizon : c.horizon.map (fun t => Due.mk (max c.now t) .pending) =
      (c.horizon.map fun t => Due.mk (max c.now t) .pending).map (Due.map f) := by
    simp [Due.map, Ending.map, Function.comp_def]
  have cancel : (if g.cancellable then c.cancelTime.map (Due.mk · .cancelled) else none) =
      (if g.cancellable then c.cancelTime.map (Due.mk · .cancelled) else none).map (Due.map f) := by
    cases g.cancellable <;> simp [Due.map, Ending.map, Function.comp_def]
  unfold due
  dsimp only
  rw [answer, deadline, cancel, horizon, Due.sooner_map, Due.sooner_map, Due.sooner_map]

theorem await_map (f : α → β) (g : Guard) (r : Reaction α) (c : Clock) :
    await g (r.map f) c = ((await g r c).1.map f, (await g r c).2) := by
  have started : c.started (r.map f) = c.started r := rfl
  have lasts : (r.map f).lasts = r.lasts := rfl
  rw [await_eq, await_eq, started, lasts, due_map]
  by_cases instant : r.lasts = some 0
  · rw [if_pos instant, if_pos instant]
    exact congrArg (·, c.started r) (Ending.ofExcept_map f r.answer)
  · rw [if_neg instant, if_neg instant]
    cases due g r (c.started r) with
    | none => rfl
    | some d =>
      obtain ⟨t, ending⟩ := d
      cases ending <;> rfl

end Clock

/-! ## What is seen without the passwords -/

/-- The call without its password. -/
def Call.redacted : Call → Call
  | adminToken provider username _ => adminToken provider username ""
  | createUser provider token realm username _ => createUser provider token realm username ""
  | resetPassword provider token realm user _ => resetPassword provider token realm user ""
  | applySecret ns name data => applySecret ns name (data.erase Credentials.passwordKey)
  | call => call

/-- A password is among the arguments. -/
def Call.confides : Call → Bool
  | adminToken .. | createUser .. | resetPassword .. | applySecret .. => true
  | _ => false

theorem Call.confides_redacted (call : Call) : call.redacted.confides = call.confides := by
  cases call <;> rfl

theorem Call.redacted_of_plain {call : Call} (plain : call.confides = false) :
    call.redacted = call := by
  cases call <;> first | rfl | cases plain

/-- The calls without a password are all there. -/
theorem Call.filter_redacted (calls : List Call) :
    (calls.map redacted).filter (!·.confides) = calls.filter (!·.confides) := by
  induction calls with
  | nil => rfl
  | cons call calls ih =>
    rw [List.map_cons, List.filter_cons, List.filter_cons, ih, confides_redacted]
    cases plain : call.confides with
    | true => rfl
    | false => rw [redacted_of_plain plain]

/-- What is seen of an event. -/
inductive Sight where
  | asked (time : Nat) (call : Call)
  | succeeded (time : Nat) (call : Call)
  | failed (time : Nat) (call : Call) (error : Error)
  | abandoned (time : Nat) (call : Call)
  | warned (time : Nat) (warning : Warning)

def Event.sight : Event → Sight
  | asked time call => .asked time call.redacted
  | answered time call (.ok _) => .succeeded time call.redacted
  | answered time call (.error e) => .failed time call.redacted e
  | abandoned time call => .abandoned time call.redacted
  | warned time w => .warned time w

/-- The ending without its value. -/
def Ending.shape (ending : Ending α) : Ending Unit := ending.map fun _ => ()

/-- The reaction without its value. -/
def Reaction.shape (r : Reaction α) : Reaction Unit := r.map fun _ => ()

/-- How a call ended is seen in its shape. -/
theorem Task.sight_endEvents {call call' : Call} (same : call'.redacted = call.redacted) (t : Nat)
    (ws : List Warning) {ending : Ending call.Answer} {ending' : Ending call'.Answer}
    (shape : ending'.shape = ending.shape) :
    (endEvents call' t ws ending').map Event.sight = (endEvents call t ws ending).map Event.sight := by
  cases ending <;> cases ending' <;> cases shape <;> simp [endEvents, Event.sight, same]

/-- Two sessions that are seen alike, with random bytes as `K` allows. -/
structure Session.Veiled (K : List UInt8 → List UInt8 → Prop) (s s' : Session σ) : Prop where
  clock : s'.clock = s.clock
  party : s'.party = s.party
  epoch : s'.epoch = s.epoch
  files : s'.files = s.files
  sights : s'.events.map Event.sight = s.events.map Event.sight
  entropy : K s.entropy s'.entropy

namespace Session.Veiled

variable {K K' : List UInt8 → List UInt8 → Prop}

theorem likeness : Session.Likeness (Veiled (σ := σ) K) where
  clock like := like.clock
  files like := like.files
  moved _ like := { like with clock := rfl }
  warned w like := { like with
    sights := by simp [Task.warn, Event.sight, like.clock, like.sights] }

theorem mono (weaker : Subrelation K K') : Subrelation (Veiled (σ := σ) K) (Veiled K') :=
  fun like => { like with entropy := weaker like.entropy }

/-- A call and the same call with another password, to which the reactions differ in their values at
most. -/
theorem asked {P P' : Party σ} {s s' : Session σ} (like : s.Veiled K s') (g : Guard)
    (call call' : Call) (same : call'.redacted = call.redacted)
    (shape : (P'.react s.party call').1.shape = (P.react s.party call).1.shape)
    (next : (P'.react s.party call').2 = (P.react s.party call).2) :
    (@Task.ask σ P' g call' s').1.shape = (@Task.ask σ P g call s).1.shape ∧
      (@Task.ask σ P g call s).2.Veiled K (@Task.ask σ P' g call' s').2 := by
  have waited : s.clock.await g (P'.react s.party call').1.shape =
    s.clock.await g (P.react s.party call).1.shape := congrArg (fun r => s.clock.await g r) shape
  rw [Reaction.shape, Reaction.shape, Clock.await_map, Clock.await_map, Prod.mk.injEq] at waited
  obtain ⟨ended, clock⟩ := waited
  have stopped : (P'.react s.party call').1.whenStopped = (P.react s.party call).1.whenStopped :=
    congrArg Reaction.whenStopped shape
  simp only [Task.ask, like.clock, like.party, clock, stopped]
  refine ⟨ended, rfl, next, like.epoch, like.files, ?_, like.entropy⟩
  rw [List.map_append, List.map_append, Task.sight_endEvents same _ _ ended, List.map_cons,
    List.map_cons, like.sights, Event.sight, Event.sight, same]

end Session.Veiled

/-! ## Collaborators that hold two passwords -/

namespace Credentials

/-- The same secret with another password. Neither password is empty. -/
structure SameButPassword (data data' : SecretData) : Prop where
  password : ∃ q, q ≠ "" ∧ data.get? passwordKey = some q
  password' : ∃ q, q ≠ "" ∧ data' = data.insert passwordKey q

theorem entry_of_get? {secret key value : String} {data : SecretData} (nonempty : value ≠ "")
    (found : data.get? key = some value) : entry secret data key = .ok value := by
  unfold entry
  rw [found]
  split
  · rename_i empty
    cases empty
    exact absurd rfl nonempty
  · rename_i missing
    cases missing
  · rename_i other
    cases other
    rfl

/-- The name that is read does not depend on the password, and neither does what is wrong with it. -/
theorem SameButPassword.ofData {data data' : SecretData} (h : SameButPassword data data')
    (secret : String) :
    (∃ c c', ofData secret data = .ok c ∧ ofData secret data' = .ok c' ∧
      c'.username = c.username) ∨
    ∃ e, ofData secret data = .error e ∧ ofData secret data' = .error e := by
  obtain ⟨⟨q, nonempty, found⟩, q', nonempty', rfl⟩ := h
  have found' : (data.insert passwordKey q').get? passwordKey = some q' := by
    simp [Dict.get?, Dict.insert, entryAt?_insertEntry]
  have kept : (data.insert passwordKey q').get? usernameKey = data.get? usernameKey := by
    have other : usernameKey ≠ passwordKey := by decide
    simp [Dict.get?, Dict.insert, entryAt?_insertEntry, other]
  have username : entry secret (data.insert passwordKey q') usernameKey =
      entry secret data usernameKey := by
    unfold entry
    rw [kept]
  simp only [Credentials.ofData, username, entry_of_get? nonempty found,
    entry_of_get? nonempty' found']
  cases entry secret data usernameKey with
  | ok name => exact .inl ⟨⟨name, q⟩, ⟨name, q'⟩, rfl, rfl, rfl⟩
  | error e => exact .inr ⟨e, rfl, rfl⟩

end Credentials

/-- The collaborators `P'` react as `P` do, whatever passwords they are told, but may hold another
password of the administrator in a secret. -/
structure Party.SameButPasswords (ns secret : String) (P P' : Party σ) : Prop where
  adminToken (p : σ) (provider username q q' : String) :
    P'.react p (.adminToken provider username q') = P.react p (.adminToken provider username q)
  createUser (p : σ) (provider token realm username q q' : String) :
    P'.react p (.createUser provider token realm username q') =
      P.react p (.createUser provider token realm username q)
  resetPassword (p : σ) (provider token realm user q q' : String) :
    P'.react p (.resetPassword provider token realm user q') =
      P.react p (.resetPassword provider token realm user q)
  applySecret (p : σ) (ns name username q q' : String) :
    P'.react p (.applySecret ns name (Credentials.toData ⟨username, q'⟩)) =
      P.react p (.applySecret ns name (Credentials.toData ⟨username, q⟩))
  adminSecret (p : σ) : P'.react p (.getSecret ns secret) = P.react p (.getSecret ns secret) ∨
    ∃ data data', Credentials.SameButPassword data data' ∧
      (P.react p (.getSecret ns secret)).1.answer = .ok (some data) ∧
      P'.react p (.getSecret ns secret) =
        ({ (P.react p (.getSecret ns secret)).1 with answer := .ok (some data') },
          (P.react p (.getSecret ns secret)).2)
  others (p : σ) (call : Call) : call.confides = false → call ≠ .getSecret ns secret →
    P'.react p call = P.react p call

/-- The first `n` random bytes are the same, and both go on with a password or neither does. -/
def SameUpTo (n : Nat) (entropy entropy' : List UInt8) : Prop :=
  entropy'.take n = entropy.take n ∧
    (Password.generate (entropy'.drop n)).isSome = (Password.generate (entropy.drop n)).isSome

/-- Both tokens are drawn, or the names fail. -/
theorem Task.drawNames_eq (stem : String) (s : Session σ) : drawNames stem s =
    if s.entropy.length < 2 * tokenBytes then
      (.error (.random "resource name suffix"),
        if s.entropy.length < tokenBytes then s
        else { s with entropy := s.entropy.drop tokenBytes })
    else (.value (.ofTokens stem (s.epoch + Duration.seconds s.clock.now) (s.entropy.take tokenBytes)
        ((s.entropy.drop tokenBytes).take tokenBytes)),
      { s with entropy := s.entropy.drop (2 * tokenBytes) }) := by
  simp only [drawNames, Bind.bind, Task.bind, drawBytes]
  by_cases short : s.entropy.length < tokenBytes
  · have both : s.entropy.length < 2 * tokenBytes := by omega
    rw [if_pos short, if_pos short, if_pos both]
  · rw [if_neg short, if_neg short]
    by_cases both : s.entropy.length < 2 * tokenBytes
    · have second : (s.entropy.drop tokenBytes).length < tokenBytes := by
        rw [List.length_drop]
        omega
      rw [if_pos both]
      dsimp only
      rw [if_pos second]
    · have second : ¬ (s.entropy.drop tokenBytes).length < tokenBytes := by
        rw [List.length_drop]
        omega
      rw [if_neg both]
      dsimp only
      rw [if_neg second]
      simp [session, List.drop_drop, Pure.pure, tokenBytes]

section Passwords

open Session (Veiled)

variable {K : List UInt8 → List UInt8 → Prop}

theorem Credentials.redacted_toData (ns name username q q' : String) :
    (Call.applySecret ns name (toData ⟨username, q'⟩)).redacted =
      (Call.applySecret ns name (toData ⟨username, q⟩)).redacted := by
  have order : passwordKey < usernameKey := by decide
  simp [Call.redacted, toData, Dict.erase, Dict.ofList, Dict.insert, Dict.empty, insertEntry, order]

variable {ns secret : String} {P P' : Party σ} (same : P.SameButPasswords ns secret P')

theorem Session.Veiled.relates_ask (g : Guard) {call : Call}
    (react : ∀ p, P'.react p call = P.react p call) :
    Relates (Veiled K) (Veiled K) (@Task.ask σ P g call) (@Task.ask σ P' g call) := by
  intro s s' like
  have ended : (@Task.ask σ P' g call s').1 = (@Task.ask σ P g call s).1 := by
    simp only [Task.ask, like.clock, like.party, react]
  exact ⟨ended, (like.asked g call call rfl (congrArg (fun r => r.1.shape) (react s.party))
    (congrArg Prod.snd (react s.party))).2⟩

include same

namespace Party.SameButPasswords

theorem ask_plain (g : Guard) {call : Call} (plain : call.confides = false)
    (other : call ≠ .getSecret ns secret) :
    Relates (Veiled K) (Veiled K) (@Task.ask σ P g call) (@Task.ask σ P' g call) :=
  Veiled.relates_ask g fun p => same.others p call plain other

theorem ask_adminToken (g : Guard) (provider username q q' : String) :
    Relates (Veiled K) (Veiled K) (@Task.ask σ P g (.adminToken provider username q))
      (@Task.ask σ P' g (.adminToken provider username q')) := by
  intro s s' like
  have react := same.adminToken s.party provider username q q'
  have asked := like.asked g (.adminToken provider username q) (.adminToken provider username q') rfl
    (congrArg (fun r => r.1.shape) react) (congrArg Prod.snd react)
  refine ⟨?_, asked.2⟩
  simp only [Task.ask, like.clock, like.party, react]

theorem ask_createUser (g : Guard) (provider token realm username q q' : String) :
    Relates (Veiled K) (Veiled K) (@Task.ask σ P g (.createUser provider token realm username q))
      (@Task.ask σ P' g (.createUser provider token realm username q')) := by
  intro s s' like
  have react := same.createUser s.party provider token realm username q q'
  have asked := like.asked g (.createUser provider token realm username q)
    (.createUser provider token realm username q') rfl
    (congrArg (fun r => r.1.shape) react) (congrArg Prod.snd react)
  refine ⟨?_, asked.2⟩
  simp only [Task.ask, like.clock, like.party, react]

theorem ask_resetPassword (g : Guard) (provider token realm user q q' : String) :
    Relates (Veiled K) (Veiled K) (@Task.ask σ P g (.resetPassword provider token realm user q))
      (@Task.ask σ P' g (.resetPassword provider token realm user q')) := by
  intro s s' like
  have react := same.resetPassword s.party provider token realm user q q'
  have asked := like.asked g (.resetPassword provider token realm user q)
    (.resetPassword provider token realm user q') rfl
    (congrArg (fun r => r.1.shape) react) (congrArg Prod.snd react)
  refine ⟨?_, asked.2⟩
  simp only [Task.ask, like.clock, like.party, react]

theorem ask_applySecret (g : Guard) (ns name username q q' : String) :
    Relates (Veiled K) (Veiled K)
      (@Task.ask σ P g (.applySecret ns name (Credentials.toData ⟨username, q⟩)))
      (@Task.ask σ P' g (.applySecret ns name (Credentials.toData ⟨username, q'⟩))) := by
  intro s s' like
  have react := same.applySecret s.party ns name username q q'
  have asked := like.asked g (.applySecret ns name (Credentials.toData ⟨username, q⟩))
    (.applySecret ns name (Credentials.toData ⟨username, q'⟩)) (Credentials.redacted_toData ..)
    (congrArg (fun r => r.1.shape) react) (congrArg Prod.snd react)
  refine ⟨?_, asked.2⟩
  simp only [Task.ask, like.clock, like.party, react]

/-- The administrator's secret is read with one password or the other. -/
theorem ask_adminSecret (g : Guard) :
    Pairs (Veiled K) (Veiled K) (fun data data' => data' = data ∨ ∃ d d',
        data = some d ∧ data' = some d' ∧ Credentials.SameButPassword d d')
      (@Task.ask σ P g (.getSecret ns secret)) (@Task.ask σ P' g (.getSecret ns secret)) := by
  intro s s' like
  rcases same.adminSecret s.party with react | ⟨d, d', differ, answer, react⟩
  · have asked := like.asked g (.getSecret ns secret) (.getSecret ns secret) rfl
      (congrArg (fun r => r.1.shape) react) (congrArg Prod.snd react)
    refine ⟨?_, asked.2⟩
    have ended : (@Task.ask σ P' g (.getSecret ns secret) s').1 =
        (@Task.ask σ P g (.getSecret ns secret) s).1 := by
      simp only [Task.ask, like.clock, like.party, react]
    rw [ended]
    cases (@Task.ask σ P g (.getSecret ns secret) s).1 with
    | value data => exact .value (.inl rfl)
    | error | cancelled | expired | pending | crashed => exact .same (by simp)
  · have shape : (P'.react s.party (.getSecret ns secret)).1.shape =
        (P.react s.party (.getSecret ns secret)).1.shape := by
      rw [react]
      simp [Reaction.shape, Reaction.map, answer, Except.map]
    have next : (P'.react s.party (.getSecret ns secret)).2 =
        (P.react s.party (.getSecret ns secret)).2 := by
      rw [react]
    have asked := like.asked g (.getSecret ns secret) (.getSecret ns secret) rfl shape next
    refine ⟨?_, asked.2⟩
    have told : ∀ data, (@Task.ask σ P g (.getSecret ns secret) s).1 = .value data →
        data = some d := by
      intro data ended
      have given : Except.ok data = (P.react s.party (.getSecret ns secret)).1.answer :=
        Clock.await_over ended
      rw [answer] at given
      exact Except.ok.inj given
    have told' : ∀ data, (@Task.ask σ P' g (.getSecret ns secret) s').1 = .value data →
        data = some d' := by
      intro data ended
      have given : Except.ok data = (P'.react s'.party (.getSecret ns secret)).1.answer :=
        Clock.await_over ended
      rw [like.party, react] at given
      exact Except.ok.inj given
    have shapes := asked.1
    revert told told' shapes
    cases (@Task.ask σ P g (.getSecret ns secret) s).1 with
    | value data =>
      cases (@Task.ask σ P' g (.getSecret ns secret) s').1 with
      | value data' =>
        intro told told' _
        exact .value (.inr ⟨d, d', told data rfl, told' data' rfl, differ⟩)
      | _ => intro _ _ shapes; cases shapes
    | _ =>
      cases (@Task.ask σ P' g (.getSecret ns secret) s').1 <;> intro _ _ shapes <;> cases shapes
      exact .same (by simp)

end Party.SameButPasswords

namespace Provision

variable {r : IdentityRequest} {g : Guard} {token q q' : String}

theorem resetPassword_relates (user : String) :
    Relates (Veiled K) (Veiled K) (@Procedure.perform _ σ P g (resetPassword r token q user))
      (@Procedure.perform _ σ P' g (resetPassword r token q' user)) := by
  rw [resetPassword, resetPassword, @Procedure.perform_call σ P, @Procedure.perform_call σ P']
  exact same.ask_resetPassword g _ _ _ _ q q'

theorem findUser_relates : Relates (Veiled K) (Veiled K) (@Task.ask σ P g (findUser r token))
    (@Task.ask σ P' g (findUser r token)) :=
  same.ask_plain g rfl (by simp [findUser])

theorem resetExisting_relates :
    Relates (Veiled K) (Veiled K) (@Procedure.perform _ σ P g (resetExisting r token q))
      (@Procedure.perform _ σ P' g (resetExisting r token q')) := by
  rw [resetExisting, resetExisting, @Procedure.perform_bind, @Procedure.perform_bind,
    @Procedure.perform_call σ P, @Procedure.perform_call σ P']
  refine (findUser_relates same).bind (fun found => ?_) id
  cases found with
  | some user => exact resetPassword_relates same user
  | none => exact .still _ id

theorem createUser_relates :
    Relates (Veiled K) (Veiled K) (@Procedure.perform _ σ P g (createUser r token q))
      (@Procedure.perform _ σ P' g (createUser r token q')) := by
  rw [createUser, createUser, @Procedure.perform_ask, @Procedure.perform_ask]
  refine (same.ask_createUser g _ _ _ _ q q').isolate.bind (fun answer => ?_) id
  cases answer with
  | ok => exact .still _ id
  | error e =>
    dsimp only
    by_cases conflict : e.isConflict = true
    · rw [if_pos conflict, if_pos conflict]
      exact resetExisting_relates same
    · rw [if_neg conflict, if_neg conflict]
      exact .still _ id

theorem upsertUser_relates :
    Relates (Veiled K) (Veiled K) (@Procedure.perform _ σ P g (upsertUser r token q))
      (@Procedure.perform _ σ P' g (upsertUser r token q')) := by
  rw [upsertUser, upsertUser, @Procedure.perform_ask, @Procedure.perform_ask]
  refine (findUser_relates same).isolate.bind (fun answer => ?_) id
  match answer with
  | .ok (some user) => exact resetPassword_relates same user
  | .ok none => exact createUser_relates same
  | .error e =>
    exact (Relates.warn Veiled.likeness _).bind (fun _ => createUser_relates same) id

theorem readCredentials_pairs :
    Pairs (Veiled K) (Veiled K) (fun admin admin' => admin'.username = admin.username)
      (@Procedure.perform _ σ P g (readCredentials ns secret))
      (@Procedure.perform _ σ P' g (readCredentials ns secret)) := by
  rw [readCredentials, @Procedure.perform_bind, @Procedure.perform_bind,
    @Procedure.perform_call σ P, @Procedure.perform_call σ P']
  refine (same.ask_adminSecret g).bind (fun data data' differ => ?_) id
  apply Pairs.ofExcept ?_ id
  rcases differ with rfl | ⟨d, d', rfl, rfl, differ⟩
  · cases Credentials.ofSecret ns secret data' with
    | ok c => exact .inl ⟨c, c, rfl, rfl, rfl⟩
    | error e => exact .inr ⟨e, rfl, rfl⟩
  · exact differ.ofData secret

omit same in
/-- From here on the two runs may know different passwords of the test user. -/
theorem newPassword_pairs :
    Pairs (σ := σ) (Veiled (SameUpTo 0)) (Veiled fun _ _ => True) (fun _ _ => True)
      (@Procedure.perform _ σ P g Procedure.newPassword)
      (@Procedure.perform _ σ P' g Procedure.newPassword) := by
  intro s s' like
  have given := like.entropy.2
  simp only [List.drop_zero] at given
  simp only [Procedure.newPassword, Procedure.perform, Bind.bind, Task.bind, Task.drawPassword]
  cases drawn : Password.generate s.entropy with
  | none =>
    rw [drawn] at given
    have drawn' : Password.generate s'.entropy = none := by simpa using given
    rw [drawn']
    exact ⟨.same (by simp), like.mono fun _ => trivial⟩
  | some r =>
    rw [drawn] at given
    obtain ⟨r', drawn'⟩ := Option.isSome_iff_exists.1 given
    rw [drawn']
    exact ⟨.value trivial, { like with entropy := trivial }⟩

end Provision

end Passwords

section Runs

open Session (Veiled)

namespace Provision

variable {r : IdentityRequest} {P P' : Party σ}
  (same : P.SameButPasswords r.namespaceName r.adminSecret P') (g : Guard)

include same

theorem create_relates :
    Relates (Veiled (SameUpTo 0)) (Veiled fun _ _ => True) (@Procedure.perform _ σ P g (create r))
      (@Procedure.perform _ σ P' g (create r)) := by
  have forget : Subrelation (Veiled (σ := σ) (SameUpTo 0)) (Veiled fun _ _ => True) :=
    Veiled.mono fun _ => trivial
  simp only [create, Procedure.perform_bind]
  refine .bind_pairs (readCredentials_pairs same) (fun admin admin' username => ?_) forget
  rw [username, @Procedure.perform_call σ P, @Procedure.perform_call σ P']
  refine (same.ask_adminToken g _ _ admin.password admin'.password).bind (fun token => ?_) forget
  refine .bind_pairs newPassword_pairs (fun q q' _ => ?_) id
  refine (upsertUser_relates same).bind (fun _ => ?_) id
  rw [@Procedure.perform_call σ P, @Procedure.perform_call σ P']
  exact same.ask_applySecret g _ _ _ q q'

theorem ensure_relates :
    Relates (Veiled (SameUpTo 0)) (Veiled fun _ _ => True) (@Procedure.perform _ σ P g (ensure r))
      (@Procedure.perform _ σ P' g (ensure r)) := by
  have forget : Subrelation (Veiled (σ := σ) (SameUpTo 0)) (Veiled fun _ _ => True) :=
    Veiled.mono fun _ => trivial
  simp only [ensure, Procedure.perform_bind]
  rw [@Procedure.perform_call σ P, @Procedure.perform_call σ P']
  have asked : Relates (Veiled (SameUpTo 0)) (Veiled (SameUpTo 0))
      (@Task.ask σ P g (.secretExists r.namespaceName r.credentialSecret))
      (@Task.ask σ P' g (.secretExists r.namespaceName r.credentialSecret)) :=
    same.ask_plain g rfl (by simp)
  refine asked.bind (fun found => ?_) forget
  cases found with
  | true => exact .still _ forget
  | false =>
    simp only [Bool.false_eq_true, if_false, Procedure.perform_bind]
    exact (create_relates same g).bind (fun _ => .still _ id) id

end Provision

/-- The names are drawn from bytes that are the same. -/
theorem Task.drawNames_relates (stem : String) :
    Relates (σ := σ) (Veiled (SameUpTo (2 * tokenBytes))) (Veiled (SameUpTo 0)) (drawNames stem)
      (drawNames stem) := by
  intro s s' like
  obtain ⟨first, given⟩ := like.entropy
  have lengths := congrArg List.length first
  rw [List.length_take, List.length_take] at lengths
  rw [drawNames_eq, drawNames_eq]
  by_cases short : s.entropy.length < 2 * tokenBytes
  · -- Where they do not suffice, there are no others.
    have all : s'.entropy = s.entropy := by
      rwa [List.take_of_length_le (by omega), List.take_of_length_le (by omega)] at first
    have same : ∀ entropy, SameUpTo 0 entropy entropy := fun _ => ⟨rfl, rfl⟩
    rw [all, if_pos short, if_pos short]
    refine ⟨rfl, ?_⟩
    by_cases none : s.entropy.length < tokenBytes
    · simp only [if_pos none]
      exact { like with entropy := all ▸ same _ }
    · simp only [if_neg none]
      exact { like with entropy := same _ }
  · have long : ¬ s'.entropy.length < 2 * tokenBytes := by omega
    have tokens : ∀ i j, i + j ≤ 2 * tokenBytes →
        (s'.entropy.drop i).take j = (s.entropy.drop i).take j := by
      intro i j within
      have taken := congrArg (List.take (i + j)) first
      rw [List.take_take, List.take_take, Nat.min_eq_left within] at taken
      rw [List.take_drop, List.take_drop, taken]
    have configToken := tokens 0 tokenBytes (by decide)
    have jobToken := tokens tokenBytes tokenBytes (by decide)
    rw [List.drop_zero, List.drop_zero] at configToken
    rw [if_neg short, if_neg long]
    refine ⟨?_, { like with entropy := ⟨rfl, given⟩ }⟩
    dsimp only
    rw [configToken, jobToken, like.epoch, like.clock]

namespace Run

variable {settings : RunSettings} {image : String}

theorem identityRequest_own {site : Site} {request : IdentityRequest}
    (h : identityRequest site settings = .ok (some request)) :
    request.namespaceName = settings.namespaceName ∧ request.adminSecret = settings.adminSecret := by
  obtain ⟨url, -, rfl⟩ := identityRequest_some h
  exact ⟨rfl, rfl⟩

variable {P P' : Party σ}
  (same : P.SameButPasswords settings.namespaceName settings.adminSecret P')

include same

theorem prepare_veiled :
    Relates (Veiled (SameUpTo (2 * tokenBytes))) (Veiled fun _ _ => True)
      (@prepare σ P settings image) (@prepare σ P' settings image) := by
  have forget : ∀ {K}, Subrelation (Veiled (σ := σ) K) (Veiled fun _ _ => True) :=
    Veiled.mono fun _ => trivial
  refine prepare_relates Veiled.likeness ?_ (Task.drawNames_relates _) ?_ forget forget
  · intro g
    exact loadSite_relates Veiled.likeness fun site => same.ask_plain g rfl (by simp)
  · intro site request found
    cases request with
    | none => exact .still _ forget
    | some request =>
      obtain ⟨ns, secret⟩ := identityRequest_own found
      have own : P.SameButPasswords request.namespaceName request.adminSecret P' := by
        rwa [ns, secret]
      have ensured := Provision.ensure_relates own { cancellable := true }
      exact (Relates.withCancel Veiled.likeness ensured forget).bind (fun _ => .still _ id) id

theorem runRemote_veiled (names : ResourceNames) (text : String) (available : Bool) :
    Relates (Veiled fun _ _ => True) (Veiled fun _ _ => True)
      (@runRemote σ P settings image names text available)
      (@runRemote σ P' settings image names text available) := by
  apply runRemote_relates Veiled.likeness
  · exact fun g => same.ask_plain g rfl (by simp)
  · exact fun g job => same.ask_plain g rfl (by simp)
  · apply Observe.observeJob_relates Veiled.likeness
    · exact fun g => Observe.lookup_relates Veiled.likeness _ _ (same.ask_plain g rfl (by simp))
    · exact fun pod => Observe.streamOutput_relates Veiled.likeness
        fun g => same.ask_plain g rfl (by simp)
    · exact fun g => Observe.lookup_relates Veiled.likeness _ _ (same.ask_plain g rfl (by simp))

theorem cleanup_veiled (names : ResourceNames) (timeout : Nat) :
    Relates (Veiled fun _ _ => True) (Veiled fun _ _ => True)
      (@Cleanup.run σ P settings.namespaceName names timeout)
      (@Cleanup.run σ P' settings.namespaceName names timeout) := by
  apply Cleanup.run_relates Veiled.likeness
  intro g call removal
  apply same.ask_plain g
  · cases call <;> cases removal <;> rfl
  · rintro rfl
    cases removal

theorem run_veiled (remote : settings.mode = .remote image) :
    Relates (Veiled (SameUpTo (2 * tokenBytes))) (Veiled fun _ _ => True)
      (@run σ P settings) (@run σ P' settings) :=
  run_relates remote (prepare_veiled same) (runRemote_veiled same) fun names =>
    cleanup_veiled same names settings.cleanupTimeout

end Run

end Runs

/-! ## What is seen of two runs -/

/-- The call that is seen to start. -/
def Sight.started? : Sight → Option Call
  | asked _ call => some call
  | _ => none

theorem Session.started_redacted (s : Session σ) :
    s.started.map Call.redacted = ((s.events.map Event.sight).filterMap Sight.started?).reverse := by
  have seen : ∀ e : Event, (Event.started? e).map Call.redacted = Sight.started? e.sight := by
    intro e
    cases e with
    | answered t call answer => cases answer <;> rfl
    | asked | abandoned | warned => rfl
  simp [Session.started, List.map_filterMap, List.filterMap_map, seen]

/-- Two runs that differ in passwords only. -/
structure SeenAlike (r r' : Ending α × Session σ) : Prop where
  result : r'.1 = r.1
  clock : r'.2.clock = r.2.clock
  /-- The calls, how they end, and the warnings, each with its time. -/
  sights : r'.2.events.map Event.sight = r.2.events.map Event.sight
  calls : r'.2.started.map Call.redacted = r.2.started.map Call.redacted
  /-- The uploaded configuration and the submitted job are among them. -/
  plain : r'.2.started.filter (!·.confides) = r.2.started.filter (!·.confides)

/-- Two remote runs that differ only in the password of the administrator and in the random bytes of
the test user's password have the same result at the same time, and make the same calls but for the
passwords in them. -/
theorem Run.passwords_unseen {P P' : Party σ} {settings : RunSettings} {image : String}
    (remote : settings.mode = .remote image)
    (same : P.SameButPasswords settings.namespaceName settings.adminSecret P') (s : Session σ)
    {entropy : List UInt8} (names : SameUpTo (2 * tokenBytes) s.entropy entropy) :
    SeenAlike (@run σ P settings s) (@run σ P' settings { s with entropy }) := by
  have start : s.Veiled (SameUpTo (2 * tokenBytes)) { s with entropy } :=
    ⟨rfl, rfl, rfl, rfl, rfl, names⟩
  obtain ⟨result, like⟩ := run_veiled same remote s { s with entropy } start
  have calls : (@run σ P' settings { s with entropy }).2.started.map Call.redacted =
      (@run σ P settings s).2.started.map Call.redacted := by
    rw [Session.started_redacted, Session.started_redacted, like.sights]
  have plain := congrArg (List.filter fun call => !call.confides) calls
  rw [Call.filter_redacted, Call.filter_redacted] at plain
  exact ⟨result, like.clock, like.sights, calls, plain⟩

/-- Collaborators that refuse nothing, for a site with an identity provider whose administrator has
the password. -/
@[reducible]
def Willing.trusted (password : String) : Party Unit where
  react p
    | .getSite _ => ({ answer := .ok (.object [("spec", .object [("domain", .string "example.org"),
        ("auth", .object [("enabled", .bool true)])])]) }, p)
    | .getSecret ns name => ({ answer := .ok (some (Credentials.toData ⟨"admin",
        if ns = settings.namespaceName ∧ name = settings.adminSecret then password
        else "secret"⟩)) }, p)
    | call => ({ answer := .ok (answer call) }, p)

theorem Willing.trusted_same : (trusted "one").SameButPasswords settings.namespaceName
    settings.adminSecret (trusted "another") where
  adminToken _ _ _ _ _ := rfl
  createUser _ _ _ _ _ _ _ := rfl
  resetPassword _ _ _ _ _ _ _ := rfl
  applySecret _ _ _ _ _ _ := rfl
  adminSecret _ := .inr ⟨Credentials.toData ⟨"admin", "one"⟩,
    Credentials.toData ⟨"admin", "another"⟩,
    ⟨⟨"one", by decide, by decide +kernel⟩, "another", by decide, by decide +kernel⟩, rfl, rfl⟩
  others p call plain other := by
    cases call with
    | getSecret ns name =>
      have elsewhere : ¬ (ns = settings.namespaceName ∧ name = settings.adminSecret) := by
        rintro ⟨rfl, rfl⟩
        exact other rfl
      simp only [Party.react, if_neg elsewhere]
    | _ => rfl

/-- The test user is made in both runs, with different passwords. -/
theorem Run.passwords_unseen_trusted :
    let bytes : UInt8 → List UInt8 := fun b =>
      List.replicate (2 * tokenBytes) 0 ++ List.replicate Password.bufferSize b
    let s : Session Unit := { party := (), entropy := bytes 0 }
    let r := @run Unit (Willing.trusted "one") Willing.settings s
    let r' := @run Unit (Willing.trusted "another") Willing.settings { s with entropy := bytes 1 }
    r.1 = .value .passed ∧ r.2.started.countP Call.confides = 3 ∧ SeenAlike r r' := by
  intro bytes s r r'
  have passed : r.1 = .value .passed := by decide +kernel
  have confided : r.2.started.countP Call.confides = 3 := by decide +kernel
  have names : SameUpTo (2 * tokenBytes) s.entropy (bytes 1) :=
    ⟨by decide +kernel, by decide +kernel⟩
  exact ⟨passed, confided, passwords_unseen rfl Willing.trusted_same s names⟩

end Acceptance
