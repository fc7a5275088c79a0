import Acceptance.Proofs.Following
import Acceptance.Proofs.Lines

/-!
# The output of a suite

What is printed of the log of a pod, byte by byte.

* `Cluster.Copied`: what becomes of a log;
* `Cluster.Copied.verbatim_iff`: it comes out as it is exactly if it is text and none of its lines
  ends in a carriage return;
* `Cluster.Client.printed_verbatim_iff`: so it is with the output of every pod that starts, however
  its log is cut into chunks.
-/

namespace Acceptance.Cluster

open Http
open Text.Utf8 (Bytes)
open Holding (IsText)

/-! ## Bytes -/

/-- The bytes without the carriage returns right before a line feed. -/
def unreturned : Bytes → Bytes
  | [] => []
  | b :: bytes =>
    if b = carriageReturn ∧ bytes.head? = some lineFeed then unreturned bytes
    else b :: unreturned bytes

/-- No line is open behind the bytes. -/
def Ended (bytes : Bytes) : Prop := bytes = [] ∨ bytes.getLast? = some lineFeed

instance (bytes : Bytes) : Decidable (Ended bytes) := inferInstanceAs (Decidable (_ ∨ _))

/-- The bytes with an end to the line that is open behind them. -/
def closed (bytes : Bytes) : Bytes := if Ended bytes then bytes else bytes ++ [lineFeed]

/-- The log comes out as it is, but for an end to its last line. -/
def Verbatim (log out : Bytes) : Prop := out = log ∨ (out = log ++ [lineFeed] ∧ ¬ Ended log)

instance (log out : Bytes) : Decidable (Verbatim log out) := inferInstanceAs (Decidable (_ ∨ _))

/-- What becomes of a log. A text loses the carriage returns at the ends of its lines; what is no
text is copied up to the first line that is none. -/
inductive Copied : Bytes → Bytes → Except Error Unit → Prop where
  | whole {log : Bytes} (text : IsText log) : Copied log (closed (unreturned log)) (.ok ())
  | upTo {before line after : Bytes} (ended : Ended before) (text : IsText before)
      (uncut : lineFeed ∉ line) (offends : ¬ IsText line)
      (ends : after = [] ∨ after.head? = some lineFeed) :
      Copied (before ++ line ++ after) (unreturned before)
        (.error (.io "stream did not contain valid UTF-8"))

theorem unreturned_last {line : Bytes} (uncut : lineFeed ∉ line) : unreturned line = line := by
  induction line with
  | nil => rfl
  | cons b line ih =>
    obtain ⟨-, uncut⟩ := not_or.1 (mt List.mem_cons.2 uncut)
    have next : line.head? ≠ some lineFeed := fun next => uncut (List.mem_of_head? next)
    rw [unreturned, if_neg fun both => next both.2, ih uncut]

theorem unreturned_more {line : Bytes} (uncut : lineFeed ∉ line) (rest : Bytes) :
    unreturned (line ++ lineFeed :: rest) = chomp line ++ lineFeed :: unreturned rest := by
  induction line with
  | nil => rfl
  | cons b line ih =>
    obtain ⟨-, uncut⟩ := not_or.1 (mt List.mem_cons.2 uncut)
    rw [List.cons_append, unreturned, ih uncut]
    cases line with
    | nil => by_cases returned : b = carriageReturn <;> simp [chomp, returned]
    | cons b' line =>
      have next : b' ≠ lineFeed := fun same => uncut (same ▸ List.mem_cons_self)
      by_cases returned : (b' :: line).getLast? = some carriageReturn <;>
        simp [chomp, returned, next, List.getLast?_cons_cons]

theorem unreturned_sublist (bytes : Bytes) : (unreturned bytes).Sublist bytes := by
  induction bytes with
  | nil => exact .slnil
  | cons b bytes ih =>
    rw [unreturned]
    split
    · exact ih.cons b
    · exact ih.cons_cons b

theorem unreturned_eq {bytes : Bytes} (plain : ¬ [carriageReturn, lineFeed] <:+: bytes) :
    unreturned bytes = bytes := by
  induction bytes with
  | nil => rfl
  | cons b bytes ih =>
    have kept : ¬ (b = carriageReturn ∧ bytes.head? = some lineFeed) := by
      rintro ⟨rfl, next⟩
      obtain ⟨rest, rfl⟩ := List.head?_eq_some_iff.1 next
      exact plain ⟨[], rest, rfl⟩
    rw [unreturned, if_neg kept, ih fun within => plain (List.infix_cons within)]

theorem count_unreturned_lt {bytes : Bytes} (within : [carriageReturn, lineFeed] <:+: bytes) :
    (unreturned bytes).count carriageReturn < bytes.count carriageReturn := by
  obtain ⟨before, after, rfl⟩ := within
  induction before with
  | nil =>
    have fewer := (unreturned_sublist (lineFeed :: after)).count_le carriageReturn
    simpa [unreturned] using Nat.lt_succ_of_le fewer
  | cons b before ih =>
    simp only [List.append_assoc, List.cons_append, List.nil_append] at ih ⊢
    rw [unreturned]
    split
    · exact Nat.lt_of_lt_of_le ih List.count_le_count_cons
    · simpa [List.count_cons] using ih

theorem isText_chomp {line : Bytes} : IsText (chomp line) ↔ IsText line := by
  rw [chomp]
  split
  · rename_i returned
    obtain ⟨kept, rfl⟩ := List.getLast?_eq_some_iff.1 returned
    rw [List.dropLast_concat, isText_split (by decide)]
    exact ⟨fun text => ⟨text, "", rfl⟩, And.left⟩
  · rfl

/-- A line is text if all that it stands in is. -/
theorem isText_within {before line after : Bytes} (ended : Ended before)
    (ends : after = [] ∨ after.head? = some lineFeed) (text : IsText (before ++ line ++ after)) :
    IsText line := by
  have start : IsText (before ++ line) := by
    rcases ends with rfl | ends
    · simpa using text
    · obtain ⟨rest, rfl⟩ := List.head?_eq_some_iff.1 ends
      exact ((isText_split (by decide) _ _).1 text).1
  rcases ended with rfl | ended
  · exact start
  · obtain ⟨kept, rfl⟩ := List.getLast?_eq_some_iff.1 ended
    rw [List.append_assoc] at start
    exact ((isText_split (by decide) _ _).1 start).2

/-! ## Copies -/

theorem ended_more (line rest : Bytes) : Ended (line ++ lineFeed :: rest) ↔ Ended rest := by
  cases rest with
  | nil => simp [Ended]
  | cons b rest => simp [Ended, List.getLast?_cons_cons]

theorem closed_more (line rest : Bytes) :
    closed (line ++ lineFeed :: rest) = line ++ lineFeed :: closed rest := by
  simp only [closed, ended_more]
  split <;> simp

theorem closed_last {line : Bytes} (uncut : lineFeed ∉ line) (nonempty : line ≠ []) :
    closed line = line ++ [lineFeed] :=
  if_neg fun ended => ended.elim nonempty fun last => uncut (List.mem_of_getLast? last)

theorem count_lineFeed (bytes : Bytes) :
    (bytes ++ [lineFeed]).count carriageReturn = bytes.count carriageReturn := by
  rw [List.count_append, List.count_singleton]
  rfl

theorem count_closed (bytes : Bytes) :
    (closed bytes).count carriageReturn = bytes.count carriageReturn := by
  rw [closed]
  split
  · rfl
  · exact count_lineFeed bytes

namespace Copied

variable {log out : Bytes} {answer : Except Error Unit}

theorem more (h : Copied log out answer) {line : Bytes} (uncut : lineFeed ∉ line)
    (text : IsText line) :
    Copied (line ++ lineFeed :: log) (chomp line ++ lineFeed :: out) answer := by
  cases h with
  | whole rest =>
    rw [← closed_more, ← unreturned_more uncut]
    exact .whole ((isText_split (by decide) line log).2 ⟨text, rest⟩)
  | @upTo before line' after ended rest uncut' offends ends =>
    have copied : Copied (line ++ lineFeed :: before ++ line' ++ after) _ _ :=
      .upTo ((ended_more line before).2 ended)
        ((isText_split (by decide) line before).2 ⟨text, rest⟩) uncut' offends ends
    rw [unreturned_more uncut] at copied
    simpa using copied

/-- The log comes out as it is exactly if it is text and no line of it ends in a carriage return. -/
theorem verbatim_iff (h : Copied log out answer) :
    Verbatim log out ↔ IsText log ∧ ¬ [carriageReturn, lineFeed] <:+: log := by
  cases h with
  | whole text =>
    constructor
    · intro verbatim
      -- An end to the last line adds no carriage return, so that one left out is missed.
      have kept : (unreturned log).count carriageReturn = log.count carriageReturn := by
        rw [← count_closed]
        rcases verbatim with same | ⟨same, -⟩
        · rw [same]
        · rw [same, count_lineFeed]
      exact ⟨text, fun within => Nat.ne_of_lt (count_unreturned_lt within) kept⟩
    · rintro ⟨-, plain⟩
      rw [unreturned_eq plain, closed]
      split
      · exact .inl rfl
      · exact .inr ⟨rfl, ‹_›⟩
  | @upTo before line after ended text uncut offends ends =>
    constructor
    · intro verbatim
      have fewer := (unreturned_sublist before).length_le
      have missed : 0 < line.length := List.length_pos_of_ne_nil fun empty => offends ⟨"", empty⟩
      rcases verbatim with same | ⟨same, -⟩
      all_goals
        have length := congrArg List.length same
        simp only [List.length_append] at length
        omega
    · exact fun verbatim => absurd (isText_within ended ends verbatim.1) offends

end Copied

/-! ## Printing -/

namespace Connection

variable {τ : Type}

/-- What has been printed, in bytes. -/
def stdout (c : Connection τ) : Bytes :=
  c.printed.reverse.flatMap fun line => Text.Utf8.encode line ++ [lineFeed]

end Connection

namespace Client

variable {τ : Type}

theorem print_text {line : Bytes} (text : IsText line) (c : Connection τ) :
    ∃ c', print c [line] = (.ok (), c') ∧ c'.stdout = c.stdout ++ line ++ [lineFeed] := by
  obtain ⟨s, rfl⟩ := text
  refine ⟨{ c with printed := s :: c.printed }, ?_, ?_⟩
  · simp only [print, Text.Utf8.decode?_eq_some_iff.2 rfl]
  · simp [Connection.stdout]

theorem print_offends {line : Bytes} (offends : ¬ IsText line) (c : Connection τ) :
    print c [line] = (.error (.io "stream did not contain valid UTF-8"), c) := by
  have refused : Text.Utf8.decode? line = none := by
    cases decoded : Text.Utf8.decode? line with
    | none => rfl
    | some s => exact absurd ⟨s, Text.Utf8.decode?_eq_some_iff.1 decoded⟩ offends
  simp only [print, refused]

/-- What is printed of a log is its copy. -/
theorem print_copied (log : Bytes) (c : Connection τ) :
    ∃ out, Copied log out (print c (logLines log)).1 ∧
      (print c (logLines log)).2.stdout = c.stdout ++ out := by
  induction log using lines_induction generalizing c with
  | last line uncut =>
    rw [logLines_last uncut]
    by_cases nothing : line = []
    · subst nothing
      exact ⟨[], .whole ⟨"", rfl⟩, (List.append_nil _).symm⟩
    · rw [if_neg nothing]
      by_cases text : IsText line
      · obtain ⟨c', printed, stdout⟩ := print_text text c
        rw [printed]
        refine ⟨_, .whole text, ?_⟩
        rw [unreturned_last uncut, closed_last uncut nothing, stdout, List.append_assoc]
      · rw [print_offends text]
        refine ⟨[], ?_, (List.append_nil _).symm⟩
        have copied := Copied.upTo (.inl rfl) ⟨"", rfl⟩ uncut text (.inl rfl)
        simpa [unreturned] using copied
  | more line rest uncut ih =>
    rw [logLines_more uncut, print_cons]
    by_cases text : IsText line
    · obtain ⟨c', printed, stdout⟩ := print_text (isText_chomp.2 text) c
      obtain ⟨out, copied, stdout'⟩ := ih c'
      simp only [printed]
      refine ⟨_, copied.more uncut text, ?_⟩
      rw [stdout', stdout]
      simp
    · rw [print_offends (mt isText_chomp.1 text)]
      exact ⟨_, .upTo (.inl rfl) ⟨"", rfl⟩ uncut text (.inr rfl), by simp [unreturned]⟩

/-! ## Following -/

section

variable [Transport τ]

theorem send_printed (method : Method) (target : Except RequestFault String) (body : Option Body)
    (c : Connection τ) : (send method target body c).2.printed = c.printed := by
  rw [send_eq]
  cases target <;> rfl

theorem get_printed {α : Type} (type : ResourceType) (read : Json → Option α) (ns name : String)
    (c : Connection τ) : (get type read ns name c).2.printed = c.printed := by
  rw [get, Exchange.bind_still _ _ fun response t => by rfl, send_printed]

theorem looked_printed (ns pod : String) (looks : Nat) (c : Connection τ) :
    (looked ns pod looks c).printed = c.printed := by
  induction looks with
  | zero => rfl
  | succ looks ih => rw [looked_succ, get_printed, ih]

/-- The log of a pod that has started is copied to the output, however it is cut into chunks; it
comes out verbatim exactly if it is text and no line of it ends in a carriage return. -/
theorem printed_verbatim_iff {looks before : Nat} {ns pod : String} {c c' : Connection τ}
    {response : Response} (starts : decision 0 (looksAt ns pod looks c) = .logs before)
    (served : send .get (named pods ns pod "/log?follow=true") none
      (looked ns pod (before + 1) c) = (.ok response, c')) :
    let followed := followPodLogs looks ns pod c
    ∃ out, Copied response.body out followed.1.answer ∧
      followed.1.lasts = some (before * lookInterval) ∧
      followed.2.stdout = c.stdout ++ out ∧
      (Verbatim response.body out ↔
        IsText response.body ∧ ¬ [carriageReturn, lineFeed] <:+: response.body) ∧
      ∀ chunks, chunks.flatten = response.body →
        copyChunks c' [] chunks = (followed.1.answer, followed.2) := by
  have same : c'.printed = c.printed := by
    have sent := send_printed .get (named pods ns pod "/log?follow=true") none
      (looked ns pod (before + 1) c)
    rwa [served, looked_printed] at sent
  have followed : followPodLogs looks ns pod c =
      ({ lasts := some (before * lookInterval), answer := (print c' (logLines response.body)).1 },
        (print c' (logLines response.body)).2) := by
    rw [followPodLogs_eq, starts, carryOut, copyLogs, served]
  rw [followed]
  obtain ⟨out, copied, stdout⟩ := print_copied response.body c'
  refine ⟨out, copied, rfl, ?_, copied.verbatim_iff, fun chunks whole => ?_⟩
  · rw [stdout, Connection.stdout, Connection.stdout, same]
  · rw [copyChunks_eq c' List.not_mem_nil, List.nil_append, whole]

end

end Client

/-- A cluster that answers with one body after another. -/
structure Answering where
  bodies : List Bytes

instance : Transport Answering where
  send cluster _ :=
    match cluster.bodies with
    | [] => (.error "no answer", cluster)
    | body :: bodies => (.ok ⟨200, body⟩, ⟨bodies⟩)

/-- A pod that runs, and its log. -/
def Answering.running (log : Bytes) : Connection Answering where
  transport := ⟨[
    Text.Utf8.encode (Json.text (.object [
      ("status", .object [("containerStatuses", .array [PodStart.sidecar])])])),
    log]⟩

namespace Client

open Text.Utf8 (encode)

/-- A log of which the last line is open gets an end. -/
theorem printed_verbatim_iff_plain :
    let c := Answering.running (encode "ä\nb")
    decision 0 (looksAt "vip" "pod-1" 1 c) = .logs 0 ∧
      ∃ out, (followPodLogs 1 "vip" "pod-1" c).2.stdout = out ∧ Verbatim (encode "ä\nb") out := by
  intro c
  have starts : decision 0 (looksAt "vip" "pod-1" 1 c) = .logs 0 := by decide +kernel
  have served : send .get (named pods "vip" "pod-1" "/log?follow=true") none
      (looked "vip" "pod-1" 1 c) = (.ok ⟨200, encode "ä\nb"⟩, _) :=
    Prod.ext (by decide +kernel) rfl
  obtain ⟨out, -, -, stdout, verbatim, -⟩ := printed_verbatim_iff starts served
  exact ⟨starts, out, stdout, verbatim.2 ⟨⟨_, rfl⟩, by decide⟩⟩

/-- Carriage returns at the ends of lines are lost, and all that follows a line that is no text. -/
theorem not_verbatim :
    let stdout log := (followPodLogs 1 "vip" "pod-1" (Answering.running log)).2.stdout
    (stdout (encode "a\r\nb\r\n") = encode "a\nb\n" ∧
        ¬ Verbatim (encode "a\r\nb\r\n") (stdout (encode "a\r\nb\r\n"))) ∧
      stdout [0x61, 0x0A, 0xFF, 0x0A, 0x62, 0x0A] = [0x61, 0x0A] ∧
        ¬ Verbatim [0x61, 0x0A, 0xFF, 0x0A, 0x62, 0x0A]
          (stdout [0x61, 0x0A, 0xFF, 0x0A, 0x62, 0x0A]) := by
  decide +kernel

end Client

end Acceptance.Cluster
