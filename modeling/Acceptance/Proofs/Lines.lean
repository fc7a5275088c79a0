import Acceptance.Cluster.Log
import Acceptance.Proofs.Secrets

/-!
# Lines

The lines of what a pod prints, as they come in bytes.

* `Cluster.isText_split`: text is text on both sides of an ASCII byte, so that every line of it is;
* `Cluster.lines_induction`, `Cluster.logLines_more`: bytes are taken line by line;
* `Cluster.Client.copyChunks_eq`: how a stream is cut into chunks does not matter to what is printed
  of it.
-/

namespace Acceptance.Cluster

open Text.Utf8
  (Bytes beyond_of_encodes encode_ascii encode_byte encode_eq encode_ofList encodes_char)
open Holding (IsText)

/-! ## Text around an ASCII byte -/

/-- A character with an ASCII byte in it is no more than that byte. -/
theorem encode_around {b : UInt8} (ascii : b.toNat < 0x80) {c : Char} {x y : Bytes}
    (h : String.utf8EncodeChar c = x ++ b :: y) : x = [] ∧ y = [] := by
  have near : c.toNat < 0x80 := Nat.lt_of_not_le fun far => by
    have beyond := beyond_of_encodes (encodes_char c) far b (h ▸ by simp)
    omega
  rw [encode_ascii near, eq_comm, List.append_eq_singleton_iff] at h
  rcases h with ⟨rfl, same⟩ | ⟨-, same⟩
  · exact ⟨rfl, (List.cons.inj same).2⟩
  · cases same

/-- An ASCII byte stands between two texts wherever it stands in a text. -/
theorem isText_split {b : UInt8} (ascii : b.toNat < 0x80) (x y : Bytes) :
    IsText (x ++ b :: y) ↔ IsText x ∧ IsText y := by
  constructor
  · rintro ⟨s, whole⟩
    rw [encode_eq] at whole
    generalize s.toList = cs at whole
    induction cs generalizing x with
    | nil => simp at whole
    | cons c cs ih =>
      rw [List.flatMap_cons] at whole
      have later : ∀ x', x = String.utf8EncodeChar c ++ x' →
          x' ++ b :: y = cs.flatMap String.utf8EncodeChar → IsText x ∧ IsText y := by
        rintro x' rfl rest
        obtain ⟨⟨t, rfl⟩, text⟩ := ih x' rest
        refine ⟨⟨String.ofList [c] ++ t, ?_⟩, text⟩
        simp [encode_eq, String.toList_append]
      rcases List.append_eq_append_iff.1 whole with ⟨x', chars, rest⟩ | ⟨x', same, rest⟩
      · cases x' with
        | nil => exact later [] (by simpa using chars.symm) rest
        | cons b' x' =>
          obtain ⟨rfl, behind⟩ := List.cons.inj rest
          obtain ⟨rfl, rfl⟩ := encode_around ascii chars
          exact ⟨⟨"", rfl⟩, String.ofList cs, behind.trans (encode_ofList cs).symm⟩
      · exact later x' same rest.symm
  · rintro ⟨⟨s, rfl⟩, t, rfl⟩
    refine ⟨s ++ String.ofList [Char.ofNat b.toNat] ++ t, ?_⟩
    simp [encode_eq, String.toList_append, encode_byte ascii]

/-! ## Lines -/

/-- What ends a line. -/
abbrev lineFeed : UInt8 := 0x0A

abbrev carriageReturn : UInt8 := 0x0D

/-- A line that is over, without the carriage return at its end. -/
def chomp (line : Bytes) : Bytes :=
  if line.getLast? = some carriageReturn then line.dropLast else line

/-- Bytes are one line after another, the last of which need not be over. -/
theorem lines_induction {P : Bytes → Prop} (last : ∀ line, lineFeed ∉ line → P line)
    (more : ∀ line rest, lineFeed ∉ line → P rest → P (line ++ lineFeed :: rest)) (bytes : Bytes) :
    P bytes := by
  induction size : bytes.length using Nat.strongRecOn generalizing bytes with
  | ind size ih =>
    by_cases ends : lineFeed ∈ bytes
    · obtain ⟨line, rest, rfl, uncut⟩ := List.eq_append_cons_of_mem ends
      refine more line rest uncut (ih rest.length ?_ rest rfl)
      simp only [← size, List.length_append, List.length_cons]
      omega
    · exact last bytes ends

theorem foldl_step_line {line : Bytes} (uncut : lineFeed ∉ line) (before : List Bytes)
    (start : Bytes) :
    line.foldl logLines.step (before, start) = (before, line.reverse ++ start) := by
  induction line generalizing start with
  | nil => rfl
  | cons b line ih =>
    obtain ⟨other, uncut⟩ := not_or.1 (mt List.mem_cons.2 uncut)
    have step : logLines.step (before, start) b = (before, b :: start) := by
      simp [logLines.step, Ne.symm other]
    rw [List.foldl_cons, step, ih uncut]
    simp

/-- The lines before have no part in what follows. -/
theorem finish_foldl_step (bytes : Bytes) (before : List Bytes) (start : Bytes) :
    logLines.finish (bytes.foldl logLines.step (before, start)) =
      before.reverse ++ logLines.finish (bytes.foldl logLines.step ([], start)) := by
  induction bytes generalizing before start with
  | nil =>
    cases start <;> simp [logLines.finish]
  | cons b bytes ih =>
    rw [List.foldl_cons, List.foldl_cons, logLines.step, logLines.step]
    split
    · rw [ih, ih [_]]
      simp
    · exact ih _ _

theorem logLines_last {line : Bytes} (uncut : lineFeed ∉ line) :
    logLines line = if line = [] then [] else [line] := by
  rw [logLines, foldl_step_line uncut]
  cases line <;> simp [logLines.finish]

theorem logLines_more {line : Bytes} (uncut : lineFeed ∉ line) (rest : Bytes) :
    logLines (line ++ lineFeed :: rest) = chomp line :: logLines rest := by
  have ended : logLines.step ([], line.reverse ++ []) lineFeed = ([chomp line], []) := by
    by_cases returned : line.getLast? = some carriageReturn <;>
      simp [logLines.step, chomp, returned]
  rw [logLines, List.foldl_append, foldl_step_line uncut, List.foldl_cons, ended, finish_foldl_step]
  rfl

/-! ## Chunks -/

/-- The lines that a chunk ends, and what it leaves open. `held` is what came before of the first of
them. -/
def feed (held : Bytes) : Bytes → List Bytes × Bytes
  | [] => ([], held)
  | b :: chunk =>
    if b = lineFeed then (chomp held :: (feed [] chunk).1, (feed [] chunk).2)
    else feed (held ++ [b]) chunk

theorem uncut_feed {held : Bytes} (uncut : lineFeed ∉ held) (chunk : Bytes) :
    lineFeed ∉ (feed held chunk).2 := by
  induction chunk generalizing held with
  | nil => exact uncut
  | cons b chunk ih =>
    rw [feed]
    split
    · exact ih List.not_mem_nil
    · rename_i other
      exact ih (List.not_mem_append uncut (by simpa using Ne.symm other))

/-- The lines of a stream are those that its first chunk ends, and then those of the rest. -/
theorem logLines_feed {held : Bytes} (uncut : lineFeed ∉ held) (chunk more : Bytes) :
    logLines (held ++ (chunk ++ more)) =
      (feed held chunk).1 ++ logLines ((feed held chunk).2 ++ more) := by
  induction chunk generalizing held with
  | nil => rfl
  | cons b chunk ih =>
    rw [feed]
    split
    · rename_i ends
      rw [ends, List.cons_append, logLines_more uncut, List.cons_append]
      exact congrArg _ (ih List.not_mem_nil)
    · rename_i other
      rw [← ih (List.not_mem_append uncut (by simpa using Ne.symm other))]
      simp

namespace Client

variable {τ : Type}

/-- Prints the lines of a stream that comes in chunks, each as soon as it is over. `held` is what
has come of a line that is not. -/
def copyChunks (c : Connection τ) (held : Bytes) : List Bytes → Except Error Unit × Connection τ
  | [] => print c (if held = [] then [] else [held])
  | chunk :: chunks =>
    match print c (feed held chunk).1 with
    | (.ok (), c) => copyChunks c (feed held chunk).2 chunks
    | (.error e, c) => (.error e, c)

theorem print_cons (c : Connection τ) (line : Bytes) (rest : List Bytes) :
    print c (line :: rest) = match print c [line] with
      | (.ok (), c) => print c rest
      | (.error e, c) => (.error e, c) := by
  simp only [print]
  cases Text.Utf8.decode? line <;> rfl

theorem print_append (c : Connection τ) (lines rest : List Bytes) :
    print c (lines ++ rest) = match print c lines with
      | (.ok (), c) => print c rest
      | (.error e, c) => (.error e, c) := by
  induction lines generalizing c with
  | nil => rfl
  | cons line lines ih =>
    rw [List.cons_append, print_cons, print_cons c line lines]
    match print c [line] with
    | (.ok (), c) => exact ih c
    | (.error _, _) => rfl

/-- How a stream is cut does not matter. -/
theorem copyChunks_eq (c : Connection τ) {held : Bytes} (uncut : lineFeed ∉ held)
    (chunks : List Bytes) :
    copyChunks c held chunks = print c (logLines (held ++ chunks.flatten)) := by
  induction chunks generalizing c held with
  | nil => rw [copyChunks, List.flatten_nil, List.append_nil, logLines_last uncut]
  | cons chunk chunks ih =>
    rw [copyChunks, List.flatten_cons, logLines_feed uncut, print_append]
    match print c (feed held chunk).1 with
    | (.ok (), c) => exact ih c (uncut_feed uncut chunk)
    | (.error _, _) => rfl

end Client

end Acceptance.Cluster
