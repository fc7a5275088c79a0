import Acceptance.Proofs.Sampling
import Acceptance.Proofs.Utf8
import Mathlib.Order.Bounds.Basic

/-!
# Random bytes in buffers

Random bytes come in buffers, and it does not matter where one ends and the next begins: no byte
that is used gets lost between them, and none is used twice.

* `Password.accepted`, `Password.image`: the bytes that are used, and what they stand for;
* `Password.fill_fill`: to go on with more bytes is to fill from all bytes at once;
* `Password.fillFrom_buffers`: so it is with one buffer after another, until the text is full;
* `Password.unbuffered`: what the bytes in buffers make, and how many buffers are drawn.
-/

namespace Acceptance.Password

/-! ## Bytes that are used -/

/-- The bytes that are used. -/
def accepted (bytes : List UInt8) : List UInt8 := bytes.filter (·.toNat < acceptBelow)

/-- The character that a byte stands for. -/
def image (b : UInt8) : Char :=
  alphabet.get ⟨b.toNat % alphabet.length, Nat.mod_lt _ (by decide)⟩

theorem accepted_append (a b : List UInt8) : accepted (a ++ b) = accepted a ++ accepted b :=
  List.filter_append a b

theorem symbol?_eq (b : UInt8) :
    symbol? b = if b.toNat < acceptBelow then some (image b) else none := by
  rw [symbol?, image, List.get_eq_getElem, List.getElem?_eq_getElem]

theorem symbols_eq (bytes : List UInt8) : symbols bytes = (accepted bytes).map image := by
  induction bytes with
  | nil => rfl
  | cons b rest ih =>
    rw [symbols] at ih ⊢
    by_cases used : b.toNat < acceptBelow
    · rw [List.filterMap_cons_some (by rw [symbol?_eq, if_pos used]), accepted,
        List.filter_cons_of_pos (by simpa using used), List.map_cons, ih, accepted]
    · rw [List.filterMap_cons_none (by rw [symbol?_eq, if_neg used]), accepted,
        List.filter_cons_of_neg (by simpa using used), ih, accepted]

theorem symbols_append (a b : List UInt8) : symbols (a ++ b) = symbols a ++ symbols b :=
  List.filterMap_append

/-! ## More bytes -/

/-- A text that is filled twice is filled from all bytes at once, where the second time it is known
how long it has become. -/
theorem fill_fill {target size grown : Nat} (room : size ≤ target) (out : List Char)
    (a b : List UInt8) (reached : grown = size + ((symbols a).take (target - size)).length) :
    fill target grown (fill target size out a) b = fill target size out (a ++ b) := by
  rw [List.length_take] at reached
  have left : target - grown = target - size - (symbols a).length := by omega
  rw [fill_eq room, fill_eq room, fill_eq (by omega), left, symbols_append, List.take_append,
    List.append_assoc]

theorem length_fill (target : Nat) (bytes : List UInt8) :
    (fill target 0 [] bytes).length = min target (accepted bytes).length := by
  rw [fill_eq (Nat.zero_le _), List.nil_append, List.length_take, symbols_eq, List.length_map,
    Nat.sub_zero]

variable {out : String} {target : Nat}

theorem extend_eq (room : out.utf8ByteSize ≤ target) (bytes : List UInt8) :
    extend out bytes target =
      out ++ String.ofList ((symbols bytes).take (target - out.utf8ByteSize)) := by
  rw [← String.toList_inj, extend, fill_eq room, String.toList_append, String.toList_ofList,
    String.toList_ofList]

/-- All that is written is ASCII, so that the text grows by one byte for each character. -/
theorem utf8ByteSize_extend (room : out.utf8ByteSize ≤ target) (bytes : List UInt8) :
    (extend out bytes target).utf8ByteSize =
      out.utf8ByteSize + ((symbols bytes).take (target - out.utf8ByteSize)).length := by
  have ascii : alphabet.all fun c => c.toNat < 0x80 := by decide
  rw [extend_eq room, String.utf8ByteSize_append, Text.Utf8.utf8ByteSize_of_ascii]
  intro c hc
  have member : c ∈ alphabet := mem_symbols (List.mem_of_mem_take hc)
  simpa only [decide_eq_true_eq] using List.all_eq_true.1 ascii c member

theorem extend_extend (room : out.utf8ByteSize ≤ target) (a b : List UInt8) :
    extend (extend out a target) b target = extend out (a ++ b) target := by
  rw [extend, utf8ByteSize_extend room, extend, String.toList_ofList, fill_fill room _ _ _ rfl,
    extend]

theorem utf8ByteSize_extend_le (room : out.utf8ByteSize ≤ target) (bytes : List UInt8) :
    (extend out bytes target).utf8ByteSize ≤ target := by
  rw [utf8ByteSize_extend room, List.length_take]
  omega

/-! ## One buffer after another -/

/-- What the random source gives at a time. -/
abbrev Buffer := Vector UInt8 bufferSize

/-- The bytes of some buffers, in order. -/
def contents (buffers : List Buffer) : List UInt8 := buffers.flatMap Vector.toList

/-- The bytes of the first `n` buffers that the random source gives. -/
def drawn (source : Nat → Buffer) (n : Nat) : List UInt8 := contents ((List.range n).map source)

theorem fillFrom_full {entropy : List UInt8} {text : List Char} (full : length ≤ text.length) :
    fillFrom text entropy = some (text, entropy) := by
  rw [fillFrom, if_pos full]

/-- A buffer goes on where the bytes before it have stopped. -/
theorem fillFrom_buffer {before : List UInt8} (short : (accepted before).length < length)
    (buffer : Buffer) (more : List UInt8) :
    fillFrom (fill length 0 [] before) (buffer.toList ++ more) =
      fillFrom (fill length 0 [] (before ++ buffer.toList)) more := by
  have size : buffer.toList.length = bufferSize := buffer.length_toList
  have grown : (fill length 0 [] before).length =
      0 + ((symbols before).take (length - 0)).length := by
    rw [fill_eq (Nat.zero_le _), List.nil_append, Nat.zero_add]
  rw [fillFrom, if_neg (by rw [length_fill]; omega), if_neg (by rw [List.length_append]; omega),
    List.take_left' size, List.drop_left' size, fill_fill (Nat.zero_le _) _ _ _ grown]

/-- Buffers are drawn until the text is full, and what is written is what all their bytes give at
once. -/
theorem fillFrom_buffers {buffers : List Buffer} {before : List UInt8} (more : List UInt8)
    (short : ∀ k < buffers.length,
      (accepted (before ++ contents (buffers.take k))).length < length)
    (full : length ≤ (accepted (before ++ contents buffers)).length) :
    fillFrom (fill length 0 [] before) (contents buffers ++ more) =
      some (fill length 0 [] (before ++ contents buffers), more) := by
  -- By the number of buffers that are still to come, whatever came before them.
  induction buffers generalizing before with
  | nil =>
    rw [contents, List.flatMap_nil, List.append_nil] at full ⊢
    rw [List.nil_append, fillFrom_full (by rw [length_fill]; omega)]
  | cons buffer buffers ih =>
    have first : (accepted before).length < length := by
      simpa [contents] using short 0 (by simp)
    have split : contents (buffer :: buffers) = buffer.toList ++ contents buffers :=
      List.flatMap_cons
    rw [split, ← List.append_assoc] at full ⊢
    rw [List.append_assoc, fillFrom_buffer first, ih ?_ full]
    intro k hk
    have later := short (k + 1) (by simpa using hk)
    rwa [List.take_succ_cons, contents, List.flatMap_cons, ← List.append_assoc] at later

theorem drawn_add (source : Nat → Buffer) (n k : Nat) :
    drawn source (n + k) =
      drawn source n ++ contents ((List.range k).map fun i => source (n + i)) := by
  rw [drawn, List.range_add, List.map_append, List.map_map, contents, List.flatMap_append]
  rfl

/-- The bytes that are used first stay the same, however many buffers follow. -/
theorem take_accepted_drawn {source : Nat → Buffer} {n m : Nat} (later : n ≤ m)
    (full : length ≤ (accepted (drawn source n)).length) :
    (accepted (drawn source m)).take length = (accepted (drawn source n)).take length := by
  obtain ⟨k, rfl⟩ := Nat.exists_eq_add_of_le later
  rw [drawn_add, accepted_append, List.take_append_of_le_length full]

/-- A password is made of the first buffers that have enough bytes. -/
theorem generate_drawn {source : Nat → Buffer} {n : Nat}
    (least : IsLeast {n | length ≤ (accepted (drawn source n)).length} n) (more : List UInt8) :
    generate (drawn source n ++ more) =
      some (String.ofList (((accepted (drawn source n)).take length).map image), more) := by
  have short : ∀ k < ((List.range n).map source).length,
      (accepted ([] ++ contents (((List.range n).map source).take k))).length < length := by
    intro k hk
    rw [List.length_map, List.length_range] at hk
    rw [List.nil_append, ← List.map_take, List.take_range, Nat.min_eq_left hk.le]
    exact Nat.lt_of_not_le fun full => hk.not_ge (least.2 full)
  have filled : fillFrom (fill length 0 [] []) (drawn source n ++ more) =
      some (fill length 0 [] ([] ++ drawn source n), more) := fillFrom_buffers more short least.1
  rw [fill, List.nil_append, fill_eq (Nat.zero_le _)] at filled
  rw [generate, filled, symbols_eq, List.map_take]
  rfl

/-- It does not matter how random bytes are cut: a text that is continued with some bytes, and then
with others, is continued as with all of them at once. It goes on with what there was and does not
outgrow its target. A password takes no more buffers than it needs for as many bytes that are used
as it has characters, and stands for the first of these bytes. -/
theorem unbuffered :
    (∀ (out : String) (target : Nat), out.utf8ByteSize ≤ target → ∀ a b : List UInt8,
      extend (extend out a target) b target = extend out (a ++ b) target ∧
      out.toList <+: (extend out a target).toList ∧
      (extend out a target).utf8ByteSize ≤ target) ∧
    ∀ source : Nat → Buffer, (∃ n, length ≤ (accepted (drawn source n)).length) →
      ∃ n, IsLeast {n | length ≤ (accepted (drawn source n)).length} n ∧
        ∀ m ≥ n, ∀ more, generate (drawn source n ++ more) =
          some (String.ofList (((accepted (drawn source m)).take length).map image), more) := by
  refine ⟨fun out target room a b => ⟨extend_extend room a b, ?_, utf8ByteSize_extend_le room a⟩,
    fun source enough => ?_⟩
  · rw [extend_eq room, String.toList_append]
    exact List.prefix_append _ _
  · classical
    have least : IsLeast {n | length ≤ (accepted (drawn source n)).length} (Nat.find enough) :=
      ⟨Nat.find_spec enough, fun n full => Nat.find_min' enough full⟩
    refine ⟨Nat.find enough, least, fun m later more => ?_⟩
    rw [take_accepted_drawn later least.1]
    exact generate_drawn least more

/-- A random source of whose bytes every third is used. -/
def sparse (i : Nat) : Buffer :=
  ⟨⟨(List.range bufferSize).map fun j => if j % 3 = 0 then UInt8.ofNat (64 * i + j) else 255⟩, by
    simp⟩

/-- One of its buffers is too short for a password, and two are enough. -/
theorem unbuffered_sparse : "é".utf8ByteSize ≤ 4 ∧
    extend (extend "é" [255, 0, 250] 4) [61, 1] 4 = extend "é" [255, 0, 250, 61, 1] 4 ∧
    IsLeast {n | length ≤ (accepted (drawn sparse n)).length} 2 ∧
    ∀ more, generate (drawn sparse 2 ++ more) =
      some ("ADGJMPSVYbehknqtwz258BCFILORUXad", more) := by
  obtain ⟨continued, made⟩ := unbuffered
  have room : "é".utf8ByteSize ≤ 4 := by decide
  have enough : length ≤ (accepted (drawn sparse 2)).length := by decide +kernel
  have word : String.ofList (((accepted (drawn sparse 2)).take length).map image) =
      "ADGJMPSVYbehknqtwz258BCFILORUXad" := by decide +kernel
  obtain ⟨n, least, password⟩ := made sparse ⟨2, enough⟩
  obtain rfl : n = 2 := by
    refine le_antisymm (least.2 enough) ?_
    rcases n with _ | _ | n
    · exact absurd least.1 (Nat.not_le.2 (by decide +kernel))
    · exact absurd least.1 (Nat.not_le.2 (by decide +kernel))
    · omega
  exact ⟨room, (continued "é" 4 room _ _).1, least, fun more => word ▸ password 2 le_rfl more⟩

end Acceptance.Password
