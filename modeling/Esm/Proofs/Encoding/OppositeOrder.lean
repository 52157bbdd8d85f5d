-- SUMMARY: A module read in the byte order it was not written in is refused, unless it is empty.
import Esm.Proofs.Encoding.Delimited

/-!
# The opposite byte order

Nothing in the bytes of a module tells their order. But the first count or length that is not zero
gives them away: with its bytes turned around it is larger than all that a module of less than 65536
bytes can hold. So such a module is refused in the opposite order, at the end of that count, and only
the module without a name, an interface and code is the same in both orders.
-/

namespace Esm

/-- The other byte order. -/
def ByteOrder.opposite : ByteOrder → ByteOrder
  | .native => .swapped
  | .swapped => .native

namespace Encoding

open Reader

/-- The number of a word whose bytes are those of `n`, a number of two bytes, in the opposite order. -/
def turned (n : Nat) : Nat := 65536 * (n / 256 + 256 * (n % 256))

theorem turned_lt {n : Nat} (small : n < 65536) : turned n < UInt32.size := by
  unfold turned
  show _ < 4294967296
  omega

theorem le_turned {n : Nat} (some_ : n ≠ 0) : 65536 ≤ turned n := by
  unfold turned
  omega

theorem count_opposite (order : ByteOrder) {n : Nat} (small : n < 65536) :
    count order n = count order.opposite (turned n) := by
  have word : (UInt32.ofNat n).toNat = n :=
    UInt32.toNat_ofNat_of_lt (Nat.lt_trans small (by decide))
  have word' : (UInt32.ofNat (turned n)).toNat = turned n :=
    UInt32.toNat_ofNat_of_lt (turned_lt small)
  have low : n % 256 < 256 := Nat.mod_lt n (by decide)
  have high : n / 256 < 256 := by omega
  have whole : n = 256 * (n / 256) + n % 256 := (Nat.div_add_mod n 256).symm
  unfold turned at word'
  unfold count turned
  generalize n / 256 = b at *
  generalize n % 256 = a at *
  have second : (256 * b + a) / 256 = b := by omega
  have third : (256 * b + a) / 65536 = 0 := by omega
  have fourth : (256 * b + a) / 16777216 = 0 := by omega
  have top : 65536 * (b + 256 * a) / 65536 = b + 256 * a := by omega
  have top' : 65536 * (b + 256 * a) / 16777216 = a := by omega
  rw [whole] at word ⊢
  cases order with
  | native =>
    simp only [ByteOrder.bytes, ByteOrder.opposite, word, word', second, third, fourth, top,
      top', List.cons.injEq, and_true, ← UInt8.toNat_inj, UInt8.toNat_ofNat']
    omega
  | swapped =>
    simp only [ByteOrder.bytes, ByteOrder.opposite, word, word', second, third, fourth, top,
      top', List.cons.injEq, and_true, ← UInt8.toNat_inj, UInt8.toNat_ofNat']
    omega

-- ---------------------------------------------------------------------------
-- Readers that start with a count
-- ---------------------------------------------------------------------------

/-- A reader that takes a count first: with a count of zero it takes `none` and no more, and a count
that exceeds the number of bytes behind it is refused. -/
structure Counts {α : Type} (order : ByteOrder) (read : Reader α) (none : α) : Prop where
  zero : ∀ rest offset, read ⟨count order 0 ++ rest, offset⟩ = .ok (none, ⟨rest, offset + 4⟩)
  refused : ∀ {n rest}, n < UInt32.size → rest.length < n → ∀ offset,
    read ⟨count order n ++ rest, offset⟩ = .error (.truncated (offset + 4))

section

variable {α β : Type} {read : Reader α} {next : α → Reader β} {i j : Input} {a : α} {e : Fault}

theorem bind_of_ok (call : read i = .ok (a, j)) : (read >>= next) i = next a j := by
  show Except.bind (read i) _ = _
  rw [call]
  rfl

theorem bind_of_error (call : read i = .error e) : (read >>= next) i = .error e := by
  show Except.bind (read i) _ = _
  rw [call]
  rfl

end

theorem toNat_word {n : Nat} (word : n < UInt32.size) : (UInt32.ofNat n).toNat = n :=
  UInt32.toNat_ofNat_of_lt word

theorem readWord_count (order : ByteOrder) (n : Nat) (rest : List UInt8) (offset : Nat) :
    readWord order ⟨count order n ++ rest, offset⟩ =
      .ok (UInt32.ofNat n, ⟨rest, offset + 4⟩) := by
  have splits : Splits ⟨count order n ++ rest, offset⟩ (count order n) ⟨rest, offset + 4⟩ :=
    ⟨rfl, by rw [length_count]⟩
  exact (accepts_readWord order _ _ _).2 ⟨splits, trivial⟩

theorem readHeader_ok (rest : List UInt8) :
    readHeader ⟨mark ++ ([version] ++ rest), 0⟩ = .ok ((), ⟨rest, 5⟩) :=
  (accepts_readHeader _ _ _).2 ⟨⟨rfl, rfl⟩, trivial⟩

theorem take_refused {n : Nat} {i : Input} (short : i.rest.length < n) :
    take n i = .error (.truncated i.offset) := by
  unfold take
  cases split : splitExactly n i.rest with
  | none => rfl
  | some p =>
    obtain ⟨taken, left⟩ := p
    obtain ⟨whole, length⟩ := splitExactly_eq_some.1 split
    have le := congrArg List.length whole
    rw [List.length_append, length] at le
    omega

theorem counts_readString (order : ByteOrder) : Counts order (readString order) "" where
  zero := fun rest offset => bind_of_ok (readWord_count order 0 rest offset)
  refused := by
    intro n rest word short offset
    unfold readString
    rw [bind_of_ok (readWord_count order n rest offset), toNat_word word]
    exact bind_of_error (take_refused short)

/-- A counted list whose elements take at least one byte each. -/
theorem counts_many {α : Type} (order : ByteOrder) (read : Reader α) {size : Nat}
    (large : 1 ≤ size) : Counts order (readCount order size >>= readMany read) [] where
  zero := by
    intro rest offset
    have accepted : withRoom 0 size ⟨rest, offset + 4⟩ = .ok (0, ⟨rest, offset + 4⟩) :=
      if_neg (by rw [Nat.zero_mul]; omega)
    rw [readCount_eq, bind_assoc, bind_of_ok (readWord_count order 0 rest offset)]
    exact bind_of_ok accepted
  refused := by
    intro n rest word short offset
    have refused : withRoom n size ⟨rest, offset + 4⟩ = .error (.truncated (offset + 4)) :=
      if_pos (Nat.lt_of_lt_of_le short (Nat.le_mul_of_pos_right n large))
    rw [readCount_eq, bind_assoc, bind_of_ok (readWord_count order n rest offset), toNat_word word]
    exact bind_of_error refused

theorem counts_readStrings (order : ByteOrder) : Counts order (readStrings order) [] :=
  counts_many order (readString order) (by decide)

theorem counts_readInstructions (order : ByteOrder) (atoms : Nat) :
    Counts order (readInstructions order atoms) [] :=
  counts_many order (readInstruction order atoms) (by decide)

/-- A count in the opposite order: zero is zero, and any other is refused. -/
theorem Counts.turned {α β : Type} {order : ByteOrder} {read : Reader α} {none : α}
    (counts : Counts order.opposite read none) (next : α → Reader β) {n : Nat}
    {behind : List UInt8} (small : n < 65536) (short : behind.length < 65536) (offset : Nat) :
    (read >>= next) ⟨count order n ++ behind, offset⟩ =
      if n = 0 then next none ⟨behind, offset + 4⟩ else .error (.truncated (offset + 4)) := by
  rw [count_opposite order small]
  by_cases zero : n = 0
  · subst zero
    rw [if_pos rfl]
    exact bind_of_ok (counts.zero behind offset)
  · have large := le_turned zero
    rw [if_neg zero]
    exact bind_of_error (counts.refused (turned_lt small) (by omega) offset)

end Encoding

namespace Module

open Encoding Encoding.Reader

/-- The counts and lengths of a module in the order in which they are written, but for those of the
single strings in its lists. -/
def counts (m : Module) : List Nat :=
  [(utf8 m.name).length, m.interface.requests.length, m.interface.exports.length,
    m.interface.starExports.length, m.code.atoms.length, m.code.instructions.length]

/-- The module without a name, an interface and code. -/
def blank : Module := ⟨"", ⟨[], [], []⟩, ⟨[], []⟩⟩

theorem eq_blank_of_counts {m : Module} (none : ∀ n ∈ m.counts, n = 0) : m = blank := by
  obtain ⟨name, ⟨requests, exports, stars⟩, ⟨atoms, instructions⟩⟩ := m
  simp only [counts, List.forall_mem_cons, List.length_eq_zero_iff] at none
  obtain ⟨unnamed, rfl, rfl, rfl, rfl, rfl, -⟩ := none
  have empty : name = "" := by
    have same : utf8 name = utf8 "" := unnamed
    exact Option.some.inj (by rw [← ofUtf8?_utf8 name, same, ofUtf8?_utf8])
  rw [empty]
  rfl

/-- No count or length exceeds the number of bytes. -/
theorem counts_le (m : Module) (order : ByteOrder) :
    ∀ n ∈ m.counts, n ≤ (m.encode order).length := by
  have strings_ (ss : List String) : ss.length ≤ (ss.flatMap (string order)).length := by
    have large : ∀ s, 1 ≤ (string order s).length := by
      intro s
      rw [string, List.length_append, length_count]
      omega
    have := length_flatMap_le large ss
    omega
  have instructions_ (is : List Instruction) :
      is.length ≤ (is.flatMap (instruction order)).length := by
    have large : ∀ i, 1 ≤ (instruction order i).length := by
      intro i
      rw [instruction, List.length_cons]
      omega
    have := length_flatMap_le large is
    omega
  have requests := strings_ m.interface.requests
  have exports := strings_ m.interface.exports
  have stars := strings_ m.interface.starExports
  have atoms := strings_ m.code.atoms
  have instructions := instructions_ m.code.instructions
  simp only [counts, List.forall_mem_cons, encode, string, strings, Encoding.instructions,
    List.length_append]
  refine ⟨?_, ?_, ?_, ?_, ?_, ?_, List.forall_mem_nil _⟩ <;> omega

/-- In the opposite order the first count that is not zero is refused. -/
theorem readParts_opposite (m : Module) (order : ByteOrder)
    (size : (m.encode order).length < 65536) :
    readParts order.opposite ⟨m.encode order, 0⟩ =
      match m.counts.findIdx? (· ≠ 0) with
      | none => .ok (blank, ⟨[], 29⟩)
      | some i => .error (.truncated (9 + 4 * i)) := by
  obtain ⟨name, ⟨requests, exports, stars⟩, ⟨atoms, instrs⟩⟩ := m
  have small := fun n mem => Nat.lt_of_le_of_lt (counts_le _ order n mem) size
  simp only [counts, List.forall_mem_cons] at small
  obtain ⟨n₀, n₁, n₂, n₃, n₄, n₅, -⟩ := small
  simp only [encode, string, strings, instructions, List.append_assoc, List.length_append,
    length_count] at size ⊢
  simp only [counts, List.findIdx?_cons, List.findIdx?_nil, decide_not, Bool.not_eq_true',
    decide_eq_false_iff_not, ne_eq]
  unfold readParts
  rw [bind_of_ok (readHeader_ok _), (counts_readString _).turned _ n₀
    (by simp only [List.length_append, length_count]; omega)]
  by_cases unnamed : (utf8 name).length = 0
  case neg => simp [unnamed]
  rw [if_pos unnamed, List.length_eq_zero_iff.1 unnamed, List.nil_append,
    (counts_readStrings _).turned _ n₁ (by simp only [List.length_append, length_count]; omega)]
  by_cases noRequest : requests.length = 0
  case neg => simp [noRequest]
  rw [if_pos noRequest, List.length_eq_zero_iff.1 noRequest, List.flatMap_nil, List.nil_append,
    (counts_readStrings _).turned _ n₂ (by simp only [List.length_append, length_count]; omega)]
  by_cases noExport : exports.length = 0
  case neg => simp [noExport]
  rw [if_pos noExport, List.length_eq_zero_iff.1 noExport, List.flatMap_nil, List.nil_append,
    (counts_readStrings _).turned _ n₃ (by simp only [List.length_append, length_count]; omega)]
  by_cases noStar : stars.length = 0
  case neg => simp [noStar]
  rw [if_pos noStar, List.length_eq_zero_iff.1 noStar, List.flatMap_nil, List.nil_append,
    (counts_readStrings _).turned _ n₄ (by simp only [List.length_append, length_count]; omega)]
  by_cases noAtom : atoms.length = 0
  case neg => simp [noAtom]
  rw [if_pos noAtom, List.length_eq_zero_iff.1 noAtom, List.flatMap_nil, List.nil_append,
    (counts_readInstructions _ _).turned _ n₅ (by omega)]
  by_cases noInstruction : instrs.length = 0
  case neg => simp [noInstruction]
  rw [if_pos noInstruction, List.length_eq_zero_iff.1 noInstruction]
  rfl

/-- In the opposite byte order the bytes of a module, as long as they are fewer than 65536, are read
only if the module has no name, no requests, exports and star exports, no atoms and no instructions.
They are then read as that module. Otherwise they are refused, at the end of the first count that is
not zero. -/
theorem decode_opposite (m : Module) (order : ByteOrder) (size : (m.encode order).length < 65536) :
    ((∃ m', decode order.opposite (m.encode order) = .ok m') ↔ m = blank) ∧
    (∀ m', decode order.opposite (m.encode order) = .ok m' → m' = m) ∧
    (m ≠ blank → ∃ i, m.counts.findIdx? (· ≠ 0) = some i ∧
      decode order.opposite (m.encode order) = .error (.truncated (9 + 4 * i))) := by
  rw [decode_eq_parts, readParts_opposite m order size]
  cases first : m.counts.findIdx? (· ≠ 0) with
  | none =>
    have zeros : ∀ n ∈ m.counts, n = 0 := by
      simpa using List.findIdx?_eq_none_iff.1 first
    have empty : m = blank := eq_blank_of_counts zeros
    refine ⟨⟨fun _ => empty, fun _ => ⟨blank, rfl⟩⟩, ?_, fun other => absurd empty other⟩
    rintro m' ⟨⟩
    exact empty.symm
  | some i =>
    have other : m ≠ blank := by
      rintro rfl
      cases first
    exact ⟨⟨nofun, fun empty => absurd empty other⟩, nofun, fun _ => ⟨i, rfl, rfl⟩⟩

/-- A module with nothing but requests, which no name and no code give away. -/
theorem decode_opposite_requests :
    let m : Module := ⟨"", ⟨["a", ""], [], []⟩, ⟨[], []⟩⟩
    (m.encode .native).length < 65536 ∧
      m ≠ blank ∧
      decode .swapped (m.encode .native) = .error (.truncated 13) := by
  intro m
  have size : (m.encode .native).length < 65536 := by decide
  have other : m ≠ blank := by decide
  obtain ⟨-, -, refused⟩ := decode_opposite m .native size
  obtain ⟨i, first, refused⟩ := refused other
  cases first
  exact ⟨size, other, refused⟩

end Module

end Esm
