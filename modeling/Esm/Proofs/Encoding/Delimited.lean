-- SUMMARY: The bytes of a module tell where they end, so no bytes missing or left over go unnoticed.
import Esm.Proofs.Encoding.Canonical

/-!
# Delimited bytes

Whatever a reader takes off its input, it takes because of the bytes it takes, not because of those
behind them. With more bytes behind its input it takes the same; and if its input is cut off within
what it would take, it says that the bytes end too early. So the bytes of a module cannot be cut off
anywhere, nor can anything be put behind them.
-/

namespace Esm

namespace Encoding

open Reader

/-- What a reader makes of its input if `cut` is missing at the end, where it would take `x` and leave
`j`: the same, with `cut` missing in what is left, or the input ends too early. -/
inductive CutOff {α : Type} (i : Input) (cut : List UInt8) (x : α) (j : Input) :
    Except Fault (α × Input) → Prop where
  | behind {left : List UInt8} : j.rest = left ++ cut →
    j.offset + left.length = i.offset + i.rest.length → CutOff i cut x j (.ok (x, ⟨left, j.offset⟩))
  | within {offset : Nat} : offset ≤ i.offset + i.rest.length →
    CutOff i cut x j (.error (.truncated offset))

/-- A reader that takes the same of any input that starts alike, or finds that the input ends too
early. -/
structure Delimited {α : Type} (read : Reader α) : Prop where
  extended : ∀ {i x j}, read i = .ok (x, j) → ∀ extra,
    read ⟨i.rest ++ extra, i.offset⟩ = .ok (x, ⟨j.rest ++ extra, j.offset⟩)
  cutOff : ∀ {i cut x j}, read ⟨i.rest ++ cut, i.offset⟩ = .ok (x, j) → CutOff i cut x j (read i)

-- ---------------------------------------------------------------------------
-- Sequencing
-- ---------------------------------------------------------------------------

section

variable {α β : Type}

theorem delimited_pure (a : α) : Delimited (pure a : Reader α) where
  extended := by
    rintro i x j ⟨⟩ extra
    rfl
  cutOff := by
    rintro i cut x j ⟨⟩
    exact .behind rfl rfl

/-- A reader that never succeeds is not asked for anything. -/
theorem delimited_of_fails {read : Reader α} (fails : ∀ {i x j}, read i ≠ .ok (x, j)) :
    Delimited read :=
  ⟨fun call => absurd call fails, fun call => absurd call fails⟩

theorem delimited_throw (e : Fault) : Delimited (throw e : Reader α) :=
  delimited_of_fails throw_ne_ok

theorem Delimited.bind {read : Reader α} {next : α → Reader β} (first : Delimited read)
    (second : ∀ a, Delimited (next a)) : Delimited (read >>= next) where
  extended := by
    intro i y j call extra
    obtain ⟨a, k, taken, call⟩ := bind_eq_ok.1 call
    exact bind_eq_ok.2 ⟨a, _, first.extended taken extra, (second a).extended call extra⟩
  cutOff := by
    intro i cut y j call
    obtain ⟨a, ⟨rest, offset⟩, taken, call⟩ := bind_eq_ok.1 call
    have short := first.cutOff taken
    show CutOff i cut y j (Except.bind (read i) fun p => next p.1 p.2)
    generalize read i = result at short
    cases short with
    | within early => exact .within early
    | @behind left whole place =>
      dsimp only at whole place call
      subst whole
      have short := (second a).cutOff (i := ⟨left, offset⟩) call
      show CutOff i cut y j (next a ⟨left, offset⟩)
      generalize next a ⟨left, offset⟩ = result at short
      cases short with
      | within early => exact .within (place ▸ early)
      | behind whole place' => exact .behind whole (place'.trans place)

/-- A check that does not look at the input. -/
theorem Delimited.unless {c : Prop} [Decidable c] {e : Fault} {next : Unit → Reader α}
    (passed : Delimited (next ())) : Delimited (if c then throw e >>= next else next ()) := by
  by_cases h : c
  · rw [if_pos h]
    exact (delimited_throw e).bind fun _ => passed
  · rw [if_neg h]
    exact passed

end

-- ---------------------------------------------------------------------------
-- Readers
-- ---------------------------------------------------------------------------

theorem delimited_take (n : Nat) : Delimited (take n) where
  extended := by
    intro i taken j call extra
    obtain ⟨⟨whole, offset⟩, length⟩ := take_eq_ok.1 call
    refine take_eq_ok.2 ⟨⟨?_, offset⟩, length⟩
    rw [whole, List.append_assoc]
  cutOff := by
    intro i cut taken j call
    obtain ⟨⟨whole, offset⟩, length⟩ := take_eq_ok.1 call
    dsimp only at whole offset
    unfold take
    cases split : splitExactly n i.rest with
    | none => exact .within (Nat.le_add_right _ _)
    | some p =>
      obtain ⟨taken', left⟩ := p
      obtain ⟨here, length'⟩ := splitExactly_eq_some.1 split
      rw [← here, List.append_assoc] at whole
      obtain ⟨rfl, behind⟩ := List.append_inj whole (length'.trans length.symm)
      rw [length] at offset
      rw [show i.offset + n = j.offset from offset.symm]
      refine .behind behind.symm ?_
      rw [← here, List.length_append, offset, length', Nat.add_assoc]

theorem delimited_readByte : Delimited readByte where
  extended := by
    rintro ⟨rest, offset⟩ b j call extra
    cases rest with
    | nil => cases call
    | cons a rest =>
      cases call
      rfl
  cutOff := by
    rintro ⟨rest, offset⟩ cut b j call
    cases rest with
    | nil => exact .within (Nat.le_add_right _ _)
    | cons a rest =>
      cases call
      exact .behind rfl (by simp only [List.length_cons]; omega)

theorem delimited_readWord (order : ByteOrder) : Delimited (readWord order) where
  extended := by
    rintro ⟨rest, offset⟩ w j call extra
    match rest, call with
    | a :: b :: c :: d :: rest, rfl => rfl
  cutOff := by
    rintro ⟨rest, offset⟩ cut w j call
    match rest, call with
    | [], _ => exact .within (Nat.le_add_right _ _)
    | [_], _ => exact .within (Nat.le_add_right _ _)
    | [_, _], _ => exact .within (Nat.le_add_right _ _)
    | [_, _, _], _ => exact .within (Nat.le_add_right _ _)
    | a :: b :: c :: d :: rest, rfl =>
      exact .behind rfl (by simp only [List.length_cons]; omega)

/-- A count of elements that take at least `size` bytes each, if the rest can hold them. -/
def withRoom (n size : Nat) : Reader Nat := fun i =>
  if n * size > i.rest.length then .error (.truncated i.offset) else .ok (n, i)

theorem readCount_eq (order : ByteOrder) (size : Nat) :
    readCount order size = (do withRoom (← readWord order).toNat size) := by
  unfold readCount
  refine bind_congr fun w => funext fun i => ?_
  show (if w.toNat * size > i.rest.length then _ else _ : Reader Nat) i = withRoom w.toNat size i
  unfold withRoom
  split <;> rfl

/-- The bytes that a count asks for may be missing: then the count itself is refused. -/
theorem delimited_withRoom (n size : Nat) : Delimited (withRoom n size) where
  extended := by
    intro i x j call extra
    unfold withRoom at call ⊢
    split at call
    · cases call
    · rename_i room
      cases call
      rw [if_neg (by rw [List.length_append]; omega)]
  cutOff := by
    intro i cut x j call
    unfold withRoom at call ⊢
    split at call
    · cases call
    · cases call
      split
      · exact .within (Nat.le_add_right _ _)
      · exact .behind rfl rfl

theorem delimited_readCount (order : ByteOrder) (size : Nat) :
    Delimited (readCount order size) := by
  rw [readCount_eq]
  exact (delimited_readWord order).bind fun w => delimited_withRoom w.toNat size

theorem delimited_readString (order : ByteOrder) : Delimited (readString order) := by
  refine (delimited_readWord order).bind fun w => (delimited_take w.toNat).bind fun bytes => ?_
  cases ofUtf8? bytes with
  | some s => exact delimited_pure s
  | none =>
    refine delimited_of_fails fun call => ?_
    obtain ⟨_, _, -, call⟩ := bind_eq_ok.1 call
    exact throw_ne_ok call

theorem delimited_readMany {α : Type} {read : Reader α} (each : Delimited read) (n : Nat) :
    Delimited (readMany read n) := by
  induction n with
  | zero => exact delimited_pure []
  | succ n ih => exact each.bind fun x => ih.bind fun xs => delimited_pure (x :: xs)

theorem delimited_readStrings (order : ByteOrder) : Delimited (readStrings order) :=
  (delimited_readCount order 4).bind fun n => delimited_readMany (delimited_readString order) n

theorem delimited_readInstruction (order : ByteOrder) (atoms : Nat) :
    Delimited (readInstruction order atoms) := by
  refine delimited_readByte.bind fun tag => ?_
  cases TokenKind.ofTag? tag with
  | none => exact delimited_throw _
  | some kind =>
    exact (delimited_readWord order).bind fun atom =>
      .unless (delimited_pure (Instruction.mk kind atom))

theorem delimited_readInstructions (order : ByteOrder) (atoms : Nat) :
    Delimited (readInstructions order atoms) :=
  (delimited_readCount order 5).bind fun n =>
    delimited_readMany (delimited_readInstruction order atoms) n

theorem delimited_readHeader : Delimited readHeader := by
  refine (delimited_take _).bind fun found => .unless (delimited_readByte.bind fun v => ?_)
  by_cases proper : v = version
  · simp only [ne_eq, proper, not_true, if_false]
    exact delimited_pure ()
  · simp only [ne_eq, proper, not_false_eq_true, if_true]
    exact delimited_throw _

/-- The parts of a module, without a look at what is left behind them. -/
def readParts (order : ByteOrder) : Reader Module := do
  readHeader
  let name ← readString order
  let requests ← readStrings order
  let exports ← readStrings order
  let starExports ← readStrings order
  let atoms ← readStrings order
  let instructions ← readInstructions order atoms.length
  return ⟨name, ⟨requests, exports, starExports⟩, ⟨atoms, instructions⟩⟩

theorem delimited_readParts (order : ByteOrder) : Delimited (readParts order) :=
  delimited_readHeader.bind fun _ => (delimited_readString order).bind fun _ =>
    (delimited_readStrings order).bind fun _ => (delimited_readStrings order).bind fun _ =>
      (delimited_readStrings order).bind fun _ => (delimited_readStrings order).bind fun _ =>
        (delimited_readInstructions order _).bind fun _ => delimited_pure _

theorem readModule_eq (order : ByteOrder) : readModule order = (do
    let m ← readParts order
    let i ← get
    if i.rest ≠ [] then throw (.trailing i.rest.length)
    return m) := by
  simp only [readModule, readParts, bind_assoc, pure_bind]

end Encoding

namespace Module

open Encoding Encoding.Reader

/-- What is decoded is what the parts are read as, and nothing is left behind them. -/
theorem decode_eq_parts (order : ByteOrder) (bytes : List UInt8) :
    decode order bytes = (match readParts order ⟨bytes, 0⟩ with
      | .error fault => .error fault
      | .ok (m, j) => if j.rest = [] then .ok m else .error (.trailing j.rest.length)) := by
  unfold decode
  rw [readModule_eq]
  show (Except.bind (readParts order ⟨bytes, 0⟩) _).map Prod.fst = _
  cases readParts order ⟨bytes, 0⟩ with
  | error fault => rfl
  | ok p =>
    obtain ⟨m, j⟩ := p
    show Except.map Prod.fst ((if j.rest ≠ [] then _ else _ : Reader Module) j) = _
    by_cases ends : j.rest = []
    · rw [if_neg fun more => more ends]
      exact (if_pos ends).symm
    · rw [if_pos ends]
      exact (if_neg ends).symm

/-- The bytes of a module cannot be cut off anywhere, and nothing can be put behind them: where bytes
are missing, the reader comes to their end too early, and it tells how many are left over. -/
theorem decode_delimited {order : ByteOrder} {bytes : List UInt8} {m : Module}
    (read : decode order bytes = .ok m) :
    (∀ short, short <+: bytes → short ≠ bytes →
      ∃ offset, offset ≤ short.length ∧ decode order short = .error (.truncated offset)) ∧
    ∀ extra, extra ≠ [] → decode order (bytes ++ extra) = .error (.trailing extra.length) := by
  rw [decode_eq_parts] at read
  split at read
  · cases read
  rename_i m' j call
  split at read
  · rename_i ends
    cases read
    constructor
    · rintro short ⟨cut, rfl⟩ proper
      have cutOff := (delimited_readParts order).cutOff (i := ⟨short, 0⟩) call
      rw [decode_eq_parts]
      generalize readParts order ⟨short, 0⟩ = result at cutOff
      cases cutOff with
      | @behind left whole _ =>
        rw [ends] at whole
        obtain ⟨-, rfl⟩ := List.append_eq_nil_iff.1 whole.symm
        exact absurd (List.append_nil short).symm proper
      | @within offset early =>
        rw [Nat.zero_add] at early
        exact ⟨offset, early, rfl⟩
    · intro extra more
      have extended := (delimited_readParts order).extended call extra
      dsimp only at extended
      rw [ends, List.nil_append] at extended
      rw [decode_eq_parts, extended]
      exact if_neg more
  · cases read

/-- A module that imports a name outside the first 128 characters, high byte first: neither a part of
its bytes nor more than its bytes can be read. -/
theorem decode_delimited_accented :
    let m : Module := ⟨"m", ⟨["é"], [], []⟩, ⟨["é"], [⟨.string, 0⟩]⟩⟩
    let bytes : List UInt8 := [116, 106, 115, 99, 1, 0, 0, 0, 1, 109, 0, 0, 0, 1, 0, 0, 0, 2, 195,
      169, 0, 0, 0, 0, 0, 0, 0, 0, 0, 0, 0, 1, 0, 0, 0, 2, 195, 169, 0, 0, 0, 1, 1, 0, 0, 0, 0]
    decode .swapped bytes = .ok m ∧
      (∀ short, short <+: bytes → short ≠ bytes →
        ∃ offset, offset ≤ short.length ∧ decode .swapped short = .error (.truncated offset)) ∧
      ∀ extra, extra ≠ [] → decode .swapped (bytes ++ extra) = .error (.trailing extra.length) := by
  intro m bytes
  have read : decode .swapped bytes = .ok m := by rfl
  exact ⟨read, decode_delimited read⟩

end Module

end Esm
