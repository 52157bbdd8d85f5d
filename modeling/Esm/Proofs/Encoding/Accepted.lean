-- SUMMARY: Readers accept what writers write and nothing else.
import Esm.Encoding.Reader

/-!
# Accepted bytes

Each reader is described by one equivalence: it takes a value off its input if and only if the input
starts with the bytes that are written for that value, and the value is one that can be written.
Read from left to right this is exactness, from right to left completeness.
-/

namespace Esm.Encoding

/-- `i` is `bytes` followed by `j`. -/
structure Splits (i : Input) (bytes : List UInt8) (j : Input) : Prop where
  rest : i.rest = bytes ++ j.rest
  offset : j.offset = i.offset + bytes.length

/-- A reader takes a value off an input exactly if the bytes written for it come first and the value
is valid. -/
def Accepts {α : Type} (read : Reader α) (write : α → List UInt8) (Valid : α → Prop) : Prop :=
  ∀ i x j, read i = .ok (x, j) ↔ Splits i (write x) j ∧ Valid x

theorem Splits.append_iff {i j : Input} {a b : List UInt8} :
    Splits i (a ++ b) j ↔ ∃ k, Splits i a k ∧ Splits k b j := by
  constructor
  · intro h
    refine ⟨⟨b ++ j.rest, i.offset + a.length⟩, ⟨?_, rfl⟩, ⟨rfl, ?_⟩⟩
    · rw [h.rest, List.append_assoc]
    · rw [h.offset, List.length_append, Nat.add_assoc]
  · rintro ⟨k, ha, hb⟩
    refine ⟨?_, ?_⟩
    · rw [ha.rest, hb.rest, List.append_assoc]
    · rw [hb.offset, ha.offset, List.length_append, Nat.add_assoc]

theorem Splits.nil_iff {i j : Input} : Splits i [] j ↔ i = j := by
  constructor
  · intro h
    obtain ⟨rest, offset⟩ := i
    obtain ⟨rest', offset'⟩ := j
    obtain ⟨hrest, hoffset⟩ := h
    simp only [List.nil_append] at hrest
    simp only [List.length_nil, Nat.add_zero] at hoffset
    rw [hrest, hoffset]
  · rintro rfl
    exact ⟨rfl, rfl⟩

theorem Splits.length_le {i j : Input} {bytes : List UInt8} (h : Splits i bytes j) :
    bytes.length ≤ i.rest.length := by
  rw [h.rest, List.length_append]
  exact Nat.le_add_right _ _

-- ---------------------------------------------------------------------------
-- Sequencing
-- ---------------------------------------------------------------------------

namespace Reader

variable {α β : Type}

theorem bind_eq_ok {x : Reader α} {f : α → Reader β} {i j : Input} {b : β} :
    (x >>= f) i = .ok (b, j) ↔ ∃ a k, x i = .ok (a, k) ∧ f a k = .ok (b, j) := by
  simp only [bind, StateT.bind, Except.bind]
  cases h : x i with
  | error e => simp
  | ok p =>
    obtain ⟨a, k⟩ := p
    constructor
    · intro hf
      exact ⟨a, k, rfl, hf⟩
    · rintro ⟨a', k', heq, hf⟩
      cases heq
      exact hf

theorem pure_eq_ok {a b : α} {i j : Input} :
    (pure a : Reader α) i = .ok (b, j) ↔ a = b ∧ i = j := by
  constructor
  · intro h
    cases h
    exact ⟨rfl, rfl⟩
  · rintro ⟨rfl, rfl⟩
    rfl

theorem get_eq_ok {i j k : Input} : (get : Reader Input) i = .ok (k, j) ↔ k = i ∧ j = i := by
  constructor
  · intro h
    cases h
    exact ⟨rfl, rfl⟩
  · rintro ⟨rfl, rfl⟩
    rfl

theorem throw_ne_ok {e : Fault} {i j : Input} {a : α} :
    (throw e : Reader α) i ≠ .ok (a, j) := by
  intro h
  cases h

/-- Going on behind a check that throws. -/
theorem unless_eq_ok {c : Prop} [Decidable c] {e : Fault} {next : Unit → Reader α} {i j : Input}
    {a : α} :
    (if c then throw e >>= next else next ()) i = .ok (a, j) ↔ ¬ c ∧ next () i = .ok (a, j) := by
  by_cases h : c
  · simp only [h, if_true, not_true, false_and, iff_false]
    intro hthrow
    obtain ⟨_, _, hthrow, _⟩ := bind_eq_ok.1 hthrow
    exact throw_ne_ok hthrow
  · simp only [h, if_false, not_false_eq_true, true_and]

end Reader

open Reader

-- ---------------------------------------------------------------------------
-- Bytes, words and counts
-- ---------------------------------------------------------------------------

theorem take_eq_ok {n : Nat} {i j : Input} {bytes : List UInt8} :
    take n i = .ok (bytes, j) ↔ Splits i bytes j ∧ bytes.length = n := by
  unfold take
  cases h : splitExactly n i.rest with
  | none =>
    simp only [reduceCtorEq, false_iff]
    rintro ⟨hsplits, hlength⟩
    have : splitExactly n i.rest = some (bytes, j.rest) :=
      splitExactly_eq_some.2 ⟨hsplits.rest.symm, hlength⟩
    rw [h] at this
    cases this
  | some p =>
    obtain ⟨taken, left⟩ := p
    obtain ⟨hwhole, hlength⟩ := splitExactly_eq_some.1 h
    constructor
    · intro heq
      cases heq
      exact ⟨⟨hwhole.symm, by rw [hlength]⟩, hlength⟩
    · rintro ⟨hsplits, hn⟩
      have heq : taken ++ left = bytes ++ j.rest := hwhole.trans hsplits.rest
      obtain ⟨rfl, rfl⟩ := List.append_inj heq (hlength.trans hn.symm)
      have hoffset : i.offset + n = j.offset := by rw [hsplits.offset, hn]
      simp only [hoffset]

theorem accepts_readByte : Accepts readByte (fun b => [b]) (fun _ => True) := by
  intro i b j
  obtain ⟨rest, offset⟩ := i
  cases rest with
  | nil =>
    simp only [readByte, reduceCtorEq, false_iff]
    rintro ⟨⟨hrest, -⟩, -⟩
    cases hrest
  | cons a left =>
    simp only [readByte]
    constructor
    · intro h
      cases h
      exact ⟨⟨rfl, rfl⟩, trivial⟩
    · rintro ⟨⟨hrest, hoffset⟩, -⟩
      obtain ⟨rest', offset'⟩ := j
      cases hrest
      simp only at hoffset
      rw [hoffset]
      rfl

theorem accepts_readWord (order : ByteOrder) :
    Accepts (readWord order) order.bytes (fun _ => True) := by
  intro i w j
  obtain ⟨a, b, c, d, hbytes, hword⟩ := order.word_bytes w
  constructor
  · intro h
    unfold readWord at h
    split at h
    · rename_i a' b' c' d' left hrest
      cases h
      refine ⟨⟨?_, ?_⟩, trivial⟩
      · rw [ByteOrder.bytes_word, hrest]
        rfl
      · rw [ByteOrder.length_bytes]
    · cases h
  · rintro ⟨⟨hrest, hoffset⟩, -⟩
    rw [hbytes] at hrest
    rw [ByteOrder.length_bytes] at hoffset
    simp only [readWord, hrest, List.cons_append, List.nil_append, hword, ← hoffset]

/-- A count that is a word was written as that word. -/
theorem count_toNat (order : ByteOrder) (w : UInt32) : count order w.toNat = order.bytes w := by
  unfold count
  rw [UInt32.ofNat_toNat]

@[simp] theorem length_count (order : ByteOrder) (n : Nat) : (count order n).length = 4 := by
  unfold count
  exact order.length_bytes _

theorem readCount_eq_ok {order : ByteOrder} {size n : Nat} {i j : Input} :
    readCount order size i = .ok (n, j) ↔
      Splits i (count order n) j ∧ n < UInt32.size ∧ n * size ≤ j.rest.length := by
  unfold readCount
  simp only [bind_eq_ok, get_eq_ok, unless_eq_ok, pure_eq_ok, accepts_readWord order _ _ _]
  constructor
  · rintro ⟨w, k, ⟨hsplits, -⟩, i', k', ⟨rfl, rfl⟩, hsize, rfl, rfl⟩
    refine ⟨?_, w.toNat_lt_size, Nat.not_lt.1 hsize⟩
    rw [count_toNat]
    exact hsplits
  · rintro ⟨hsplits, hn, hsize⟩
    have hword : (UInt32.ofNat n).toNat = n := UInt32.toNat_ofNat_of_lt hn
    refine ⟨UInt32.ofNat n, j, ⟨hsplits, trivial⟩, j, j, ⟨rfl, rfl⟩, ?_, hword, rfl⟩
    rw [hword]
    exact Nat.not_lt.2 hsize

-- ---------------------------------------------------------------------------
-- Strings
-- ---------------------------------------------------------------------------

theorem ofUtf8?_utf8 (s : String) : ofUtf8? (utf8 s) = some s := by
  have hvalid : ByteArray.IsValidUTF8 ⟨(utf8 s).toArray⟩ := s.isValidUTF8
  unfold ofUtf8? String.fromUTF8?
  rw [dif_pos hvalid]
  rfl

theorem utf8_of_ofUtf8? {bytes : List UInt8} {s : String} (h : ofUtf8? bytes = some s) :
    utf8 s = bytes := by
  unfold ofUtf8? String.fromUTF8? at h
  split at h
  · cases h
    rfl
  · cases h

theorem ofUtf8?_eq_some {bytes : List UInt8} {s : String} :
    ofUtf8? bytes = some s ↔ utf8 s = bytes :=
  ⟨utf8_of_ofUtf8?, fun h => h ▸ ofUtf8?_utf8 s⟩

/-- The length of the string is a word. -/
def Short (s : String) : Prop := (utf8 s).length < UInt32.size

instance (s : String) : Decidable (Short s) := inferInstanceAs (Decidable (_ < _))

/-- The number of strings is a word, and so is the length of each. -/
def ShortList (ss : List String) : Prop := ss.length < UInt32.size ∧ ∀ s ∈ ss, Short s

instance (ss : List String) : Decidable (ShortList ss) := inferInstanceAs (Decidable (_ ∧ _))

theorem accepts_readString (order : ByteOrder) :
    Accepts (readString order) (string order) Short := by
  intro i s j
  unfold readString string
  simp only [bind_eq_ok, accepts_readWord order _ _ _, take_eq_ok, Splits.append_iff]
  constructor
  · rintro ⟨w, k, ⟨hw, -⟩, bytes, l, ⟨hbytes, hlength⟩, htext⟩
    cases h : ofUtf8? bytes with
    | none =>
      rw [h] at htext
      obtain ⟨_, _, -, hthrow⟩ := bind_eq_ok.1 htext
      exact absurd hthrow throw_ne_ok
    | some s' =>
      rw [h] at htext
      obtain ⟨rfl, rfl⟩ := pure_eq_ok.1 htext
      rw [ofUtf8?_eq_some] at h
      subst h
      refine ⟨⟨k, ?_, hbytes⟩, ?_⟩
      · rw [hlength, count_toNat]
        exact hw
      · unfold Short
        rw [hlength]
        exact w.toNat_lt_size
  · rintro ⟨⟨k, hcount, hbytes⟩, hshort⟩
    have hlength : (UInt32.ofNat (utf8 s).length).toNat = (utf8 s).length :=
      UInt32.toNat_ofNat_of_lt hshort
    refine ⟨_, k, ⟨hcount, trivial⟩, utf8 s, j, ⟨hbytes, hlength.symm⟩, ?_⟩
    rw [ofUtf8?_utf8]
    rfl

-- ---------------------------------------------------------------------------
-- Lists
-- ---------------------------------------------------------------------------

theorem readMany_eq_ok {α : Type} {read : Reader α} {write : α → List UInt8} {Valid : α → Prop}
    (accepts : Accepts read write Valid) {n : Nat} {i j : Input} {xs : List α} :
    readMany read n i = .ok (xs, j) ↔
      Splits i (xs.flatMap write) j ∧ xs.length = n ∧ ∀ x ∈ xs, Valid x := by
  induction n generalizing i j xs with
  | zero =>
    simp only [readMany, pure_eq_ok, List.length_eq_zero_iff]
    constructor
    · rintro ⟨rfl, rfl⟩
      exact ⟨Splits.nil_iff.2 rfl, rfl, nofun⟩
    · rintro ⟨hsplits, rfl, -⟩
      exact ⟨rfl, Splits.nil_iff.1 hsplits⟩
  | succ n ih =>
    simp only [readMany, bind_eq_ok, pure_eq_ok, accepts _ _ _, ih]
    constructor
    · rintro ⟨x, k, ⟨hx, valid⟩, xs', j', ⟨hxs, rfl, all⟩, rfl, rfl⟩
      refine ⟨Splits.append_iff.2 ⟨k, hx, hxs⟩, rfl, ?_⟩
      exact List.forall_mem_cons.2 ⟨valid, all⟩
    · rintro ⟨hsplits, hlength, all⟩
      cases xs with
      | nil => cases hlength
      | cons x xs =>
        obtain ⟨k, hx, hxs⟩ := Splits.append_iff.1 hsplits
        obtain ⟨valid, all⟩ := List.forall_mem_cons.1 all
        exact ⟨x, k, ⟨hx, valid⟩, xs, j, ⟨hxs, Nat.succ.inj hlength, all⟩, rfl, rfl⟩

theorem length_flatMap_le {α : Type} {write : α → List UInt8} {size : Nat}
    (large : ∀ x, size ≤ (write x).length) (xs : List α) :
    xs.length * size ≤ (xs.flatMap write).length := by
  induction xs with
  | nil => simp
  | cons x xs ih =>
    have hx := large x
    simp only [List.length_cons, List.flatMap_cons, List.length_append, Nat.succ_mul]
    omega

/-- A counted list whose elements are no smaller than the reader assumes. The check of the count
against the rest of the input never refuses what was written. -/
theorem counted_eq_ok {α : Type} {read : Reader α} {write : α → List UInt8} {Valid : α → Prop}
    (accepts : Accepts read write Valid) {size : Nat} (large : ∀ x, size ≤ (write x).length)
    {order : ByteOrder} {i j : Input} {xs : List α} :
    (readCount order size >>= readMany read) i = .ok (xs, j) ↔
      Splits i (count order xs.length ++ xs.flatMap write) j ∧
        xs.length < UInt32.size ∧ ∀ x ∈ xs, Valid x := by
  simp only [bind_eq_ok, readCount_eq_ok, readMany_eq_ok accepts, Splits.append_iff]
  constructor
  · rintro ⟨n, k, ⟨hcount, hn, -⟩, hxs, rfl, all⟩
    exact ⟨⟨k, hcount, hxs⟩, hn, all⟩
  · rintro ⟨⟨k, hcount, hxs⟩, hn, all⟩
    have hsize : xs.length * size ≤ k.rest.length :=
      Nat.le_trans (length_flatMap_le large xs) hxs.length_le
    exact ⟨xs.length, k, ⟨hcount, hn, hsize⟩, hxs, rfl, all⟩

theorem accepts_readStrings (order : ByteOrder) :
    Accepts (readStrings order) (strings order) ShortList := by
  intro i ss j
  have large : ∀ s, 4 ≤ (string order s).length := by
    intro s
    simp only [string, List.length_append, length_count]
    exact Nat.le_add_right _ _
  exact counted_eq_ok (accepts_readString order) large

-- ---------------------------------------------------------------------------
-- Instructions
-- ---------------------------------------------------------------------------

theorem accepts_readInstruction (order : ByteOrder) (atoms : Nat) :
    Accepts (readInstruction order atoms) (instruction order) (fun i => i.atom.toNat < atoms) := by
  intro i instr j
  unfold readInstruction
  simp only [bind_eq_ok, accepts_readByte _ _ _]
  have hwrite : instruction order instr = [instr.kind.tag] ++ order.bytes instr.atom := rfl
  rw [hwrite, Splits.append_iff]
  constructor
  · rintro ⟨tag, k, ⟨htag, -⟩, h⟩
    cases hkind : TokenKind.ofTag? tag with
    | none =>
      rw [hkind] at h
      exact absurd h throw_ne_ok
    | some kind =>
      rw [hkind] at h
      simp only [bind_eq_ok, unless_eq_ok, pure_eq_ok, accepts_readWord order _ _ _] at h
      obtain ⟨w, l, ⟨hw, -⟩, hrange, rfl, rfl⟩ := h
      rw [TokenKind.tag_of_ofTag?_eq_some hkind]
      exact ⟨⟨k, htag, hw⟩, Nat.not_le.1 hrange⟩
  · rintro ⟨⟨k, htag, hw⟩, hrange⟩
    refine ⟨instr.kind.tag, k, ⟨htag, trivial⟩, ?_⟩
    simp only [TokenKind.ofTag?_tag, bind_eq_ok, unless_eq_ok, pure_eq_ok,
      accepts_readWord order _ _ _]
    exact ⟨instr.atom, j, ⟨hw, trivial⟩, Nat.not_le.2 hrange, rfl, rfl⟩

theorem readInstructions_eq_ok {order : ByteOrder} {atoms : Nat} {i j : Input}
    {is : List Instruction} :
    readInstructions order atoms i = .ok (is, j) ↔
      Splits i (instructions order is) j ∧
        is.length < UInt32.size ∧ ∀ instr ∈ is, instr.atom.toNat < atoms := by
  have large : ∀ instr, 5 ≤ (instruction order instr).length := by
    intro instr
    simp only [instruction, List.length_cons, ByteOrder.length_bytes]
    exact Nat.le_refl _
  exact counted_eq_ok (accepts_readInstruction order atoms) large

-- ---------------------------------------------------------------------------
-- Modules
-- ---------------------------------------------------------------------------

theorem accepts_readHeader : Accepts readHeader (fun _ => mark ++ [version]) (fun _ => True) := by
  intro i u j
  unfold readHeader
  rw [bind_eq_ok, Splits.append_iff, and_true]
  constructor
  · rintro ⟨found, k, htake, h⟩
    obtain ⟨hfound, h⟩ := unless_eq_ok.1 h
    obtain ⟨v, l, hv, h⟩ := bind_eq_ok.1 h
    by_cases hversion : v = version
    · subst hversion
      simp only [ne_eq, not_true, if_false, pure_eq_ok, true_and] at h
      subst h
      obtain rfl := Decidable.of_not_not hfound
      exact ⟨k, (take_eq_ok.1 htake).1, ((accepts_readByte _ _ _).1 hv).1⟩
    · simp only [ne_eq, hversion, not_false_eq_true, if_true] at h
      exact absurd h throw_ne_ok
  · rintro ⟨k, hmark, hversion⟩
    refine ⟨mark, k, take_eq_ok.2 ⟨hmark, rfl⟩, ?_⟩
    refine unless_eq_ok.2 ⟨fun h => h rfl, ?_⟩
    refine bind_eq_ok.2 ⟨version, j, (accepts_readByte _ _ _).2 ⟨hversion, trivial⟩, ?_⟩
    rfl

end Esm.Encoding
