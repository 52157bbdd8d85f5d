-- SUMMARY: Reading single tokens and the clause that names a module.
import Esm.Interface.Basic

/-!
# Clauses

The parts that import and export declarations share. A reading function takes tokens off the head of
a list and answers with what they say and the tokens left. `stop` is the byte length of the source,
where a declaration that the input cuts off is faulted. The `_length` lemmas say that no function
leaves more tokens than it got.
-/

namespace Esm.Interface

/-! ## Single tokens -/

/-- Take any token. -/
def anyToken (stop : Nat) : List Token → Except Failure (Token × List Token)
  | [] => .error ⟨.endOfInput, stop⟩
  | t :: ts => .ok (t, ts)

/-- Take a token of one kind. -/
def tokenOf (stop : Nat) (kind : TokenKind) : List Token → Except Failure (Token × List Token)
  | [] => .error ⟨.endOfInput, stop⟩
  | t :: ts => if t.kind = kind then .ok (t, ts) else .error ⟨.unexpectedToken t.text, t.start⟩

/-- Take one word. -/
def word (stop : Nat) (text : String) : List Token → Except Failure (Token × List Token)
  | [] => .error ⟨.endOfInput, stop⟩
  | t :: ts => if t.isWord text then .ok (t, ts) else .error ⟨.expectedWord text, t.start⟩

/-- The name that a token gives in an import or export list: a word, or the value of a string. -/
def bindingName (t : Token) : Except Failure String :=
  match t.kind with
  | .identifier => .ok t.text
  | .string => .ok t.stringValue
  | _ => .error ⟨.unexpectedToken t.text, t.start⟩

theorem isWord_eq {t : Token} {word : String} (h : t.isWord word = true) :
    t.kind = .identifier ∧ t.text = word := by
  simpa [Token.isWord] using h

/-- A sequence succeeds when both its parts do. -/
theorem bind_eq_ok {ε α β : Type} {x : Except ε α} {f : α → Except ε β} {b : β} :
    (x >>= f) = .ok b ↔ ∃ a, x = .ok a ∧ f a = .ok b := by
  cases x <;> simp [bind, Except.bind]

/-- Another account of errors does not touch a result. -/
theorem mapError_ok {ε δ α : Type} (f : ε → δ) (a : α) :
    (Except.ok a).mapError f = .ok a := rfl

theorem mapError_error {ε δ α : Type} (f : ε → δ) (e : ε) :
    (Except.error e : Except ε α).mapError f = .error (f e) := rfl

theorem mapError_eq_ok {ε δ α : Type} {f : ε → δ} {x : Except ε α} {a : α} :
    x.mapError f = .ok a ↔ x = .ok a := by
  cases x with
  | error e => exact ⟨nofun, nofun⟩
  | ok b => simp [mapError_ok]

theorem eq_ok_of_toOption {ε α : Type} {x : Except ε α} {a : α} (h : x.toOption = some a) :
    x = .ok a := by
  cases x with
  | error e => cases h
  | ok b =>
    cases h
    rfl

/-- Whether the first token passes a test. -/
def nextIs (test : Token → Bool) (ts : List Token) : Bool := ts.head?.any test

theorem anyToken_length {stop : Nat} {ts rest : List Token} {t : Token}
    (h : anyToken stop ts = .ok (t, rest)) : rest.length < ts.length := by
  cases ts <;> simp only [anyToken] at h <;> cases h
  simp

theorem tokenOf_length {stop : Nat} {kind : TokenKind} {ts rest : List Token} {t : Token}
    (h : tokenOf stop kind ts = .ok (t, rest)) : rest.length < ts.length := by
  cases ts with
  | nil => simp [tokenOf] at h
  | cons => simp only [tokenOf] at h; split at h <;> cases h; simp

theorem word_length {stop : Nat} {text : String} {ts rest : List Token} {t : Token}
    (h : word stop text ts = .ok (t, rest)) : rest.length < ts.length := by
  cases ts with
  | nil => simp [word] at h
  | cons => simp only [word] at h; split at h <;> cases h; simp

/-! ## The clause that names a module -/

/-- `from 'specifier'`, in a declaration that started at `keyword`. -/
def fromClause (stop : Nat) (keyword : Token) (add : String → Interface) (ts : List Token) :
    Except Failure (Interface × List Token) :=
  if nextIs (Token.isWord · "from") ts then do
    let (specifier, ts) ← tokenOf stop .string ts.tail
    .ok (add specifier.stringValue, ts)
  else .error ⟨.expectedFromClause, (ts.head?.getD keyword).start⟩

theorem fromClause_length {stop : Nat} {keyword : Token} {add : String → Interface}
    {ts rest : List Token} {m : Interface}
    (h : fromClause stop keyword add ts = .ok (m, rest)) : rest.length ≤ ts.length := by
  simp only [fromClause] at h
  split at h
  · simp only [bind_eq_ok] at h
    obtain ⟨⟨specifier, left⟩, read, h⟩ := h
    cases h
    have := tokenOf_length read
    simp only [List.length_tail] at this
    dsimp only
    omega
  · cases h

end Esm.Interface
