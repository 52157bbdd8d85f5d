-- SUMMARY: Attempts at reading a source by byte offsets, each of which may go out of range, and when one settles.
import Esm.Proofs.Text.Lines
import Esm.Proofs.Token.Tiling
import Esm.SyntaxError

/-!
# Attempts

A source can be read with nothing but offsets into it at hand. A token is then a span of the source,
and its text is cut out whenever it is looked at, as is the text before a fault when its line and
column are told. Such an attempt comes to a result or to a syntax error, unless a cut, a look-up or
a count goes out of range, or the reading does not end. It settles if it comes to what the reading of
the text itself comes to.
-/

namespace Esm.Offsets

open Text

/-- An attempt at a result: nothing at all comes of it where it goes out of range or does not end. -/
abbrev Attempt := ExceptT SyntaxError Option

/-- A token as its kind and the byte offsets at which its text starts and ends. -/
structure Span where
  kind : TokenKind
  start : Nat
  stop : Nat
deriving DecidableEq, Repr

/-- One less, which is out of range at zero. -/
def down? : Nat → Option Nat
  | 0 => none
  | n + 1 => some n

/-- The token at a span of a source. -/
def token? (source : List Char) (span : Span) : Option Token := do
  let text ← slice? source span.start span.stop
  some ⟨span.kind, span.start, String.ofList text⟩

namespace Attempt

variable {α : Type}

/-- Go on with a value that may be out of range. -/
def look (value : Option α) : Attempt α := ExceptT.mk (value.map .ok)

/-- The end of an attempt whose calls nest more deeply than they may. -/
def unfinished : Attempt α := look none

/-- Refuse a source at a byte offset, whose line and column are told. -/
def refuse (source : List Char) (cause : SyntaxError.Cause) (offset : Nat) : Attempt α := do
  let position ← look (position? source offset)
  throw ⟨cause, position⟩

end Attempt

open Attempt

-- ---------------------------------------------------------------------------
-- Spans of tokens
-- ---------------------------------------------------------------------------

/-- Where the text of a token is. -/
def spanOf (t : Token) : Span := ⟨t.kind, t.start, t.finish⟩

/-- A token stands in a source at the offset where it says it starts. -/
def Lies (source : List Char) (t : Token) : Prop :=
  ∃ before after, before ++ (t.text.toList ++ after) = source ∧ byteLength before = t.start

theorem Lies.boundary {source : List Char} {t : Token} (lies : Lies source t) :
    IsBoundary source t.start := by
  obtain ⟨before, after, whole, start⟩ := lies
  exact ⟨before, t.text.toList ++ after, whole, start⟩

/-- A token that stands in the source is found at its span. -/
theorem Lies.token? {source : List Char} {t : Token} (lies : Lies source t) :
    Offsets.token? source (spanOf t) = some t := by
  obtain ⟨before, after, whole, start⟩ := lies
  have finish : byteLength (before ++ t.text.toList) = t.finish := by
    rw [byteLength_append, start]
    rfl
  have text : slice? source t.start t.finish = some t.text.toList :=
    slice?_eq_some_iff.2 ⟨before, after, whole, start, finish⟩
  unfold Offsets.token? spanOf
  rw [text]
  show some (⟨t.kind, t.start, String.ofList t.text.toList⟩ : Token) = some t
  rw [String.ofList_toList]

-- ---------------------------------------------------------------------------
-- Attempts that settle
-- ---------------------------------------------------------------------------

section

variable {φ α β γ δ : Type} {source : String} {cause : φ → SyntaxError.Cause} {R : α → β → Prop}

/-- The attempt comes to the result of a reading, as `R` relates the two, or refuses the source for
the fault that the reading finds, which is at a boundary. -/
def Settles (source : String) (cause : φ → SyntaxError.Cause) (R : α → β → Prop)
    (attempt : Attempt α) (reading : Except (Located φ) β) : Prop :=
  match reading with
  | .ok b => ∃ a, attempt = pure a ∧ R a b
  | .error failure =>
    attempt = throw ⟨cause failure.cause, Position.ofOffset source failure.offset⟩ ∧
      IsBoundary source.toList failure.offset

theorem Settles.pure {a : α} {b : β} (related : R a b) :
    Settles source cause R (pure a) (.ok b) := ⟨a, rfl, related⟩

/-- What is in range does not keep an attempt from settling. -/
theorem Settles.look {value : Option γ} {c : γ} (inRange : value = some c) {attempt : γ → Attempt α}
    {reading : Except (Located φ) β} (more : Settles source cause R (attempt c) reading) :
    Settles source cause R (look value >>= attempt) reading := by
  subst inRange
  exact more

theorem Settles.refuse {offset : Nat} (boundary : IsBoundary source.toList offset) (fault : φ) :
    Settles source cause R (refuse source.toList (cause fault) offset) (.error ⟨fault, offset⟩) := by
  refine ⟨?_, boundary⟩
  unfold Attempt.refuse
  rw [position?_eq boundary]
  rfl

/-- A fault is the end of an attempt, whatever was to come. -/
theorem Settles.refuse_bind {offset : Nat} (boundary : IsBoundary source.toList offset) (fault : φ)
    (more : γ → Attempt α) :
    Settles source cause R (Attempt.refuse source.toList (cause fault) offset >>= more)
      (.error ⟨fault, offset⟩) := by
  refine ⟨?_, boundary⟩
  unfold Attempt.refuse
  rw [position?_eq boundary]
  rfl

/-- A fault that is caught is one that has a place. -/
theorem tryCatch_refuse {offset : Nat} (boundary : IsBoundary source.toList offset)
    (fault : SyntaxError.Cause) (handler : Attempt α) :
    (tryCatch (Attempt.refuse source.toList fault offset) fun _ => handler) = handler := by
  unfold Attempt.refuse
  rw [position?_eq boundary]
  rfl

theorem Settles.ok {attempt : Attempt α} {b : β}
    (settles : Settles source cause R attempt (.ok b)) : ∃ a, attempt = Pure.pure a ∧ R a b := settles

theorem Settles.error {attempt : Attempt α} {failure : Located φ}
    (settles : Settles source cause R attempt (.error failure)) :
    attempt = throw ⟨cause failure.cause, Position.ofOffset source failure.offset⟩ ∧
      IsBoundary source.toList failure.offset := settles

/-- Where the reading ends with a fault, so does the attempt, whatever was to come. -/
theorem Settles.error_bind {first : Attempt α} {failure : Located φ} {more : α → Attempt γ}
    {R' : γ → δ → Prop} (settles : Settles source cause R first (.error failure : Except _ β)) :
    Settles source cause R' (first >>= more) (.error failure) := by
  obtain ⟨rfl, boundary⟩ := settles.error
  exact ⟨rfl, boundary⟩

/-- An attempt goes on where the reading does, with the result of the reading. -/
theorem Settles.bind_ok {first : Attempt α} {first' : Except (Located φ) β} {more : α → Attempt γ}
    {more' : β → Except (Located φ) δ} {R' : γ → δ → Prop}
    (settles : Settles source cause R first first')
    (settles' : ∀ a b, first' = .ok b → R a b → Settles source cause R' (more a) (more' b)) :
    Settles source cause R' (first >>= more) (first' >>= more') := by
  cases first' with
  | ok b =>
    obtain ⟨a, rfl, related⟩ := settles.ok
    exact settles' a b rfl related
  | error failure => exact settles.error_bind

theorem Settles.bind {first : Attempt α} {first' : Except (Located φ) β} {more : α → Attempt γ}
    {more' : β → Except (Located φ) δ} {R' : γ → δ → Prop}
    (settles : Settles source cause R first first')
    (settles' : ∀ a b, R a b → Settles source cause R' (more a) (more' b)) :
    Settles source cause R' (first >>= more) (first' >>= more') :=
  settles.bind_ok fun a b _ related => settles' a b related

end

end Esm.Offsets
