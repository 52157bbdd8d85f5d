-- SUMMARY: Tokens in which brackets nest are passed over as a whole, unless a word outside brackets starts a declaration.
import Esm.Interface.Analysis

/-!
# Nested brackets

Tokens in which every bracket is closed by its counterpart leave the brackets open before them as
they are. Behind an open bracket no word starts a declaration, so that such tokens say nothing about
the interface. Outside brackets they say nothing either, as long as no word among them starts a
declaration.
-/

namespace Esm.Interface

/-- Tokens in which every bracket is closed by its counterpart. -/
inductive Nested : List Token → Prop where
  | nil : Nested []
  | cons {t : Token} {ts : List Token} : isDelimiter t = false → Nested ts → Nested (t :: ts)
  | bracket {opener closer : Token} {inner ts : List Token} : opener.kind = .punctuator →
    closer.kind = .punctuator → closerOf opener.text = some closer.text → Nested inner →
    Nested ts → Nested (opener :: (inner ++ closer :: ts))

/-- Tokens in which brackets nest and in which, outside brackets, the words that start declarations
stand behind a dot only, apart from an `import` with a round bracket or a dot behind it. `afterDot`
tells whether a dot comes before the first token. -/
inductive Silent : (afterDot : Bool) → List Token → Prop where
  | nil {afterDot : Bool} : Silent afterDot []
  | cons {afterDot : Bool} {t : Token} {ts : List Token} : isDelimiter t = false →
    (afterDot = false → t.isWord "import" = false ∧ t.isWord "export" = false) →
    Silent (t.text = ".") ts → Silent afterDot (t :: ts)
  | access {t next : Token} {ts : List Token} : t.isWord "import" = true →
    (next.isPunctuator "(" || next.isPunctuator ".") = true → Silent false (next :: ts) →
    Silent false (t :: next :: ts)
  | bracket {afterDot : Bool} {opener closer : Token} {inner ts : List Token} :
    opener.kind = .punctuator → closer.kind = .punctuator →
    closerOf opener.text = some closer.text → Nested inner → Silent false ts →
    Silent afterDot (opener :: (inner ++ closer :: ts))

variable (stop : Nat) (m : Interface) (opened : List Token) (afterDot : Bool)

/-- Where a bracket is open, a dot before a word makes no difference. -/
theorem statements_afterDot (opener : Token) (ts : List Token) :
    statements stop m (opener :: opened) afterDot ts =
      statements stop m (opener :: opened) false ts := by
  cases ts with
  | nil => rw [statements, statements]
  | cons t ts =>
    rw [statements.eq_def, statements.eq_def stop m (opener :: opened) false]
    simp only [List.isEmpty_cons, Bool.and_false, Bool.false_and]

/-- Where a bracket is open, tokens in which brackets nest are passed over. -/
theorem statements_nested {ts : List Token} (nested : Nested ts) (opener : Token)
    (rest : List Token) : statements stop m (opener :: opened) afterDot (ts ++ rest) =
      statements stop m (opener :: opened) false rest := by
  induction nested generalizing opened opener afterDot rest with
  | nil => exact statements_afterDot stop m opened afterDot opener rest
  | @cons t ts plain _ ih =>
    rw [List.cons_append, statements_plain stop m (opener :: opened) _ _ plain nofun, ih]
  | @bracket inner closer within ts kind kind' closes _ _ ihInner ih =>
    rw [List.cons_append, List.append_assoc, List.cons_append,
      statements_opener _ _ _ _ _ kind (by rw [closes]; rfl), ihInner,
      statements_closer _ _ _ _ _ kind' closes, ih]

/-- A bracket is passed over with all it encloses. -/
theorem statements_bracket {opener closer : Token} {inner : List Token}
    (kind : opener.kind = .punctuator) (kind' : closer.kind = .punctuator)
    (closes : closerOf opener.text = some closer.text) (nested : Nested inner) (rest : List Token) :
    statements stop m opened afterDot (opener :: (inner ++ closer :: rest)) =
      statements stop m opened false rest := by
  rw [statements_opener _ _ _ _ _ kind (by rw [closes]; rfl), statements_nested _ _ _ _ nested,
    statements_closer _ _ _ _ _ kind' closes]

/-- Tokens that say nothing are passed over up to a semicolon behind them. -/
theorem statements_silent {ts : List Token} (silent : Silent afterDot ts) (i : Nat)
    (rest : List Token) :
    statements stop m [] afterDot (ts ++ ⟨.punctuator, i, ";"⟩ :: rest) =
      statements stop m [] false rest := by
  induction silent with
  | nil => exact statements_semicolon stop m _ rest i
  | cons plain word _ ih => rw [List.cons_append, statements_plain _ _ _ _ _ plain fun _ => word, ih]
  | @access t next ts word access _ ih =>
    let us := ts ++ ⟨.punctuator, i, ";"⟩ :: rest
    have read : importDeclaration stop t m (next :: us) = .ok (m, next :: us) := if_pos access
    rw [List.cons_append, List.cons_append, statements_import _ _ _ word, read]
    exact ih
  | bracket kind kind' closes inner _ ih =>
    rw [List.cons_append, List.append_assoc, List.cons_append,
      statements_bracket _ _ _ _ kind kind' closes inner, ih]

end Esm.Interface
