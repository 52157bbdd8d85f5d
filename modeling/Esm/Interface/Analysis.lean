-- SUMMARY: Reading the interface of a module off its tokens, delimiters checked.
import Esm.Interface.Export
import Esm.Interface.Import

/-!
# Analysis

A module's tokens are read once. Round, square and curly brackets have to nest; `import` and
`export` start a declaration where no bracket is open and no dot stands before them, and everything
else is passed over.
-/

namespace Esm.Interface

/-- The closing delimiter that an opening one asks for. -/
def closerOf (opener : String) : Option String :=
  if opener = "(" then some ")" else if opener = "[" then some "]"
  else if opener = "\x7b" then some "\x7d" else none

/-- Whether a text is one of the closing delimiters. -/
def isCloser (text : String) : Bool := [")", "]", "\x7d"].contains text

/-- A closing delimiter closes, and opens nothing. -/
theorem closerOf_closer {opener closer : String} (closes : closerOf opener = some closer) :
    closerOf closer = none ∧ isCloser closer = true := by
  unfold closerOf at closes
  split at closes
  · cases closes
    decide
  split at closes
  · cases closes
    decide
  split at closes
  · cases closes
    decide
  · cases closes

/-- Read the tokens of a module. `opened` are the opening delimiters not closed yet, the innermost
first, and `afterDot` tells whether the token before is a dot. -/
def statements (stop : Nat) (m : Interface) (opened : List Token) (afterDot : Bool) :
    List Token → Except Failure Interface
  | [] =>
    match opened with
    | [] => .ok m
    | opener :: _ => .error ⟨.neverClosed opener.text, opener.start⟩
  | t :: ts =>
    if t.kind = .punctuator then
      if (closerOf t.text).isSome then statements stop m (t :: opened) false ts
      else if isCloser t.text then
        match opened with
        | opener :: opened =>
          if closerOf opener.text = some t.text then statements stop m opened false ts
          else .error ⟨.unexpectedToken t.text, t.start⟩
        | [] => .error ⟨.unexpectedToken t.text, t.start⟩
      else statements stop m opened (t.text = ".") ts
    else if t.isWord "import" && opened.isEmpty && !afterDot then
      match _ : importDeclaration stop t m ts with
      | .error failure => .error failure
      | .ok (m, ts') => statements stop m [] false ts'
    else if t.isWord "export" && opened.isEmpty && !afterDot then
      match _ : exportDeclaration stop t m ts with
      | .error failure => .error failure
      | .ok (m, ts') => statements stop m [] false ts'
    else statements stop m opened (t.text = ".") ts
termination_by ts => ts.length
decreasing_by
  all_goals simp only [List.length_cons]
  all_goals first
    | exact Nat.lt_succ_self _
    | exact Nat.lt_succ_of_le (importDeclaration_length (by assumption))
    | exact Nat.lt_succ_of_le (exportDeclaration_length (by assumption))

theorem statements_nil (stop : Nat) (m : Interface) (afterDot : Bool) :
    statements stop m [] afterDot [] = .ok m := by
  rw [statements]

/-- Whether a token opens or closes a bracket. -/
def isDelimiter (t : Token) : Bool :=
  t.kind == .punctuator && ((closerOf t.text).isSome || isCloser t.text)

section

variable (stop : Nat) (m : Interface) (opened : List Token) (afterDot : Bool) {t : Token}
  (ts : List Token)

theorem statements_opener (kind : t.kind = .punctuator) (opens : (closerOf t.text).isSome = true) :
    statements stop m opened afterDot (t :: ts) = statements stop m (t :: opened) false ts := by
  rw [statements.eq_def]
  simp only [kind, opens, if_true]

theorem statements_closer {opener : Token} (kind : t.kind = .punctuator)
    (closes : closerOf opener.text = some t.text) :
    statements stop m (opener :: opened) afterDot (t :: ts) =
      statements stop m opened false ts := by
  obtain ⟨opens, closer⟩ := closerOf_closer closes
  rw [statements.eq_def]
  simp only [kind, opens, closer, closes, if_true, Option.isSome_none, Bool.false_eq_true, if_false]

theorem statements_plain (plain : isDelimiter t = false)
    (word : opened = [] → afterDot = false → t.isWord "import" = false ∧ t.isWord "export" = false) :
    statements stop m opened afterDot (t :: ts) =
      statements stop m opened (t.text = ".") ts := by
  rw [statements.eq_def]
  by_cases kind : t.kind = .punctuator
  · simp only [isDelimiter, kind, BEq.rfl, Bool.true_and, Bool.or_eq_false_iff] at plain
    simp only [kind, plain.1, plain.2, if_true, Bool.false_eq_true, if_false]
  · have passed : ∀ word : String,
        (opened = [] → afterDot = false → t.isWord word = false) →
        (t.isWord word && opened.isEmpty && !afterDot) = false := by
      intro word absent
      cases opened with
      | cons => simp
      | nil =>
        cases afterDot with
        | true => simp
        | false => simp [absent rfl rfl]
    have noImport := passed "import" fun outside free => (word outside free).1
    have noExport := passed "export" fun outside free => (word outside free).2
    simp only [kind, noImport, noExport, if_false, Bool.false_eq_true]

/-- Outside brackets a semicolon ends whatever comes before it. -/
theorem statements_semicolon (i : Nat) :
    statements stop m [] afterDot (⟨.punctuator, i, ";"⟩ :: ts) = statements stop m [] false ts :=
  statements_plain _ _ _ _ _ rfl fun _ _ => ⟨rfl, rfl⟩

theorem statements_import (word : t.isWord "import" = true) :
    statements stop m [] false (t :: ts) = (do
      let (m, ts) ← importDeclaration stop t m ts
      statements stop m [] false ts) := by
  have kind : t.kind ≠ .punctuator := by
    rw [(isWord_eq word).1]
    decide
  rw [statements.eq_def]
  simp only [kind, word, if_false, List.isEmpty_nil, Bool.not_false, Bool.and_true, if_true]
  split
  · rename_i call
    rw [call]
    rfl
  · rename_i call
    rw [call]
    rfl

theorem statements_export (word : t.isWord "export" = true) :
    statements stop m [] false (t :: ts) = (do
      let (m, ts) ← exportDeclaration stop t m ts
      statements stop m [] false ts) := by
  obtain ⟨kind, text⟩ := isWord_eq word
  have other : t.isWord "import" = false := by
    simp [Token.isWord, text]
  have kind : t.kind ≠ .punctuator := by
    rw [kind]
    decide
  rw [statements.eq_def]
  simp only [kind, other, word, if_false, List.isEmpty_nil, Bool.not_false, Bool.and_true,
    Bool.false_eq_true, if_true]
  split
  · rename_i call
    rw [call]
    rfl
  · rename_i call
    rw [call]
    rfl

end

/-- The interface of a module, from its tokens and the byte length of its source. -/
def ofTokens (stop : Nat) (ts : List Token) : Except Failure Interface :=
  statements stop empty [] false ts

end Esm.Interface
