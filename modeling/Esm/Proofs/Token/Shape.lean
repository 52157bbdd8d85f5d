-- SUMMARY: What the text of a token looks like, for each kind of token.
import Esm.Proofs.Token.Scanned

/-!
# Shapes of tokens

Every kind of token has a shape of its own, said here on the characters of its text and not by way
of what reads them: how a word goes on, what a quote may enclose, where a regular expression ends.
Main statement: each token that a call yields has the shape of its kind (`Token.Scanned.shape`).
-/

namespace Esm

open Text

namespace Lexeme

-- ---------------------------------------------------------------------------
-- Shapes
-- ---------------------------------------------------------------------------

/-- What may stand between two quotes: a backslash with any character behind it, and every other
character that is neither the quote nor a line end. -/
inductive Quoted (quote : Char) : List Char → Prop where
  | nil : Quoted quote []
  | escape {c : Char} {cs : List Char} : Quoted quote cs → Quoted quote ('\\' :: c :: cs)
  | plain {c : Char} {cs : List Char} : c ≠ '\\' → c ≠ quote → isLineEnd c = false →
    Quoted quote cs → Quoted quote (c :: cs)

/-- The texts of the tokens of a kind. There is none at the end of the input. -/
inductive Shape : TokenKind → List Char → Prop where
  | word {c : Char} {cs : List Char} : isIdentifierStart c = true →
    (∀ x ∈ cs, isIdentifierContinue x = true) → Shape .identifier (c :: cs)
  | privateName {c : Char} {cs : List Char} : isIdentifierStart c = true →
    (∀ x ∈ cs, isIdentifierContinue x = true) → Shape .identifier ('#' :: c :: cs)
  | string {quote : Char} {body : List Char} : quote = '"' ∨ quote = '\'' → Quoted quote body →
    Shape .string (quote :: (body ++ [quote]))
  | template {body : List Char} : Shape .template (backtick :: (body ++ [backtick]))
  | number {c : Char} {cs : List Char} : c.isDigit = true → Shape .number (c :: cs)
  | fraction {c : Char} {cs : List Char} : c.isDigit = true → Shape .number ('.' :: c :: cs)
  | regExp {body flags : List Char} : (∀ x ∈ body ++ flags, isLineEnd x = false) →
    (∀ x ∈ flags, isIdentifierContinue x = true) → Shape .regExp ('/' :: (body ++ '/' :: flags))
  | punctuator {c : Char} : isPunctuation c = true → Shape .punctuator [c]

theorem Shape.ne_nil {kind : TokenKind} {text : List Char} (shape : Shape kind text) :
    text ≠ [] := by
  cases shape <;> exact List.cons_ne_nil _ _

-- ---------------------------------------------------------------------------
-- Literals
-- ---------------------------------------------------------------------------

theorem stringTail_quoted {quote : Char} {cs : List Char}
    (closed : (stringTail quote cs).ending = .closed) :
    ∃ body, (stringTail quote cs).text = body ++ [quote] ∧ Quoted quote body := by
  fun_induction stringTail quote cs with
  | case1 => cases closed
  | case2 => cases closed
  | case3 c cs ih =>
    obtain ⟨body, whole, quoted⟩ := ih closed
    exact ⟨'\\' :: c :: body, by simp [Piece.consume, whole], .escape quoted⟩
  | case4 => cases closed
  | case5 => exact ⟨[], rfl, .nil⟩
  | case6 c cs last more line other ih =>
    obtain ⟨body, whole, quoted⟩ := ih closed
    refine ⟨c :: body, by simp [Piece.consume, whole], ?_⟩
    exact .plain (ne_backslash last more) other (by simpa using line) quoted

theorem regExpBody_line {inClass : Bool} {cs : List Char}
    (closed : (regExpBody inClass cs).ending = .closed) :
    ∃ body, (regExpBody inClass cs).text = body ++ ['/'] ∧ ∀ x ∈ body, isLineEnd x = false := by
  have further : ∀ {before : List Char} {p : Piece Ending},
      (∀ x ∈ before, isLineEnd x = false) →
      (∃ body, p.text = body ++ ['/'] ∧ ∀ x ∈ body, isLineEnd x = false) →
      ∃ body, (p.consume before).text = body ++ ['/'] ∧ ∀ x ∈ body, isLineEnd x = false := by
    rintro before p line ⟨body, whole, line'⟩
    exact ⟨before ++ body, by simp [Piece.consume, whole], List.forall_mem_append.2 ⟨line, line'⟩⟩
  fun_induction regExpBody inClass cs with
  | case1 => cases closed
  | case2 => cases closed
  | case3 => cases closed
  | case4 inClass c cs line ih =>
    have escape : isLineEnd '\\' = false := by decide
    exact further (by simpa [escape] using line) (ih closed)
  | case5 => cases closed
  | case6 inClass cs last more line ih =>
    exact further (List.forall_mem_singleton.2 rfl) (ih closed)
  | case7 inClass cs last more line _ ih =>
    exact further (List.forall_mem_singleton.2 rfl) (ih closed)
  | case8 => exact ⟨[], by simp_all, List.forall_mem_nil _⟩
  | case9 inClass c cs last more line _ _ _ ih => exact further (by simpa using line) (ih closed)

/-- No character that continues a word ends a line. -/
theorem isLineEnd_of_isIdentifierContinue {c : Char} (continues : isIdentifierContinue c = true) :
    isLineEnd c = false := by
  cases line : isLineEnd c with
  | false => rfl
  | true =>
    simp only [isLineEnd, Bool.or_eq_true, beq_iff_eq] at line
    obtain rfl | rfl := line <;> exact absurd continues (by decide)

theorem run_satisfies (test : Char → Bool) (cs : List Char) :
    ∀ x ∈ (run test cs).1, test x = true :=
  List.all_eq_true.1 List.all_takeWhile

theorem regExpTail_shape {cs : List Char} (closed : (regExpTail cs).ending = .closed) :
    Shape .regExp ('/' :: (regExpTail cs).text) := by
  unfold regExpTail at closed ⊢
  cases ending : (regExpBody false cs).ending with
  | unterminated =>
    simp only [ending] at closed
    cases closed
  | closed =>
    obtain ⟨body, whole, line⟩ := regExpBody_line ending
    have flags := run_satisfies isIdentifierContinue (regExpBody false cs).rest
    simp only [ending, whole, List.append_assoc, List.singleton_append]
    refine .regExp (List.forall_mem_append.2 ⟨line, fun x mem => ?_⟩) flags
    exact isLineEnd_of_isIdentifierContinue (flags x mem)

-- ---------------------------------------------------------------------------
-- Tokens
-- ---------------------------------------------------------------------------

/-- A number starts with its first digit, or with a point that a digit comes behind. -/
theorem number_shape {c : Char} {cs : List Char} {hexadecimal : Bool}
    (number : (c.isDigit || (decide (c = '.') && cs.head?.any Char.isDigit)) = true) :
    Shape .number (c :: (numberTail hexadecimal ' ' cs).1) := by
  simp only [Bool.or_eq_true, Bool.and_eq_true, decide_eq_true_eq] at number
  obtain digit | ⟨rfl, digit⟩ := number
  · exact .number digit
  · cases cs with
    | nil => cases digit
    | cons d ds =>
      have digit : d.isDigit = true := digit
      have taken : (numberTail hexadecimal ' ' (d :: ds)).1 =
          d :: (numberTail hexadecimal d ds).1 := by
        simp [numberTail, Char.isAlphanum, digit]
      rw [taken]
      exact .fraction digit

/-- A word starts with its first letter, or with a hash that a letter comes behind. -/
theorem word_shape {c : Char} {cs : List Char}
    (word : (isIdentifierStart c || (decide (c = '#') && cs.head?.any isIdentifierStart)) = true) :
    Shape .identifier (c :: (run isIdentifierContinue cs).1) := by
  have continues := run_satisfies isIdentifierContinue cs
  simp only [Bool.or_eq_true, Bool.and_eq_true, decide_eq_true_eq] at word
  obtain start | ⟨rfl, start⟩ := word
  · exact .word start continues
  · cases cs with
    | nil => cases start
    | cons d ds =>
      have start : isIdentifierStart d = true := start
      have taken : (run isIdentifierContinue (d :: ds)).1 =
          d :: (run isIdentifierContinue ds).1 := by
        simp [run, isIdentifierContinue_of_isIdentifierStart start]
      rw [taken] at continues ⊢
      exact .privateName start (List.forall_mem_cons.1 continues).2

/-- A token at the head of a text has the shape of its kind. -/
theorem head_shape {allowed : Bool} {c : Char} {cs text rest : List Char} {kind : TokenKind}
    (read : head allowed c cs = .token kind text rest) : Shape kind text := by
  obtain ⟨text', spelled, -⟩ := head_append allowed c cs
  rw [read] at spelled
  obtain rfl : text = c :: text' := spelled
  unfold head at read
  dsimp only at read
  split at read
  · rename_i quote
    obtain ⟨rfl, rfl, -, closed⟩ := literal_eq_token read
    obtain ⟨body, whole, quoted⟩ := stringTail_quoted closed
    rw [whole]
    exact .string (by simpa using quote) quoted
  split at read
  · cases read
  split at read
  · rename_i number
    cases read
    exact number_shape number
  split at read
  · rename_i slash
    obtain ⟨rfl, rfl, -, closed⟩ := literal_eq_token read
    simp only [Bool.and_eq_true, decide_eq_true_eq] at slash
    rw [slash.1]
    exact regExpTail_shape closed
  split at read
  · rename_i word
    cases read
    exact word_shape word
  split at read
  · rename_i punctuation
    cases read
    exact .punctuator punctuation
  · cases read

end Lexeme

/-- A token that a call yields has the shape of its kind, unless the input has ended. -/
theorem Token.Scanned.shape {t : Token} (scanned : t.Scanned) (proper : t.kind ≠ .endOfInput) :
    Lexeme.Shape t.kind t.text.toList := by
  obtain ⟨s, s', call⟩ := scanned
  obtain ⟨ended, -⟩ | ⟨allowed, c, cs, text, rest, read, same⟩ | ⟨kind, body, whole⟩ :=
    Scanner.next_spelled call
  · exact absurd ended proper
  · rw [same, String.toList_ofList]
    exact Lexeme.head_shape read
  · rw [kind, whole]
    exact .template

end Esm
