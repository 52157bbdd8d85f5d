-- SUMMARY: The shapes of blanks, comments and single tokens at the head of a text.
import Esm.Text.Blank
import Esm.Text.Identifier
import Esm.Text.Position
import Esm.Token.Basic

/-!
# Lexemes

Each function here reads one shape off the head of a list of characters and answers with what it
took and what is left. Nothing is lost: the two parts make up the input again, also where a literal
is broken off, so that reading can go on behind a fault. The main statements are the `_append`
lemmas.
-/

namespace Esm.Lexeme

open Text

/-! ## Pieces -/

/-- How a delimited literal ends: at its closing delimiter, or broken off before it. -/
inductive Ending where
  | closed
  | unterminated
deriving DecidableEq, Repr

/-- How a stretch of template text ends: at the closing backtick, at the opening of a substitution,
or with the input. -/
inductive ChunkEnding where
  | closed
  | substitution
  | unterminated
deriving DecidableEq, Repr

/-- What was taken off the head of a text, what is left, and how the taken part ends. -/
structure Piece (ε : Type) where
  text : List Char
  rest : List Char
  ending : ε
deriving DecidableEq, Repr

/-- Put characters back in front of the part taken. -/
def Piece.consume {ε : Type} (before : List Char) (p : Piece ε) : Piece ε :=
  { p with text := before ++ p.text }

/-! ## Runs of characters -/

/-- The longest head whose characters all satisfy a test, and the rest. -/
def run (test : Char → Bool) (cs : List Char) : List Char × List Char :=
  (cs.takeWhile test, cs.dropWhile test)

theorem run_append (test : Char → Bool) (cs : List Char) :
    (run test cs).1 ++ (run test cs).2 = cs :=
  List.takeWhile_append_dropWhile

/-- The rest of a number after its first character: letters, digits, underscores and points, and a
sign right after an exponent mark unless the number is hexadecimal. -/
def numberTail (hexadecimal : Bool) : (last : Char) → List Char → List Char × List Char
  | _, [] => ([], [])
  | last, c :: cs =>
    let exponentSign := (c == '+' || c == '-') && (last == 'e' || last == 'E') && !hexadecimal
    if c.isAlphanum || c == '_' || c == '.' || exponentSign then
      let (text, rest) := numberTail hexadecimal c cs
      (c :: text, rest)
    else ([], c :: cs)

theorem numberTail_append (hexadecimal : Bool) (last : Char) (cs : List Char) :
    (numberTail hexadecimal last cs).1 ++ (numberTail hexadecimal last cs).2 = cs := by
  induction cs generalizing last with
  | nil => rfl
  | cons c cs ih =>
    simp only [numberTail]
    split
    · simp [ih]
    · rfl

/-! ## Delimited literals -/

/-- The rest of a string after its opening quote. A backslash takes the next character along,
whatever it is; a bare line end breaks the string. -/
def stringTail (quote : Char) : List Char → Piece Ending
  | [] => ⟨[], [], .unterminated⟩
  | '\\' :: [] => ⟨['\\'], [], .unterminated⟩
  | '\\' :: c :: cs => (stringTail quote cs).consume ['\\', c]
  | c :: cs =>
    if isLineEnd c then ⟨[c], cs, .unterminated⟩
    else if c = quote then ⟨[c], cs, .closed⟩
    else (stringTail quote cs).consume [c]

theorem stringTail_append (quote : Char) (cs : List Char) :
    (stringTail quote cs).text ++ (stringTail quote cs).rest = cs := by
  fun_induction stringTail quote cs <;> simp_all [Piece.consume]

/-- A character that is neither an escape nor a line end belongs to a string, and ends it if it is
the quote. -/
theorem stringTail_cons {c : Char} (escape : c ≠ '\\') (line : isLineEnd c = false) (quote : Char)
    (cs : List Char) : stringTail quote (c :: cs) =
      if c = quote then ⟨[c], cs, .closed⟩ else (stringTail quote cs).consume [c] := by
  rw [stringTail]
  · rw [line]
    rfl
  · intro same
    exact absurd same escape
  · intro d ds same
    exact absurd same escape

theorem stringTail_plain {quote : Char} {body : List Char} (escape : quote ≠ '\\')
    (line : isLineEnd quote = false)
    (plain : ∀ c ∈ body, c ≠ quote ∧ c ≠ '\\' ∧ isLineEnd c = false) (rest : List Char) :
    stringTail quote (body ++ quote :: rest) = ⟨body ++ [quote], rest, .closed⟩ := by
  induction body with
  | nil => simp [stringTail_cons escape line]
  | cons c body ih =>
    obtain ⟨⟨other, escape', line'⟩, plain⟩ := List.forall_mem_cons.1 plain
    rw [List.cons_append, stringTail_cons escape' line', if_neg other, ih plain]
    rfl

/-- The body of a regular expression after its opening slash, up to and with the closing one. A
slash inside a character class does not close it, a line end breaks it even behind a backslash. -/
def regExpBody : (inClass : Bool) → List Char → Piece Ending
  | _, [] => ⟨[], [], .unterminated⟩
  | _, '\\' :: [] => ⟨['\\'], [], .unterminated⟩
  | inClass, '\\' :: c :: cs =>
    if isLineEnd c then ⟨['\\', c], cs, .unterminated⟩
    else (regExpBody inClass cs).consume ['\\', c]
  | inClass, c :: cs =>
    if isLineEnd c then ⟨[c], cs, .unterminated⟩
    else if c = '[' then (regExpBody true cs).consume [c]
    else if c = ']' then (regExpBody false cs).consume [c]
    else if c = '/' && !inClass then ⟨[c], cs, .closed⟩
    else (regExpBody inClass cs).consume [c]

theorem regExpBody_append (inClass : Bool) (cs : List Char) :
    (regExpBody inClass cs).text ++ (regExpBody inClass cs).rest = cs := by
  fun_induction regExpBody inClass cs <;> simp_all [Piece.consume]

/-- The rest of a regular expression: its body and, once that is closed, its flags. -/
def regExpTail (cs : List Char) : Piece Ending :=
  let body := regExpBody false cs
  match body.ending with
  | .unterminated => body
  | .closed =>
    let (flags, rest) := run isIdentifierContinue body.rest
    ⟨body.text ++ flags, rest, .closed⟩

theorem regExpTail_append (cs : List Char) :
    (regExpTail cs).text ++ (regExpTail cs).rest = cs := by
  have whole := regExpBody_append false cs
  simp only [regExpTail]
  split
  · exact whole
  · simp only [List.append_assoc, run_append, whole]

/-- The delimiter of templates. -/
def backtick : Char := '\x60'

/-- Template text up to and with the closing backtick or the opening of a substitution. -/
def templateChunk : List Char → Piece ChunkEnding
  | [] => ⟨[], [], .unterminated⟩
  | '\\' :: [] => ⟨['\\'], [], .unterminated⟩
  | '\\' :: c :: cs => (templateChunk cs).consume ['\\', c]
  | '$' :: '\x7b' :: cs => ⟨['$', '\x7b'], cs, .substitution⟩
  | c :: cs =>
    if c = backtick then ⟨[c], cs, .closed⟩
    else (templateChunk cs).consume [c]

theorem templateChunk_append (cs : List Char) :
    (templateChunk cs).text ++ (templateChunk cs).rest = cs := by
  fun_induction templateChunk cs <;> simp_all [Piece.consume]

/-- A character that is neither an escape nor the opening of a substitution belongs to a template,
and ends it if it is the backtick. -/
theorem templateChunk_cons {c : Char} {cs : List Char} (escape : c ≠ '\\')
    (opening : c = '$' → cs.head? ≠ some '\x7b') : templateChunk (c :: cs) =
      if c = backtick then ⟨[c], cs, .closed⟩ else (templateChunk cs).consume [c] := by
  rw [templateChunk]
  · intro same
    exact absurd same escape
  · intro d ds same
    exact absurd same escape
  · rintro ds same rfl
    exact absurd rfl (opening same)

/-! ## Gaps between tokens -/

/-- The rest of a block comment after its opening, up to and with its closing. The star of the
opening does not count for the closing. -/
def blockCommentTail : (afterStar : Bool) → List Char → Piece Ending
  | _, [] => ⟨[], [], .unterminated⟩
  | afterStar, c :: cs =>
    if afterStar && c == '/' then ⟨[c], cs, .closed⟩
    else (blockCommentTail (c == '*') cs).consume [c]

theorem blockCommentTail_append (afterStar : Bool) (cs : List Char) :
    (blockCommentTail afterStar cs).text ++ (blockCommentTail afterStar cs).rest = cs := by
  induction cs generalizing afterStar with
  | nil => rfl
  | cons c cs ih =>
    simp only [blockCommentTail]
    split
    · rfl
    · simp [Piece.consume, ih]

/-- The blanks and comments before the next token, or what precedes a block comment that is never
closed. -/
inductive Gap where
  | complete (text rest : List Char)
  | unterminated (before comment : List Char)
deriving DecidableEq, Repr

/-- Put characters in front of a gap. -/
def Gap.consume (taken : List Char) : Gap → Gap
  | .complete text rest => .complete (taken ++ text) rest
  | .unterminated before comment => .unterminated (taken ++ before) comment

/-- The characters that a gap was read from. -/
def Gap.source : Gap → List Char
  | .complete text rest => text ++ rest
  | .unterminated before comment => before ++ comment

@[simp] theorem Gap.source_consume (taken : List Char) (g : Gap) :
    (g.consume taken).source = taken ++ g.source := by
  cases g <;> simp [consume, source]

theorem length_le_of_append_eq {α : Type} {text rest cs : List α} (h : text ++ rest = cs) :
    rest.length ≤ cs.length := by
  simp [← h]

/-- Read the gap at the head of a text. A line comment ends before its line end. -/
def gap : List Char → Gap
  | [] => .complete [] []
  | '/' :: '/' :: cs =>
    let comment := run (fun c => !isLineEnd c) cs
    (gap comment.2).consume ('/' :: '/' :: comment.1)
  | '/' :: '*' :: cs =>
    let comment := blockCommentTail false cs
    match comment.ending with
    | .closed => (gap comment.rest).consume ('/' :: '*' :: comment.text)
    | .unterminated => .unterminated [] ('/' :: '*' :: cs)
  | c :: cs => if isBlank c then (gap cs).consume [c] else .complete [] (c :: cs)
termination_by cs => cs.length
decreasing_by
  · have := length_le_of_append_eq (run_append (fun c => !isLineEnd c) cs)
    simp only [List.length_cons]
    omega
  · have := length_le_of_append_eq (blockCommentTail_append false cs)
    simp only [List.length_cons]
    omega
  · simp

theorem gap_source (cs : List Char) : (gap cs).source = cs := by
  fun_induction gap cs with
  | case1 => rfl
  | case2 cs comment ih =>
    simp only [Gap.source_consume, ih, List.cons_append, comment, run_append]
  | case3 cs comment _ ih =>
    simp only [Gap.source_consume, ih, List.cons_append, comment, blockCommentTail_append]
  | case4 => rfl
  | case5 c cs _ _ _ ih => simp [ih]
  | case6 => rfl

/-- A character that is neither a blank nor a slash ends the gap. -/
theorem gap_eq_nil {c : Char} (blank : isBlank c = false) (slash : c ≠ '/') (cs : List Char) :
    gap (c :: cs) = .complete [] (c :: cs) := by
  rw [gap]
  · rw [blank]
    rfl
  · intro cs same
    exact absurd same slash
  · intro cs same
    exact absurd same slash

/-- A blank is part of the gap, which goes on behind it. -/
theorem gap_blank {c : Char} (blank : isBlank c = true) (cs : List Char) :
    gap (c :: cs) = (gap cs).consume [c] := by
  have noComment : c ≠ '/' := by
    rintro rfl
    exact absurd blank (by decide)
  rw [gap]
  · rw [if_pos blank]
  · intro cs slash
    exact absurd slash noComment
  · intro cs slash
    exact absurd slash noComment

/-! ## Single tokens -/

/-- A piece of punctuation: any visible ASCII character that is neither letter nor digit. -/
def isPunctuation (c : Char) : Bool :=
  '!' ≤ c && c ≤ '~' && !c.isAlphanum

/-- Why no token can be read. -/
inductive Fault where
  | unexpectedCharacter (c : Char)
  | unterminatedComment
  | unterminatedString
  | unterminatedTemplate
  | unterminatedRegExp
deriving DecidableEq, Repr

/-- What stands at the head of a text: a token with no parts of its own, the opening of a template,
or a fault. -/
inductive Head where
  | token (kind : TokenKind) (text rest : List Char)
  | template
  | fault (cause : Fault) (text rest : List Char)
deriving DecidableEq, Repr

/-- The characters taken off and those left. -/
def Head.split (c : Char) (cs : List Char) : Head → List Char × List Char
  | .token _ text rest => (text, rest)
  | .template => ([c], cs)
  | .fault _ text rest => (text, rest)

/-- A delimited literal behind its opening character `c`. -/
def literal (kind : TokenKind) (cause : Fault) (c : Char) (tail : Piece Ending) : Head :=
  match tail.ending with
  | .closed => .token kind (c :: tail.text) tail.rest
  | .unterminated => .fault cause (c :: tail.text) tail.rest

/-- A token made of `c` and a run of characters behind it. -/
def simple (kind : TokenKind) (c : Char) (tail : List Char × List Char) : Head :=
  .token kind (c :: tail.1) tail.2

/-- Read what stands at the head of the text `c :: cs`. Whether a slash opens a regular expression
is for the caller to say. -/
def head (regExpAllowed : Bool) (c : Char) (cs : List Char) : Head :=
  let nextIs (test : Char → Bool) := cs.head?.any test
  if c = '"' || c = '\'' then literal .string .unterminatedString c (stringTail c cs)
  else if c = backtick then .template
  else if c.isDigit || (c = '.' && nextIs Char.isDigit) then
    let hexadecimal := c = '0' && nextIs fun x => x = 'x' || x = 'X'
    simple .number c (numberTail hexadecimal ' ' cs)
  else if c = '/' && regExpAllowed then literal .regExp .unterminatedRegExp c (regExpTail cs)
  else if isIdentifierStart c || (c = '#' && nextIs isIdentifierStart) then
    simple .identifier c (run isIdentifierContinue cs)
  else if isPunctuation c then .token .punctuator [c] cs
  else .fault (.unexpectedCharacter c) [c] cs

/-- Reading the head takes at least its first character, and loses nothing. -/
theorem head_append (regExpAllowed : Bool) (c : Char) (cs : List Char) :
    ∃ text, ((head regExpAllowed c cs).split c cs).1 = c :: text ∧
      text ++ ((head regExpAllowed c cs).split c cs).2 = cs := by
  have literal_append : ∀ kind cause (tail : Piece Ending), tail.text ++ tail.rest = cs →
      ∃ text, ((literal kind cause c tail).split c cs).1 = c :: text ∧
        text ++ ((literal kind cause c tail).split c cs).2 = cs := by
    intro kind cause tail whole
    simp only [literal]
    cases tail.ending <;> exact ⟨tail.text, rfl, whole⟩
  have simple_append : ∀ kind (tail : List Char × List Char), tail.1 ++ tail.2 = cs →
      ∃ text, ((simple kind c tail).split c cs).1 = c :: text ∧
        text ++ ((simple kind c tail).split c cs).2 = cs :=
    fun kind tail whole => ⟨tail.1, rfl, whole⟩
  simp only [head]
  split
  · exact literal_append _ _ _ (stringTail_append c cs)
  · split
    · exact ⟨[], rfl, rfl⟩
    · split
      · exact simple_append _ _ (numberTail_append _ _ cs)
      · split
        · exact literal_append _ _ _ (regExpTail_append cs)
        · split
          · exact simple_append _ _ (run_append _ cs)
          · split <;> exact ⟨[], rfl, rfl⟩

end Esm.Lexeme
