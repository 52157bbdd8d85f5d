-- SUMMARY: Reading module text token by token, through template substitutions and past faults.
import Esm.Token.Lexeme

/-!
# Scanner

A scanner holds the text still to be read, its byte offset and the last token completed, which tells
a regular expression from a division. A template is one token together with its substitutions, in
which tokens and templates nest; the templates open at a moment form a stack, and one `step` takes
one token or one stretch of template text. After a fault the scanner stands right behind what was
taken and can be asked again.

Main statements: a step takes at least one character (`step_more_lt`), and so does every call that
does not find the end of the input (`next_lt`).
-/

namespace Esm

open Text Lexeme

/-- A scanner: the text still to be read, its byte offset, and the last token completed. -/
structure Scanner where
  rest : List Char
  offset : Nat
  previous : Option Token
deriving DecidableEq, Repr

namespace Scanner

/-! ## States -/

/-- Step over text taken off the head of the rest. -/
def skip (s : Scanner) (text rest : List Char) : Scanner :=
  { s with rest := rest, offset := s.offset + byteLength text }

/-- Note the token just completed. -/
def complete (s : Scanner) (t : Token) : Scanner := { s with previous := some t }

/-- A scanner at the start of a text. A line that starts with `#!` is skipped if it comes first. -/
def ofSource (source : String) : Scanner :=
  let s : Scanner := ⟨source.toList, 0, none⟩
  match source.toList with
  | '#' :: '!' :: _ =>
    let line := run (fun c => !isLineEnd c) s.rest
    s.skip line.1 line.2
  | _ => s

theorem ofSource_plain {source : String} (plain : ¬ "#!".toList <+: source.toList) :
    ofSource source = ⟨source.toList, 0, none⟩ := by
  unfold ofSource
  dsimp only
  split
  · rename_i line whole
    exact absurd ⟨line, whole.symm⟩ plain
  · rfl

/-- The words after which an expression starts. -/
def expressionKeywords : List String :=
  ["return", "typeof", "instanceof", "in", "of", "new", "delete", "void", "throw", "case", "do",
    "else", "yield", "await"]

/-- Whether a slash opens a regular expression: where the token before cannot end an operand. -/
def regExpAllowed (s : Scanner) : Bool :=
  match s.previous with
  | none => true
  | some t =>
    match t.kind with
    | .punctuator => !([")", "]", "\x7d"].contains t.text)
    | .identifier => expressionKeywords.contains t.text
    | _ => false

/-! ## Steps -/

/-- A template whose closing backtick is still to come: where it starts, its text so far, and the
number of braces open in the substitution being read. -/
structure Frame where
  start : Nat
  text : List Char
  depth : Nat
deriving DecidableEq, Repr

/-- Add text to a template. -/
def Frame.extend (f : Frame) (text : List Char) : Frame := { f with text := f.text ++ text }

/-- Add text to the innermost template. -/
def extendInnermost (text : List Char) : List Frame → List Frame
  | [] => []
  | f :: frames => f.extend text :: frames

/-- A fault in the text, at a byte offset. -/
abbrev Failure := Located Fault

/-- What a step comes to: the call is over, or it goes on inside the innermost open template. -/
inductive Step where
  | done (result : Except Failure Token) (s : Scanner)
  | more (frames : List Frame) (s : Scanner)

/-- Read template text of the template `f` up to its end or its next substitution. -/
def templateStep (f : Frame) (frames : List Frame) (s : Scanner) : Step :=
  let chunk := templateChunk s.rest
  let f := f.extend chunk.text
  let s := s.skip chunk.text chunk.rest
  match chunk.ending with
  | .unterminated => .done (.error ⟨.unterminatedTemplate, f.start⟩) s
  | .substitution => .more ({ f with depth := 0 } :: frames) s
  | .closed =>
    let t : Token := ⟨.template, f.start, String.ofList f.text⟩
    match frames with
    | [] => .done (.ok t) (s.complete t)
    | outer :: frames => .more (outer.extend f.text :: frames) (s.complete t)

/-- Go on behind a simple token: the call is over outside templates; inside one, braces are counted,
and the one that closes the substitution leads back to template text. -/
def tokenStep (frames : List Frame) (t : Token) (s : Scanner) : Step :=
  match frames with
  | [] => .done (.ok t) s
  | f :: frames =>
    if t.isPunctuator "\x7b" then .more ({ f with depth := f.depth + 1 } :: frames) s
    else if t.isPunctuator "\x7d" then
      match f.depth with
      | 0 => templateStep f frames s
      | depth + 1 => .more ({ f with depth := depth } :: frames) s
    else .more (f :: frames) s

/-- Read one token, or the opening of a template with its first stretch of text. -/
def step (frames : List Frame) (s : Scanner) : Step :=
  match gap s.rest with
  | .unterminated before _ =>
    .done (.error ⟨.unterminatedComment, s.offset + byteLength before⟩) (s.skip s.rest [])
  | .complete blank rest =>
    let s := s.skip blank rest
    match rest with
    | [] =>
      match frames with
      | [] => .done (.ok ⟨.endOfInput, s.offset, ""⟩) s
      | f :: _ => .done (.error ⟨.unterminatedTemplate, f.start⟩) s
    | c :: cs =>
      match head s.regExpAllowed c cs with
      | .fault cause text rest => .done (.error ⟨cause, s.offset⟩) (s.skip text rest)
      | .token kind text rest =>
        let t : Token := ⟨kind, s.offset, String.ofList text⟩
        tokenStep (extendInnermost (blank ++ text) frames) t ((s.skip text rest).complete t)
      | .template =>
        templateStep ⟨s.offset, [c], 0⟩ (extendInnermost blank frames) (s.skip [c] cs)

/-- The scanner that a step leaves. -/
def Step.scanner : Step → Scanner
  | .done _ s => s
  | .more _ s => s

theorem templateStep_scanner_le (f : Frame) (frames : List Frame) (s : Scanner) :
    (templateStep f frames s).scanner.rest.length ≤ s.rest.length := by
  have shorter := length_le_of_append_eq (templateChunk_append s.rest)
  simp only [templateStep]
  cases (templateChunk s.rest).ending with
  | unterminated => exact shorter
  | substitution => exact shorter
  | closed => cases frames <;> exact shorter

theorem tokenStep_scanner_le (frames : List Frame) (t : Token) (s : Scanner) :
    (tokenStep frames t s).scanner.rest.length ≤ s.rest.length := by
  cases frames with
  | nil => exact Nat.le_refl _
  | cons f frames =>
    simp only [tokenStep]
    split
    · exact Nat.le_refl _
    · split
      · cases f.depth with
        | zero => exact templateStep_scanner_le f frames s
        | succ => exact Nat.le_refl _
      · exact Nat.le_refl _

/-- A step that meets a character behind the gap takes it. -/
theorem step_scanner_lt (frames : List Frame) {s : Scanner} {blank cs : List Char} {c : Char}
    (h : gap s.rest = .complete blank (c :: cs)) :
    (step frames s).scanner.rest.length < s.rest.length := by
  have whole : blank ++ c :: cs = s.rest := by
    have := gap_source s.rest
    rwa [h] at this
  have shorter : cs.length < s.rest.length := by
    simp only [← whole, List.length_append, List.length_cons]
    omega
  have taken := head_append (s.skip blank (c :: cs)).regExpAllowed c cs
  simp only [step, h]
  obtain ⟨text, _, split⟩ := taken
  have left := length_le_of_append_eq split
  cases read : head (s.skip blank (c :: cs)).regExpAllowed c cs with
  | fault cause text rest =>
    rw [read] at left
    exact Nat.lt_of_le_of_lt left shorter
  | token kind text rest =>
    rw [read] at left
    exact Nat.lt_of_le_of_lt (tokenStep_scanner_le _ _ _) (Nat.lt_of_le_of_lt left shorter)
  | template => exact Nat.lt_of_le_of_lt (templateStep_scanner_le _ _ _) shorter

/-- A step that is not the last of its call leaves less to read. -/
theorem step_more_lt {frames frames' : List Frame} {s s' : Scanner}
    (h : step frames s = .more frames' s') : s'.rest.length < s.rest.length := by
  cases read : gap s.rest with
  | unterminated => simp [step, read] at h
  | complete blank rest =>
    cases rest with
    | nil =>
      simp only [step, read] at h
      split at h <;> cases h
    | cons c cs =>
      have := step_scanner_lt frames read
      rwa [h] at this

/-- A step that yields a token leaves less to read, unless the input has ended. -/
theorem step_done_lt {frames : List Frame} {s s' : Scanner} {t : Token}
    (h : step frames s = .done (.ok t) s') (kind : t.kind ≠ .endOfInput) :
    s'.rest.length < s.rest.length := by
  cases read : gap s.rest with
  | unterminated => simp [step, read] at h
  | complete blank rest =>
    cases rest with
    | nil =>
      simp only [step, read] at h
      split at h <;> cases h
      simp at kind
    | cons c cs =>
      have := step_scanner_lt frames read
      rwa [h] at this

/-! ## Calls -/

/-- Take steps until the call is over. -/
def run (frames : List Frame) (s : Scanner) : Except Failure Token × Scanner :=
  match _ : step frames s with
  | .done result s' => (result, s')
  | .more frames' s' => run frames' s'
termination_by s.rest.length
decreasing_by exact step_more_lt (by assumption)

/-- The next token, or a fault, and the scanner behind what was taken. At the end of the input every
call answers with an empty end token. -/
def next (s : Scanner) : Except Failure Token × Scanner := run [] s

theorem run_lt {frames : List Frame} {s s' : Scanner} {t : Token}
    (h : run frames s = (.ok t, s')) (kind : t.kind ≠ .endOfInput) :
    s'.rest.length < s.rest.length := by
  fun_induction run frames s with
  | case1 frames s result s'' taken =>
    cases h
    exact step_done_lt taken kind
  | case2 frames s frames' s'' taken ih => exact Nat.lt_trans (ih h) (step_more_lt taken)

theorem next_lt {s s' : Scanner} {t : Token} (h : s.next = (.ok t, s'))
    (kind : t.kind ≠ .endOfInput) : s'.rest.length < s.rest.length :=
  run_lt h kind

theorem run_done {frames : List Frame} {s s' : Scanner} {result : Except Failure Token}
    (h : step frames s = .done result s') : run frames s = (result, s') := by
  rw [run]
  split
  · rename_i taken
    rw [h] at taken
    cases taken
    rfl
  · rename_i taken
    rw [h] at taken
    cases taken

theorem next_of_step {s s' : Scanner} {result : Except Failure Token}
    (h : step [] s = .done result s') : s.next = (result, s') :=
  run_done h

theorem run_more {frames frames' : List Frame} {s s' : Scanner}
    (h : step frames s = .more frames' s') : run frames s = run frames' s' := by
  rw [run]
  split
  · rename_i taken
    rw [h] at taken
    cases taken
  · rename_i taken
    rw [h] at taken
    cases taken
    rfl

/-- A call is decided by its first step. -/
theorem next_congr {s s' : Scanner} (same : step [] s = step [] s') : s.next = s'.next := by
  cases taken : step [] s' with
  | done result t => rw [next_of_step taken, next_of_step (same.trans taken)]
  | more frames t =>
    unfold next
    rw [run_more taken, run_more (same.trans taken)]

/-- Behind the last gap comes the end of the input. -/
theorem next_end {s : Scanner} {blank : List Char} (read : gap s.rest = .complete blank []) :
    s.next = (.ok ⟨.endOfInput, (s.skip blank []).offset, ""⟩, s.skip blank []) := by
  apply next_of_step
  unfold step
  rw [read]

/-- What starts a gap is skipped. -/
theorem next_consume {s : Scanner} {blank rest : List Char}
    (read : gap s.rest = (gap rest).consume blank) : s.next = (s.skip blank rest).next := by
  have whole : s.rest = blank ++ rest := by
    have source := gap_source s.rest
    rw [read, Gap.source_consume, gap_source] at source
    exact source.symm
  have same : step [] s = step [] (s.skip blank rest) := by
    unfold step
    rw [read]
    cases hgap : gap rest with
    | unterminated before comment => simp [Gap.consume, skip, hgap, whole, Nat.add_assoc]
    | complete text rest' =>
      simp [Gap.consume, skip, hgap, Nat.add_assoc, regExpAllowed, extendInnermost]
  exact next_congr same

/-- A blank before a token is skipped. -/
theorem next_blank {c : Char} (blank : isBlank c = true) (rest : List Char) (offset : Nat)
    (previous : Option Token) :
    next ⟨c :: rest, offset, previous⟩ = next ⟨rest, offset + c.utf8Size, previous⟩ :=
  next_consume (s := ⟨c :: rest, offset, previous⟩) (gap_blank blank rest)

/-- A word, before anything that ends a word. -/
theorem next_word {c d : Char} {cs : List Char} (start : isIdentifierStart c = true)
    (blank : isBlank c = false) (digit : c.isDigit = false)
    (letters : ∀ x ∈ cs, isIdentifierContinue x = true) (ends : isIdentifierContinue d = false)
    (rest : List Char) (offset : Nat) (previous : Option Token) :
    let t : Token := ⟨.identifier, offset, String.ofList (c :: cs)⟩
    next ⟨c :: (cs ++ d :: rest), offset, previous⟩ =
      (.ok t, ⟨d :: rest, offset + byteLength (c :: cs), some t⟩) := by
  have word : Lexeme.run isIdentifierContinue (cs ++ d :: rest) = (cs, d :: rest) := by
    unfold Lexeme.run
    rw [List.takeWhile_append_of_pos letters, List.dropWhile_append_of_pos letters]
    simp [ends]
  have other : ∀ {x : Char}, isIdentifierStart x = false → c ≠ x := by
    rintro x no rfl
    rw [start] at no
    cases no
  have read : ∀ allowed, head allowed c (cs ++ d :: rest) =
      .token .identifier (c :: cs) (d :: rest) := by
    intro allowed
    unfold Lexeme.head backtick
    rw [word]
    simp [start, digit, simple, other (x := '"') (by decide), other (x := '\'') (by decide),
      other (x := '\x60') (by decide), other (x := '.') (by decide), other (x := '/') (by decide)]
  apply next_of_step
  unfold step
  simp only [gap_eq_nil blank (other (by decide)), read]
  rfl

/-- The word that starts an import, before anything that ends a word. -/
theorem next_import {c : Char} (h : isIdentifierContinue c = false) (rest : List Char)
    (offset : Nat) (previous : Option Token) : next ⟨"import".toList ++ c :: rest, offset, previous⟩ =
      (.ok ⟨.identifier, offset, "import"⟩,
        ⟨c :: rest, offset + 6, some ⟨.identifier, offset, "import"⟩⟩) := by
  have letters : ∀ x ∈ "mport".toList, isIdentifierContinue x = true :=
    List.all_eq_true.1 (by decide)
  exact next_word (c := 'i') (by decide) (by decide) (by decide) letters h rest offset previous

/-- A punctuation character that starts nothing longer, unless it is a point before a digit. -/
def isMark (c : Char) : Bool :=
  isPunctuation c && !isIdentifierStart c && !isBlank c &&
    !(['"', '\'', backtick, '/', '#'].contains c)

theorem head_mark {c : Char} {rest : List Char} (mark : isMark c = true)
    (point : c = '.' → rest.head?.any Char.isDigit = false) (allowed : Bool) :
    head allowed c rest = .token .punctuator [c] rest := by
  simp only [isMark, Bool.and_eq_true, Bool.not_eq_true', List.contains_cons, List.contains_nil,
    Bool.or_false, Bool.or_eq_false_iff, beq_eq_false_iff_ne, ne_eq] at mark
  obtain ⟨⟨⟨punctuation, start⟩, -⟩, double, single, template, slash, hash⟩ := mark
  have digit : c.isDigit = false := by
    simp only [isPunctuation, Bool.and_eq_true, Bool.not_eq_true', Char.isAlphanum,
      Bool.or_eq_false_iff] at punctuation
    exact punctuation.2.2
  unfold Lexeme.head
  by_cases dot : c = '.'
  · simp [double, single, template, digit, slash, start, hash, punctuation, point dot]
  · simp [double, single, template, digit, slash, start, hash, punctuation, dot]

theorem next_mark {c : Char} {rest : List Char} (mark : isMark c = true)
    (point : c = '.' → rest.head?.any Char.isDigit = false) (offset : Nat)
    (previous : Option Token) :
    let t : Token := ⟨.punctuator, offset, String.ofList [c]⟩
    next ⟨c :: rest, offset, previous⟩ = (.ok t, ⟨rest, offset + c.utf8Size, some t⟩) := by
  have nonblank : isBlank c = false ∧ c ≠ '/' := by
    simp only [isMark, Bool.and_eq_true, Bool.not_eq_true', List.contains_cons, Bool.or_eq_false_iff,
      beq_eq_false_iff_ne, ne_eq] at mark
    exact ⟨mark.1.2, mark.2.2.2.2.1⟩
  apply next_of_step
  unfold step
  simp only [gap_eq_nil nonblank.1 nonblank.2, head_mark mark point]
  rfl

/-- A string in single quotes that has no escapes. -/
theorem next_string {body : List Char}
    (plain : (body.all fun c => c ≠ '\'' ∧ c ≠ '\\' ∧ isLineEnd c = false) = true)
    (rest : List Char) (offset : Nat) (previous : Option Token) :
    let t : Token := ⟨.string, offset, String.ofList ('\'' :: (body ++ ['\'']))⟩
    next ⟨'\'' :: (body ++ '\'' :: rest), offset, previous⟩ =
      (.ok t, ⟨rest, offset + byteLength ('\'' :: (body ++ ['\''])), some t⟩) := by
  have read : ∀ allowed, head allowed '\'' (body ++ '\'' :: rest) =
      .token .string ('\'' :: (body ++ ['\''])) rest := by
    intro allowed
    have plain' : ∀ c ∈ body, c ≠ '\'' ∧ c ≠ '\\' ∧ isLineEnd c = false := by
      intro c mem
      exact of_decide_eq_true (List.all_eq_true.1 plain c mem)
    unfold Lexeme.head
    simp only [stringTail_plain (by decide) (by decide) plain']
    rfl
  apply next_of_step
  unfold step
  simp only [gap_eq_nil (show isBlank '\'' = false by decide) (by decide), read]
  rfl

/-- A template that has no substitutions. -/
theorem next_template {cs text rest : List Char} (chunk : templateChunk cs = ⟨text, rest, .closed⟩)
    (offset : Nat) (previous : Option Token) :
    let t : Token := ⟨.template, offset, String.ofList (backtick :: text)⟩
    next ⟨backtick :: cs, offset, previous⟩ =
      (.ok t, ⟨rest, offset + byteLength (backtick :: text), some t⟩) := by
  have read : ∀ allowed, head allowed backtick cs = .template := by
    intro allowed
    unfold Lexeme.head
    rfl
  have behind : offset + byteLength [backtick] + byteLength text =
      offset + byteLength (backtick :: text) := by
    rw [Nat.add_assoc, ← byteLength_append]
    rfl
  apply next_of_step
  unfold step
  simp only [gap_eq_nil (show isBlank backtick = false by decide) (by decide), read]
  unfold templateStep
  simp only [skip, chunk, byteLength_nil, Nat.add_zero, behind]
  rfl

/-- All tokens up to the end of the input, without the end token, or the first fault. -/
def tokens (s : Scanner) : Except Failure (List Token) :=
  match _ : s.next with
  | (.error failure, _) => .error failure
  | (.ok t, s') => if _ : t.kind = .endOfInput then .ok [] else (tokens s').map (t :: ·)
termination_by s.rest.length
decreasing_by exact next_lt (by assumption) (by assumption)

/-- The tokens are decided by the first call. -/
theorem tokens_eq (s : Scanner) : s.tokens =
    match s.next with
    | (.error failure, _) => .error failure
    | (.ok t, s') => if t.kind = .endOfInput then .ok [] else s'.tokens.map (t :: ·) := by
  rw [tokens]
  split
  · rename_i call
    rw [call]
  · rename_i call
    rw [call]
    rfl

theorem tokens_congr {s s' : Scanner} (same : s.next = s'.next) : s.tokens = s'.tokens := by
  rw [tokens_eq, tokens_eq, same]

theorem tokens_of_next {s s' : Scanner} {t : Token} (h : s.next = (.ok t, s')) :
    s.tokens = if t.kind = .endOfInput then .ok [] else s'.tokens.map (t :: ·) := by
  rw [tokens_eq, h]

theorem tokens_cons {s s' : Scanner} {t : Token} {ts : List Token} (h : s.next = (.ok t, s'))
    (kind : t.kind ≠ .endOfInput) (rest : s'.tokens = .ok ts) : s.tokens = .ok (t :: ts) := by
  rw [tokens_of_next h, if_neg kind, rest]
  rfl

/-- There is no token behind the last character. -/
theorem tokens_nil (offset : Nat) (previous : Option Token) :
    tokens ⟨[], offset, previous⟩ = .ok [] := by
  have last : next ⟨[], offset, previous⟩ =
      (.ok ⟨.endOfInput, offset, ""⟩, ⟨[], offset, previous⟩) :=
    next_of_step (by cbv)
  rw [tokens_of_next last]
  rfl

end Scanner

/-- The tokens of a source text, without the end token. -/
def tokenize (source : String) : Except Scanner.Failure (List Token) :=
  (Scanner.ofSource source).tokens

end Esm
