-- SUMMARY: What stands at the head of a text when its line ends have got carriage returns.
import Esm.Proofs.Token.Followed

/-!
# Line ends

A text is converted by writing CR LF for every LF. Gaps and template text are taken as before, with
their line ends converted, and a token is still the same token, with one exception: a string in
which a line feed is escaped. Its escape takes the carriage return alone, and the line feed behind
it breaks the string. Main statements: `gap_crlf`, `templateChunk_crlf`, `head_crlf`.
-/

namespace Esm

namespace Text

/-- A text with CR LF for every LF. -/
def crlf : List Char → List Char
  | [] => []
  | c :: cs => if c = '\n' then '\r' :: '\n' :: crlf cs else c :: crlf cs

@[simp] theorem crlf_nil : crlf [] = [] := rfl

@[simp] theorem crlf_feed (cs : List Char) : crlf ('\n' :: cs) = '\r' :: '\n' :: crlf cs := rfl

theorem crlf_cons {c : Char} (other : c ≠ '\n') (cs : List Char) : crlf (c :: cs) = c :: crlf cs :=
  if_neg other

@[simp] theorem crlf_append (cs ds : List Char) : crlf (cs ++ ds) = crlf cs ++ crlf ds := by
  induction cs with
  | nil => rfl
  | cons c cs ih =>
    by_cases feed : c = '\n'
    · subst feed
      simp [ih]
    · simp [crlf_cons feed, ih]

theorem crlf_eq_self {cs : List Char} (none : '\n' ∉ cs) : crlf cs = cs := by
  induction cs with
  | nil => rfl
  | cons c cs ih =>
    obtain ⟨other, none⟩ := not_or.1 (List.mem_cons.not.1 none)
    rw [crlf_cons (Ne.symm other), ih none]

theorem ne_feed {c : Char} (line : isLineEnd c = false) : c ≠ '\n' := by
  rintro rfl
  cases line

/-- A character that ends no line was there before. -/
theorem eq_cons_of_crlf {cs ds : List Char} {d : Char} (line : isLineEnd d = false)
    (whole : crlf cs = d :: ds) : ∃ ds', cs = d :: ds' ∧ ds = crlf ds' := by
  cases cs with
  | nil => cases whole
  | cons c cs =>
    by_cases feed : c = '\n'
    · subst feed
      rw [crlf_feed] at whole
      cases whole
      cases line
    · rw [crlf_cons feed] at whole
      cases whole
      exact ⟨cs, rfl, rfl⟩

/-- What comes first is the same for a test that holds of both line ends or of none. -/
theorem head?_crlf (test : Char → Bool) (both : test '\r' = test '\n') (cs : List Char) :
    (crlf cs).head?.any test = cs.head?.any test := by
  cases cs with
  | nil => rfl
  | cons c cs =>
    by_cases feed : c = '\n'
    · subst feed
      exact both
    · rw [crlf_cons feed]
      rfl

end Text

namespace Lexeme

open Text

-- ---------------------------------------------------------------------------
-- Runs, comments and templates
-- ---------------------------------------------------------------------------

/-- A piece of a converted text. -/
def Piece.crlf {ε : Type} (p : Piece ε) : Piece ε := ⟨Text.crlf p.text, Text.crlf p.rest, p.ending⟩

theorem Piece.crlf_consume {ε : Type} (p : Piece ε) (before : List Char) :
    (p.consume before).crlf = p.crlf.consume (Text.crlf before) := by
  simp [crlf, consume]

/-- A gap of a converted text. -/
def Gap.crlf : Gap → Gap
  | .complete text rest => .complete (Text.crlf text) (Text.crlf rest)
  | .unterminated before comment => .unterminated (Text.crlf before) (Text.crlf comment)

theorem Gap.crlf_consume (g : Gap) (taken : List Char) :
    (g.consume taken).crlf = g.crlf.consume (Text.crlf taken) := by
  cases g <;> simp [crlf, consume]

theorem crlf_run {test : Char → Bool} (feed : test '\n' = false) (cs : List Char) :
    Text.crlf (run test cs).1 = (run test cs).1 := by
  refine crlf_eq_self fun mem => ?_
  rw [List.all_eq_true.1 List.all_takeWhile _ mem] at feed
  cases feed

theorem run_crlf {test : Char → Bool} (return_ : test '\r' = false) (feed : test '\n' = false)
    (cs : List Char) : run test (crlf cs) = ((run test cs).1, crlf (run test cs).2) := by
  induction cs with
  | nil => rfl
  | cons c cs ih =>
    by_cases same : c = '\n'
    · subst same
      simp [run, return_, feed]
    · rw [crlf_cons same]
      simp only [run, List.takeWhile_cons, List.dropWhile_cons] at ih ⊢
      obtain ⟨taken, left⟩ := Prod.mk.inj ih
      split
      · rw [taken, left]
      · rw [crlf_cons same]

theorem numberTail_crlf (hexadecimal : Bool) (last : Char) (cs : List Char) :
    numberTail hexadecimal last (crlf cs) =
      ((numberTail hexadecimal last cs).1, crlf (numberTail hexadecimal last cs).2) := by
  induction cs generalizing last with
  | nil => rfl
  | cons c cs ih =>
    by_cases feed : c = '\n'
    · subst feed
      have feed : '\n'.isAlphanum = false := by decide
      have return_ : '\r'.isAlphanum = false := by decide
      simp [numberTail, feed, return_]
    · rw [crlf_cons feed]
      simp only [numberTail]
      split
      · rw [ih]
      · rw [crlf_cons feed]

theorem templateChunk_plain {c : Char} (escape : c ≠ '\\') (dollar : c ≠ '$') (close : c ≠ backtick)
    (cs : List Char) : templateChunk (c :: cs) = (templateChunk cs).consume [c] := by
  rw [templateChunk_cons escape fun same => absurd same dollar, if_neg close]

theorem templateChunk_crlf (cs : List Char) :
    templateChunk (crlf cs) = (templateChunk cs).crlf := by
  have feed (cs : List Char) : templateChunk ('\n' :: cs) = (templateChunk cs).consume ['\n'] :=
    templateChunk_plain (by decide) (by decide) (by decide) cs
  have return_ (cs : List Char) : templateChunk ('\r' :: cs) = (templateChunk cs).consume ['\r'] :=
    templateChunk_plain (by decide) (by decide) (by decide) cs
  fun_induction templateChunk cs with
  | case1 => rfl
  | case2 => rfl
  | case3 c cs ih =>
    rw [Piece.crlf_consume, ← ih]
    by_cases same : c = '\n'
    · subst same
      simp only [crlf_cons (show '\\' ≠ '\n' by decide), crlf_feed, crlf_nil, templateChunk, feed]
      rfl
    · simp only [crlf_cons (show '\\' ≠ '\n' by decide), crlf_cons same, crlf_nil, templateChunk]
  | case4 cs => rfl
  | case5 cs last more => rfl
  | case6 c cs last more opening other ih =>
    rw [Piece.crlf_consume, ← ih]
    by_cases same : c = '\n'
    · subst same
      rw [crlf_feed, return_, feed]
      rfl
    · have opening' : c = '$' → (crlf cs).head? ≠ some '\x7b' := by
        intro dollar brace
        obtain ⟨ds, whole⟩ := List.head?_eq_some_iff.1 brace
        obtain ⟨ds', rfl, -⟩ := eq_cons_of_crlf (by decide) whole
        exact opening ds' dollar rfl
      rw [crlf_cons same, templateChunk_cons (ne_backslash last more) opening', if_neg other,
        crlf_cons same, crlf_nil]

theorem blockCommentTail_crlf (afterStar : Bool) (cs : List Char) :
    blockCommentTail afterStar (crlf cs) = (blockCommentTail afterStar cs).crlf := by
  induction cs generalizing afterStar with
  | nil => rfl
  | cons c cs ih =>
    by_cases feed : c = '\n'
    · subst feed
      simp [blockCommentTail, ih, Piece.crlf, Piece.consume]
    · rw [crlf_cons feed]
      simp only [blockCommentTail]
      split
      · simp [Piece.crlf, crlf_cons feed]
      · rw [ih, Piece.crlf_consume, crlf_cons feed]
        rfl

theorem gap_crlf (cs : List Char) : gap (crlf cs) = (gap cs).crlf := by
  fun_induction gap cs with
  | case1 =>
    rw [crlf_nil, gap]
    rfl
  | case2 cs comment ih =>
    have same : run (fun c => !isLineEnd c) (Text.crlf cs) = (comment.1, Text.crlf comment.2) :=
      run_crlf (by decide) (by decide) cs
    have whole : Text.crlf comment.1 = comment.1 := crlf_run (by decide) cs
    rw [Gap.crlf_consume, ← ih]
    show gap ('/' :: '/' :: Text.crlf cs) = _
    rw [gap]
    simp only [same]
    show _ = Gap.consume ('/' :: '/' :: Text.crlf comment.1) _
    rw [whole]
  | case3 cs comment closed ih =>
    rw [Gap.crlf_consume, ← ih]
    show gap ('/' :: '*' :: Text.crlf cs) = _
    have closed' : (blockCommentTail false cs).crlf.ending = .closed := closed
    rw [gap]
    simp only [blockCommentTail_crlf, closed']
    rfl
  | case4 cs comment broken =>
    show gap ('/' :: '*' :: Text.crlf cs) = _
    have broken' : (blockCommentTail false cs).crlf.ending = .unterminated := broken
    rw [gap]
    simp only [blockCommentTail_crlf, broken']
    rfl
  | case5 c cs _ _ blank ih =>
    rw [Gap.crlf_consume, ← ih]
    by_cases feed : c = '\n'
    · subst feed
      rw [crlf_feed, gap_blank (by decide), gap_blank (by decide), Gap.consume_consume]
      rfl
    · rw [crlf_cons feed, gap_blank blank, crlf_cons feed, crlf_nil]
  | case6 c cs line block other =>
    have feed : c ≠ '\n' := by
      rintro rfl
      exact other (by decide)
    rw [crlf_cons feed, gap, if_neg other, ← crlf_cons feed]
    · rfl
    · rintro ds slash whole
      obtain ⟨ds', rfl, -⟩ := eq_cons_of_crlf (by decide) whole
      exact line ds' slash rfl
    · rintro ds slash whole
      obtain ⟨ds', rfl, -⟩ := eq_cons_of_crlf (by decide) whole
      exact block ds' slash rfl

-- ---------------------------------------------------------------------------
-- Strings and regular expressions
-- ---------------------------------------------------------------------------

/-- How a literal of a text and of the converted text end, and what is left behind it. -/
structure Piece.Converts (p p' : Piece Ending) : Prop where
  ending : p'.ending = p.ending
  rest : p.ending = .closed → p'.rest = Text.crlf p.rest

theorem Piece.Converts.broken {p p' : Piece Ending} (ending : p.ending = .unterminated)
    (ending' : p'.ending = .unterminated) : p.Converts p' := by
  refine ⟨ending'.trans ending.symm, fun closed => ?_⟩
  rw [ending] at closed
  cases closed

theorem Piece.Converts.consume {p p' : Piece Ending} (converts : p.Converts p')
    (before before' : List Char) : (p.consume before).Converts (p'.consume before') :=
  ⟨converts.ending, converts.rest⟩

theorem eq_or_eq_of_isLineEnd {c : Char} (line : isLineEnd c = true) : c = '\n' ∨ c = '\r' := by
  simpa [isLineEnd] using line

/-- Whether a line feed is escaped. -/
def escapesFeed : List Char → Bool
  | '\\' :: c :: cs => c == '\n' || escapesFeed cs
  | _ :: cs => escapesFeed cs
  | [] => false

/-- A character that does not start an escape escapes nothing. -/
theorem escapesFeed_cons {c : Char} (escape : c ≠ '\\') (cs : List Char) :
    escapesFeed (c :: cs) = escapesFeed cs := by
  rw [escapesFeed]
  intro d ds same
  exact absurd same escape

/-- The same for strings: in the converted text one is broken off if a line feed is escaped in it.
-/
def Piece.StringConverts (p p' : Piece Ending) : Prop :=
  if escapesFeed p.text then p'.ending = .unterminated else p.Converts p'

theorem Piece.StringConverts.consume {p p' : Piece Ending} (converts : p.StringConverts p')
    {before : List Char} (plain : escapesFeed (before ++ p.text) = escapesFeed p.text)
    (before' : List Char) : (p.consume before).StringConverts (p'.consume before') := by
  unfold StringConverts at converts ⊢
  rw [show (p.consume before).text = before ++ p.text from rfl, plain]
  split at converts
  · rename_i escaped
    rw [if_pos escaped]
    exact converts
  · rename_i unescaped
    rw [if_neg unescaped]
    exact converts.consume before before'

theorem stringTail_crlf (quote : Char) (cs : List Char) :
    (stringTail quote cs).StringConverts (stringTail quote (crlf cs)) := by
  have done {p p' : Piece Ending} (plain : escapesFeed p.text = false) (converts : p.Converts p') :
      p.StringConverts p' := by
    unfold Piece.StringConverts
    rwa [plain]
  fun_induction stringTail quote cs with
  | case1 => exact done rfl (.broken rfl rfl)
  | case2 => exact done rfl (.broken rfl rfl)
  | case3 c cs ih =>
    by_cases feed : c = '\n'
    · subst feed
      -- the escape takes the carriage return
      have broken : (stringTail quote (crlf ('\\' :: '\n' :: cs))).ending = .unterminated := rfl
      simpa [Piece.StringConverts, Piece.consume, escapesFeed] using broken
    · rw [crlf_cons (by decide), crlf_cons feed, stringTail]
      exact ih.consume (by simp [escapesFeed, feed]) _
  | case4 c cs last more line =>
    have plain : escapesFeed [c] = false := escapesFeed_cons (ne_backslash last more) []
    obtain rfl | rfl := eq_or_eq_of_isLineEnd line
    · exact done plain (.broken rfl rfl)
    · exact done plain (.broken rfl rfl)
  | case5 cs last more line =>
    have line : isLineEnd quote = false := by simpa using line
    have escape := ne_backslash last more
    rw [crlf_cons (ne_feed line), stringTail_cons escape line, if_pos rfl]
    exact done (escapesFeed_cons escape []) ⟨rfl, fun _ => rfl⟩
  | case6 c cs last more line other ih =>
    have line : isLineEnd c = false := by simpa using line
    have escape := ne_backslash last more
    rw [crlf_cons (ne_feed line), stringTail_cons escape line, if_neg other]
    exact ih.consume (escapesFeed_cons escape _) _

theorem regExpBody_crlf (inClass : Bool) (cs : List Char) :
    (regExpBody inClass cs).Converts (regExpBody inClass (crlf cs)) := by
  fun_induction regExpBody inClass cs with
  | case1 => exact .broken rfl rfl
  | case2 => exact .broken rfl rfl
  | case3 inClass c cs line =>
    obtain rfl | rfl := eq_or_eq_of_isLineEnd line
    · exact .broken rfl rfl
    · exact .broken rfl rfl
  | case4 inClass c cs line ih =>
    have feed : c ≠ '\n' := ne_feed (by simpa using line)
    rw [crlf_cons (by decide), crlf_cons feed, regExpBody, if_neg line]
    exact ih.consume _ _
  | case5 inClass c cs last more line =>
    obtain rfl | rfl := eq_or_eq_of_isLineEnd line
    · exact .broken rfl rfl
    · exact .broken rfl rfl
  | case6 inClass cs last more line ih =>
    rw [crlf_cons (by decide), regExpBody_cons (ne_backslash last more) line, if_pos rfl]
    exact ih.consume _ _
  | case7 inClass cs last more line _ ih =>
    rw [crlf_cons (by decide), regExpBody_cons (ne_backslash last more) line, if_neg (by decide),
      if_pos rfl]
    exact ih.consume _ _
  | case8 inClass c cs last more line opening closing slash =>
    have feed : c ≠ '\n' := ne_feed (by simpa using line)
    rw [crlf_cons feed, regExpBody_cons (ne_backslash last more) line, if_neg opening,
      if_neg closing, if_pos slash]
    exact ⟨rfl, fun _ => rfl⟩
  | case9 inClass c cs last more line opening closing other ih =>
    have feed : c ≠ '\n' := ne_feed (by simpa using line)
    rw [crlf_cons feed, regExpBody_cons (ne_backslash last more) line, if_neg opening,
      if_neg closing, if_neg other]
    exact ih.consume _ _

theorem regExpTail_crlf (cs : List Char) : (regExpTail cs).Converts (regExpTail (crlf cs)) := by
  obtain ⟨ending, rest⟩ := regExpBody_crlf false cs
  unfold regExpTail
  cases closed : (regExpBody false cs).ending with
  | unterminated =>
    simp only [closed, ending]
    exact .broken closed (ending.trans closed)
  | closed =>
    have flags := run_crlf (show isIdentifierContinue '\r' = false by decide) (by decide)
      (regExpBody false cs).rest
    simp only [closed, ending, rest closed, flags]
    exact ⟨rfl, fun _ => rfl⟩

-- ---------------------------------------------------------------------------
-- Single tokens
-- ---------------------------------------------------------------------------

/-- What stands at the head of a text and of the converted text: the same, with the same text if it
is a word or a punctuator, or in the second a fault, if it is a string in which a line feed is
escaped. -/
inductive Head.Converts : Head → Head → Prop where
  | token {kind : TokenKind} {text text' rest : List Char} :
    (kind = .identifier ∨ kind = .punctuator → text' = text) →
    (kind = .string → escapesFeed text = false) →
    Converts (.token kind text rest) (.token kind text' (crlf rest))
  | template : Converts .template .template
  | fault {cause cause' : Fault} {text text' rest rest' : List Char} :
    Converts (.fault cause text rest) (.fault cause' text' rest')
  | broken {cause : Fault} {text text' rest rest' : List Char} : escapesFeed text = true →
    Converts (.token .string text rest) (.fault cause text' rest')

theorem literal_crlf {kind : TokenKind} (cause : Fault) (c : Char) {tail tail' : Piece Ending}
    (converts : tail.Converts tail') (spelled : ¬ (kind = .identifier ∨ kind = .punctuator))
    (plain : kind = .string → escapesFeed (c :: tail.text) = false) :
    (literal kind cause c tail).Converts (literal kind cause c tail') := by
  unfold literal
  rw [converts.ending]
  cases ending : tail.ending with
  | unterminated => exact .fault
  | closed =>
    rw [converts.rest ending]
    exact .token (fun kind => absurd kind spelled) plain

theorem head_crlf (allowed : Bool) (c : Char) (cs : List Char) :
    (head allowed c cs).Converts (head allowed c (crlf cs)) := by
  have digit := head?_crlf Char.isDigit (by decide) cs
  have start := head?_crlf isIdentifierStart (by decide) cs
  have mark := head?_crlf (fun x => x = 'x' || x = 'X') (by decide) cs
  unfold head
  simp only [digit, start, mark]
  split
  · rename_i quote
    have escape : c ≠ '\\' := by
      rintro rfl
      exact absurd quote (by decide)
    have tail := stringTail_crlf c cs
    unfold Piece.StringConverts at tail
    split at tail
    · rename_i escaped
      unfold literal
      rw [tail]
      cases (stringTail c cs).ending with
      | unterminated => exact .fault
      | closed => exact .broken (by rw [escapesFeed_cons escape, escaped])
    · rename_i plain
      refine literal_crlf _ c tail (by decide) fun _ => ?_
      rw [escapesFeed_cons escape]
      simpa using plain
  split
  · exact .template
  split
  · rw [numberTail_crlf]
    exact .token (fun _ => rfl) nofun
  split
  · exact literal_crlf _ _ (regExpTail_crlf cs) (by decide) nofun
  split
  · rw [run_crlf (by decide) (by decide)]
    exact .token (fun _ => rfl) nofun
  split
  · exact .token (fun _ => rfl) nofun
  · exact .fault

end Lexeme

end Esm
