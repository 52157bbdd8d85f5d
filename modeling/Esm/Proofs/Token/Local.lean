-- SUMMARY: What is read off the head of a text depends on what is taken, and on how the rest starts at most.
import Esm.Proofs.Token.Extent

/-!
# Reading again

What the scanner takes off the head of a text it takes again when something else is left behind it:
beyond what it takes it looks at one character, and there a space or a new line goes on with nothing.
-/

namespace Esm

/-- What is left starts as it did before, or there is nothing, a space or a new line instead. -/
def Text.Borders (left left' : List Char) : Prop :=
  left'.head? = left.head? ∨ ∀ c ∈ left'.head?, c = ' ' ∨ c = '\n'

open Text

theorem Text.Borders.append {left left' : List Char} (borders : Borders left left')
    (text : List Char) : Borders (text ++ left) (text ++ left') := by
  cases text with
  | nil => exact borders
  | cons c text => exact Or.inl rfl

/-- A test that fails on blanks and where something was left, fails on what is left instead. -/
theorem Text.Borders.any_head? {left left' : List Char} (borders : Borders left left')
    {test : Char → Bool} (space : test ' ' = false) (line : test '\n' = false)
    (fails : left.head?.any test = false) : left'.head?.any test = false := by
  obtain same | blank := borders
  · rw [same, fails]
  · cases left' with
    | nil => rfl
    | cons c left' =>
      obtain rfl | rfl := blank c rfl
      · exact space
      · exact line

/-- Where a test succeeds only if the next character is taken, it has the same outcome. -/
theorem Text.Borders.any_head?_eq {left left' text : List Char} (borders : Borders left left')
    {test : Char → Bool} (space : test ' ' = false) (line : test '\n' = false)
    (taken : (text ++ left).head?.any test = true → text ≠ []) :
    (text ++ left').head?.any test = (text ++ left).head?.any test := by
  cases present : (text ++ left).head?.any test with
  | false => exact (borders.append text).any_head? space line present
  | true =>
    cases text with
    | nil => exact absurd rfl (taken present)
    | cons c text => exact present

namespace Lexeme

variable {left left' : List Char}

-- ---------------------------------------------------------------------------
-- Runs
-- ---------------------------------------------------------------------------

theorem run_fails {test : Char → Bool} {cs : List Char} (fails : cs.head?.any test = false) :
    run test cs = ([], cs) := by
  cases cs with
  | nil => rfl
  | cons c cs => simp_all [run]

theorem head?_run_rest (test : Char → Bool) (cs : List Char) :
    (run test cs).2.head?.any test = false := by
  induction cs with
  | nil => rfl
  | cons c cs ih =>
    cases passes : test c with
    | false => simp [run, passes]
    | true => simpa [run, passes] using ih

/-- The same run is taken where it cannot go on. -/
theorem run_stops {test : Char → Bool} (fails : left.head?.any test = false) (cs : List Char) :
    run test ((run test cs).1 ++ left) = ((run test cs).1, left) := by
  induction cs with
  | nil => exact run_fails fails
  | cons c cs ih =>
    cases passes : test c with
    | false =>
      have stops : run test (c :: cs) = ([], c :: cs) := run_fails (by simp [passes])
      rw [stops]
      exact run_fails fails
    | true =>
      simp only [run, List.takeWhile_cons, List.dropWhile_cons, passes, if_true, List.cons_append,
        Prod.mk.injEq] at ih ⊢
      obtain ⟨text, rest⟩ := ih
      exact ⟨congrArg (c :: ·) text, rest⟩

theorem run_again {test : Char → Bool} (space : test ' ' = false) (line : test '\n' = false)
    {cs : List Char} (borders : Borders (run test cs).2 left) :
    run test ((run test cs).1 ++ left) = ((run test cs).1, left) :=
  run_stops (borders.any_head? space line (head?_run_rest test cs)) cs

theorem numberTail_again {hexadecimal : Bool} {last : Char} {cs : List Char}
    (borders : Borders (numberTail hexadecimal last cs).2 left) :
    numberTail hexadecimal last ((numberTail hexadecimal last cs).1 ++ left) =
      ((numberTail hexadecimal last cs).1, left) := by
  have ends : ∀ {last left}, left.head?.any (fun c => c.isAlphanum || c == '_' || c == '.' ||
      (c == '+' || c == '-') && (last == 'e' || last == 'E') && !hexadecimal) = false →
      numberTail hexadecimal last left = ([], left) := by
    intro last left fails
    cases left with
    | nil => rfl
    | cons c left =>
      simp only [List.head?_cons, Option.any_some] at fails
      simp only [numberTail, fails, Bool.false_eq_true, if_false]
  induction cs generalizing last with
  | nil => exact ends (borders.any_head? rfl rfl rfl)
  | cons c cs ih =>
    simp only [numberTail] at borders ⊢
    split
    · rename_i goesOn
      rw [if_pos goesOn] at borders
      simp only [List.cons_append, numberTail, goesOn, if_true, ih borders]
    · rename_i stops
      rw [if_neg stops] at borders
      exact ends (borders.any_head? rfl rfl (by simpa using stops))

-- ---------------------------------------------------------------------------
-- Delimited literals
-- ---------------------------------------------------------------------------

/-- The same piece, with something else left behind it. -/
def Piece.leaving {ε : Type} (p : Piece ε) (left : List Char) : Piece ε := { p with rest := left }

theorem Piece.leaving_consume {ε : Type} (p : Piece ε) (before left : List Char) :
    (p.consume before).leaving left = (p.leaving left).consume before := rfl

theorem Piece.text_consume_append {ε : Type} (p : Piece ε) (before left : List Char) :
    (p.consume before).text ++ left = before ++ (p.text ++ left) :=
  List.append_assoc before p.text left

/-- A character that does not start an escape, alone or with the character behind it. -/
theorem ne_backslash {c : Char} {cs : List Char} (last : c = '\\' → cs = [] → False)
    (more : ∀ (d : Char) (ds : List Char), c = '\\' → cs = d :: ds → False) : c ≠ '\\' := by
  intro escape
  cases cs with
  | nil => exact last escape rfl
  | cons d ds => exact more d ds escape rfl

theorem stringTail_again {quote : Char} {cs : List Char}
    (closed : (stringTail quote cs).ending = .closed) (left : List Char) :
    stringTail quote ((stringTail quote cs).text ++ left) = (stringTail quote cs).leaving left := by
  fun_induction stringTail quote cs with
  | case1 => cases closed
  | case2 => cases closed
  | case3 c cs ih =>
    rw [Piece.leaving_consume, ← ih closed]
    rfl
  | case4 => cases closed
  | case5 cs last more line =>
    rw [List.cons_append, stringTail_cons (ne_backslash last more) (by simpa using line), if_pos rfl]
    rfl
  | case6 c cs last more line other ih =>
    rw [Piece.text_consume_append, List.singleton_append,
      stringTail_cons (ne_backslash last more) (by simpa using line), if_neg other,
      Piece.leaving_consume, ih closed]

theorem regExpBody_cons {c : Char} (escape : c ≠ '\\') (line : ¬ isLineEnd c = true)
    (inClass : Bool) (cs : List Char) : regExpBody inClass (c :: cs) =
      if c = '[' then (regExpBody true cs).consume [c]
      else if c = ']' then (regExpBody false cs).consume [c]
      else if c = '/' && !inClass then ⟨[c], cs, .closed⟩
      else (regExpBody inClass cs).consume [c] := by
  rw [regExpBody, if_neg line]
  · intro same
    exact absurd same escape
  · intro d ds same
    exact absurd same escape

theorem regExpBody_again {inClass : Bool} {cs : List Char}
    (closed : (regExpBody inClass cs).ending = .closed) (left : List Char) :
    regExpBody inClass ((regExpBody inClass cs).text ++ left) =
      (regExpBody inClass cs).leaving left := by
  fun_induction regExpBody inClass cs with
  | case1 => cases closed
  | case2 => cases closed
  | case3 => cases closed
  | case4 inClass c cs line ih =>
    rw [Piece.leaving_consume, ← ih closed]
    simp [Piece.consume, regExpBody, line]
  | case5 => cases closed
  | case6 inClass cs last more line ih =>
    rw [Piece.text_consume_append, List.singleton_append,
      regExpBody_cons (ne_backslash last more) line, if_pos rfl, Piece.leaving_consume, ih closed]
  | case7 inClass cs last more line _ ih =>
    rw [Piece.text_consume_append, List.singleton_append,
      regExpBody_cons (ne_backslash last more) line, if_neg (by decide), if_pos rfl,
      Piece.leaving_consume, ih closed]
  | case8 inClass c cs last more line opening closing slash =>
    rw [List.cons_append, regExpBody_cons (ne_backslash last more) line, if_neg opening,
      if_neg closing, if_pos slash]
    rfl
  | case9 inClass c cs last more line opening closing other ih =>
    rw [Piece.text_consume_append, List.singleton_append,
      regExpBody_cons (ne_backslash last more) line, if_neg opening, if_neg closing, if_neg other,
      Piece.leaving_consume, ih closed]

theorem regExpTail_again {cs : List Char} (closed : (regExpTail cs).ending = .closed)
    (borders : Borders (regExpTail cs).rest left) :
    regExpTail ((regExpTail cs).text ++ left) = (regExpTail cs).leaving left := by
  unfold regExpTail at closed borders ⊢
  cases ending : (regExpBody false cs).ending with
  | unterminated =>
    simp only [ending] at closed
    cases closed
  | closed =>
    simp only [ending] at borders ⊢
    have flags := run_again (by decide) (by decide) borders
    rw [List.append_assoc, regExpBody_again ending]
    simp only [Piece.leaving, ending, flags]

theorem head?_templateChunk (cs : List Char) : (templateChunk cs).text.head? = cs.head? := by
  fun_cases templateChunk cs <;> rfl

theorem templateChunk_again {cs : List Char}
    (complete : (templateChunk cs).ending ≠ .unterminated) (left : List Char) :
    templateChunk ((templateChunk cs).text ++ left) = (templateChunk cs).leaving left := by
  fun_induction templateChunk cs with
  | case1 => cases complete rfl
  | case2 => cases complete rfl
  | case3 c cs ih =>
    rw [Piece.leaving_consume, ← ih complete]
    rfl
  | case4 => rfl
  | case5 cs last more =>
    rw [List.cons_append, templateChunk_cons (ne_backslash last more)
      (fun dollar => absurd dollar (by decide)), if_pos rfl]
    rfl
  | case6 c cs last more opening other ih =>
    have opening' : c = '$' → ((templateChunk cs).text ++ left).head? ≠ some '\x7b' := by
      intro dollar brace
      cases cs with
      | nil => exact complete rfl
      | cons d ds =>
        rw [List.head?_append, head?_templateChunk] at brace
        cases brace
        exact opening ds dollar rfl
    rw [Piece.text_consume_append, List.singleton_append,
      templateChunk_cons (ne_backslash last more) opening', if_neg other, Piece.leaving_consume,
      ih complete]

theorem blockCommentTail_again {afterStar : Bool} {cs : List Char}
    (closed : (blockCommentTail afterStar cs).ending = .closed) (left : List Char) :
    blockCommentTail afterStar ((blockCommentTail afterStar cs).text ++ left) =
      (blockCommentTail afterStar cs).leaving left := by
  induction cs generalizing afterStar with
  | nil => cases closed
  | cons c cs ih =>
    simp only [blockCommentTail] at closed ⊢
    split
    · rename_i last
      simp only [List.cons_append, List.nil_append, blockCommentTail, last, if_true]
      rfl
    · rename_i more
      rw [if_neg more] at closed
      rw [Piece.text_consume_append, List.singleton_append, blockCommentTail, if_neg more,
        Piece.leaving_consume, ih closed]

-- ---------------------------------------------------------------------------
-- Gaps and heads
-- ---------------------------------------------------------------------------

theorem Gap.consume_eq_complete {taken text rest : List Char} {g : Gap}
    (read : g.consume taken = .complete text rest) :
    ∃ text', g = .complete text' rest ∧ text = taken ++ text' := by
  cases g with
  | complete text' rest' =>
    cases read
    exact ⟨text', rfl, rfl⟩
  | unterminated before comment => cases read

/-- A gap ends where no other starts. -/
theorem gap_rest {cs blank rest : List Char} (read : gap cs = .complete blank rest) :
    gap rest = .complete [] rest := by
  fun_induction gap cs generalizing blank with
  | case1 =>
    cases read
    rw [gap]
  | case2 cs comment =>
    rename_i ih
    obtain ⟨text, read', -⟩ := Gap.consume_eq_complete read
    exact ih read'
  | case3 cs comment closed =>
    rename_i ih
    obtain ⟨text, read', -⟩ := Gap.consume_eq_complete read
    exact ih read'
  | case4 => cases read
  | case5 c cs lineComment blockComment blank' ih =>
    obtain ⟨text, read', -⟩ := Gap.consume_eq_complete read
    exact ih read'
  | case6 c cs lineComment blockComment blank' =>
    cases read
    rw [gap, if_neg blank']
    · exact lineComment
    · exact blockComment

theorem gap_again {c : Char} {cs blank rest : List Char}
    (read : gap cs = .complete blank (c :: rest)) (borders : Borders rest left) :
    gap (blank ++ c :: left) = .complete blank (c :: left) := by
  fun_induction gap cs generalizing blank with
  | case1 => cases read
  | case2 cs comment =>
    rename_i ih
    obtain ⟨text, read', rfl⟩ := Gap.consume_eq_complete read
    -- the comment ends at the character that comes next, be it of the gap or `c`
    have stops : (text ++ c :: left).head?.any (fun c => !isLineEnd c) = false := by
      have source : text ++ c :: rest = comment.2 := by
        have whole := gap_source comment.2
        rwa [read'] at whole
      have ends : (text ++ c :: rest).head?.any (fun c => !isLineEnd c) = false := by
        rw [source]
        exact head?_run_rest _ cs
      cases text <;> exact ends
    have same : run (fun c => !isLineEnd c) (comment.1 ++ (text ++ c :: left)) =
        (comment.1, text ++ c :: left) := run_stops stops cs
    rw [List.append_assoc, List.cons_append, List.cons_append, gap]
    simp only [same, ih read']
    rfl
  | case3 cs comment closed =>
    rename_i ih
    obtain ⟨text, read', rfl⟩ := Gap.consume_eq_complete read
    have same : blockCommentTail false (comment.text ++ (text ++ c :: left)) =
        comment.leaving (text ++ c :: left) := blockCommentTail_again closed _
    rw [List.append_assoc, List.cons_append, List.cons_append, gap]
    simp only [same, Piece.leaving, closed, ih read']
    rfl
  | case4 => cases read
  | case5 d cs lineComment blockComment blank' ih =>
    obtain ⟨text, read', rfl⟩ := Gap.consume_eq_complete read
    rw [List.append_assoc, List.singleton_append, gap_blank blank', ih read']
    rfl
  | case6 d cs lineComment blockComment blank' =>
    cases read
    have noComment : ∀ {d : Char}, d ≠ ' ' → d ≠ '\n' → (∀ ds, c = '/' → rest = d :: ds → False) →
        ∀ ds, c = '/' → left = d :: ds → False := by
      rintro d space line absent ds slash rfl
      obtain same | blank := borders
      · cases rest with
        | nil => cases same
        | cons e rest =>
          cases same
          exact absent rest slash rfl
      · obtain same | same := blank d rfl
        · exact space same
        · exact line same
    rw [List.nil_append, gap, if_neg blank']
    · exact noComment (by decide) (by decide) lineComment
    · exact noComment (by decide) (by decide) blockComment

/-- A letter or digit that comes next is part of a number. -/
theorem numberTail_ne_nil {test : Char → Bool} (letter : ∀ c, test c = true → c.isAlphanum = true)
    {cs : List Char} (present : cs.head?.any test = true) (hexadecimal : Bool) (last : Char) :
    (numberTail hexadecimal last cs).1 ≠ [] := by
  cases cs with
  | nil => cases present
  | cons c cs =>
    have taken : c.isAlphanum = true := letter c present
    simp [numberTail, taken]

theorem run_ne_nil {test test' : Char → Bool} (passes : ∀ c, test c = true → test' c = true)
    {cs : List Char} (present : cs.head?.any test = true) : (run test' cs).1 ≠ [] := by
  cases cs with
  | nil => cases present
  | cons c cs =>
    have taken : test' c = true := passes c present
    simp [run, taken]

/-- A literal is a token if it is closed. -/
theorem literal_eq_token {kind kind' : TokenKind} {cause : Fault} {c : Char} {p : Piece Ending}
    {text rest : List Char} (read : literal kind' cause c p = .token kind (c :: text) rest) :
    kind' = kind ∧ p.text = text ∧ p.rest = rest ∧ p.ending = .closed := by
  unfold literal at read
  split at read
  · rename_i closed
    injection read with same taken left
    exact ⟨same, (List.cons.inj taken).2, left, closed⟩
  · cases read

theorem simple_eq_token {kind kind' : TokenKind} {c : Char} {tail : List Char × List Char}
    {text rest : List Char} (read : simple kind' c tail = .token kind (c :: text) rest) :
    kind' = kind ∧ tail = (text, rest) := by
  injection read with same taken left
  exact ⟨same, Prod.ext (List.cons.inj taken).2 left⟩

theorem head_template {allowed : Bool} {c : Char} {cs : List Char}
    (read : head allowed c cs = .template) : c = backtick := by
  have noLiteral : ∀ {kind cause} {tail : Piece Ending}, literal kind cause c tail ≠ .template := by
    intro kind cause tail same
    unfold literal at same
    split at same <;> cases same
  unfold head at read
  dsimp only at read
  split at read
  · exact absurd read noLiteral
  split at read
  · assumption
  split at read
  · cases read
  split at read
  · exact absurd read noLiteral
  split at read
  · cases read
  split at read <;> cases read

/-- A template may open before any text. -/
theorem head_backtick (allowed : Bool) (cs : List Char) : head allowed backtick cs = .template := by
  unfold head
  rfl

/-- The tail of a number is taken again, and the characters that are looked at behind its first
digit are the same. -/
theorem number_again {hexadecimal : Bool} {text rest : List Char}
    (tail : numberTail hexadecimal ' ' (text ++ rest) = (text, rest)) (borders : Borders rest left) :
    numberTail hexadecimal ' ' (text ++ left) = (text, left) ∧
      (text ++ left).head?.any Char.isDigit = (text ++ rest).head?.any Char.isDigit ∧
      (text ++ left).head?.any (fun x => x = 'x' || x = 'X') =
        (text ++ rest).head?.any fun x => x = 'x' || x = 'X' := by
  have taken : ∀ {test : Char → Bool}, (∀ c, test c = true → c.isAlphanum = true) →
      (text ++ rest).head?.any test = true → text ≠ [] := by
    intro test letter present
    have more := numberTail_ne_nil letter present hexadecimal ' '
    rwa [tail] at more
  refine ⟨?_, borders.any_head?_eq rfl rfl (taken fun c digit => ?_),
    borders.any_head?_eq rfl rfl (taken fun c mark => ?_)⟩
  · have again : Borders (numberTail hexadecimal ' ' (text ++ rest)).2 left →
        _ := numberTail_again
    rw [tail] at again
    exact again borders
  · simp [Char.isAlphanum, digit]
  · simp only [Bool.or_eq_true, decide_eq_true_eq] at mark
    obtain rfl | rfl := mark <;> rfl

/-- The rest of a word is taken again, and the character that is looked at behind a hash is the
same. -/
theorem word_again {text rest : List Char}
    (tail : run isIdentifierContinue (text ++ rest) = (text, rest)) (borders : Borders rest left) :
    run isIdentifierContinue (text ++ left) = (text, left) ∧
      (text ++ left).head?.any isIdentifierStart = (text ++ rest).head?.any isIdentifierStart := by
  refine ⟨?_, borders.any_head?_eq (by decide) (by decide) fun present => ?_⟩
  · have again : Borders (run isIdentifierContinue (text ++ rest)).2 left → _ :=
      run_again (by decide) (by decide)
    rw [tail] at again
    exact again borders
  · have more := run_ne_nil (fun _ => isIdentifierContinue_of_isIdentifierStart) present
    rwa [tail] at more

/-- A token at the head of a text stands there again when something else is left behind it. -/
theorem head_again {allowed : Bool} {c : Char} {cs text rest : List Char} {kind : TokenKind}
    (read : head allowed c cs = .token kind (c :: text) rest) (borders : Borders rest left) :
    head allowed c (text ++ left) = .token kind (c :: text) left := by
  obtain rfl : text ++ rest = cs := (List.cons.inj (Scanner.head_token read)).2
  unfold head at read ⊢
  dsimp only at read ⊢
  split at read
  · rename_i quote
    rw [if_pos quote]
    obtain ⟨rfl, same, -, closed⟩ := literal_eq_token read
    have again := stringTail_again closed left
    rw [same] at again
    rw [again]
    simp only [literal, Piece.leaving, closed, same]
  split at read
  · cases read
  rename_i noQuote noTemplate
  rw [if_neg noQuote, if_neg noTemplate]
  split at read
  · -- a number, maybe behind a point
    rename_i number
    obtain ⟨rfl, tail⟩ := simple_eq_token read
    obtain ⟨again, digit, mark⟩ := number_again tail borders
    simp only [digit, mark, if_pos number, again, simple]
  rename_i noNumber
  have noNumber' : ¬ (c.isDigit ||
      (decide (c = '.') && (text ++ left).head?.any Char.isDigit)) = true := by
    simp only [Bool.not_eq_true, Bool.or_eq_false_iff, Bool.and_eq_false_iff] at noNumber ⊢
    exact ⟨noNumber.1, noNumber.2.imp_right ((borders.append text).any_head? rfl rfl)⟩
  rw [if_neg noNumber']
  split at read
  · rename_i regExp
    rw [if_pos regExp]
    obtain ⟨rfl, same, leaves, closed⟩ := literal_eq_token read
    rw [← leaves] at borders
    have again := regExpTail_again closed borders
    rw [same] at again
    rw [again]
    simp only [literal, Piece.leaving, closed, same]
  rename_i noRegExp
  rw [if_neg noRegExp]
  split at read
  · -- a word, maybe behind a hash
    rename_i word
    obtain ⟨rfl, tail⟩ := simple_eq_token read
    obtain ⟨again, start⟩ := word_again tail borders
    simp only [start, if_pos word, again, simple]
  rename_i noWord
  have noWord' : ¬ (isIdentifierStart c ||
      (decide (c = '#') && (text ++ left).head?.any isIdentifierStart)) = true := by
    simp only [Bool.not_eq_true, Bool.or_eq_false_iff, Bool.and_eq_false_iff] at noWord ⊢
    exact ⟨noWord.1, noWord.2.imp_right ((borders.append text).any_head? (by decide) (by decide))⟩
  rw [if_neg noWord']
  split at read
  · rename_i punctuation
    rw [if_pos punctuation]
    cases read
    rfl
  · cases read

end Lexeme
end Esm
