-- SUMMARY: The tokens that the scanner yields, and how the text of a token shows its kind.
import Esm.Proofs.Token.Local

/-!
# Scanned tokens

Not every text goes with every kind. What the scanner yields is the end of the input, a template, or
a token that stands whole at the head of some text; so only punctuation is spelled like a
punctuation character.
-/

namespace Esm

/-- Some call of the scanner yields this token. -/
def Token.Scanned (t : Token) : Prop := ∃ s s' : Scanner, s.next = (.ok t, s')

namespace Scanner

open Text Lexeme

theorem scanned_of_mem_tokens {s : Scanner} {ts : List Token} (call : s.tokens = .ok ts) :
    ∀ t ∈ ts, t.Scanned := by
  fun_induction tokens s generalizing ts with
  | case1 => cases call
  | case2 =>
    cases call
    exact fun _ mem => absurd mem List.not_mem_nil
  | case3 s t s' first more ih =>
    cases later : s'.tokens with
    | error failure =>
      rw [later] at call
      cases call
    | ok ts' =>
      rw [later] at call
      cases call
      exact List.forall_mem_cons.2 ⟨⟨s, s', first⟩, ih later⟩

/-- A token that stands whole at the head of some text. -/
def Whole (t : Token) : Prop := ∃ allowed c cs text rest,
  head allowed c cs = .token t.kind text rest ∧ t.text = String.ofList text

-- ---------------------------------------------------------------------------
-- What a step meets
-- ---------------------------------------------------------------------------

section

variable {s : Scanner} {blank cs : List Char} {c : Char}

theorem step_unterminated {before comment : List Char}
    (read : gap s.rest = .unterminated before comment) (frames : List Frame) :
    step frames s =
      .done (.error ⟨.unterminatedComment, s.offset + byteLength before⟩) (s.skip s.rest []) := by
  unfold step
  rw [read]

theorem step_fault (read : gap s.rest = .complete blank (c :: cs)) {cause : Fault}
    {text rest : List Char} (first : head s.regExpAllowed c cs = .fault cause text rest)
    (frames : List Frame) : step frames s =
      .done (.error ⟨cause, s.offset + byteLength blank⟩)
        ((s.skip blank (c :: cs)).skip text rest) := by
  have first : head (s.skip blank (c :: cs)).regExpAllowed c cs = _ := first
  unfold step
  simp only [read, first]
  rfl

theorem step_token (read : gap s.rest = .complete blank (c :: cs)) {kind : TokenKind}
    {text rest : List Char} (first : head s.regExpAllowed c cs = .token kind text rest)
    (frames : List Frame) :
    let t : Token := ⟨kind, s.offset + byteLength blank, String.ofList text⟩
    step frames s = tokenStep (extendInnermost (blank ++ text) frames) t
      (((s.skip blank (c :: cs)).skip text rest).complete t) := by
  have first : head (s.skip blank (c :: cs)).regExpAllowed c cs = _ := first
  unfold step
  simp only [read, first]
  rfl

/-- A backtick opens a template. -/
theorem step_backtick (read : gap s.rest = .complete blank (backtick :: cs)) (frames : List Frame) :
    step frames s = templateStep ⟨s.offset + byteLength blank, [backtick], 0⟩
      (extendInnermost blank frames) ((s.skip blank (backtick :: cs)).skip [backtick] cs) := by
  unfold step
  simp only [read, head_backtick]
  rfl

end

-- ---------------------------------------------------------------------------
-- What a call yields
-- ---------------------------------------------------------------------------

/-- What a step comes to in the end. -/
def Step.finish : Step → Except Failure Token × Scanner
  | .done result s => (result, s)
  | .more frames s => run frames s

theorem run_eq_finish (frames : List Frame) (s : Scanner) :
    run frames s = (step frames s).finish := by
  cases taken : step frames s with
  | done result s' => exact run_done taken
  | more frames' s' => exact run_more taken

/-- Templates that are open, each of which starts with a backtick. -/
def Opened (frames : List Frame) : Prop :=
  frames ≠ [] ∧ ∀ f ∈ frames, f.text.head? = some backtick

theorem opened_cons {f : Frame} {frames : List Frame} : Opened (f :: frames) ↔
    f.text.head? = some backtick ∧ ∀ g ∈ frames, g.text.head? = some backtick :=
  (and_iff_right (List.cons_ne_nil f frames)).trans List.forall_mem_cons

/-- What a step comes to while templates are open: the outermost of them ends with a backtick too.
-/
def Step.Encloses : Step → Prop
  | .more frames _ => Opened frames
  | .done (.ok t) _ =>
    t.kind = .template ∧ ∃ body, t.text.toList = backtick :: (body ++ [backtick])
  | .done (.error _) _ => True

/-- Template text that is complete ends with a backtick. -/
theorem templateChunk_closed {cs : List Char} (closed : (templateChunk cs).ending = .closed) :
    ∃ body, (templateChunk cs).text = body ++ [backtick] := by
  fun_induction templateChunk cs with
  | case1 => cases closed
  | case2 => cases closed
  | case3 c cs ih =>
    obtain ⟨body, whole⟩ := ih closed
    exact ⟨'\\' :: c :: body, by simp [Piece.consume, whole]⟩
  | case4 => cases closed
  | case5 => exact ⟨[], rfl⟩
  | case6 c cs _ _ _ _ ih =>
    obtain ⟨body, whole⟩ := ih closed
    exact ⟨c :: body, by simp [Piece.consume, whole]⟩

theorem head?_extend {f : Frame} (opened : f.text.head? = some backtick) (text : List Char) :
    (f.extend text).text.head? = some backtick := by
  simp [Frame.extend, List.head?_append, opened]

theorem templateStep_encloses {f : Frame} {frames : List Frame} (opened : Opened (f :: frames))
    (s : Scanner) : (templateStep f frames s).Encloses := by
  obtain ⟨first, others⟩ := opened_cons.1 opened
  unfold templateStep
  cases ending : (templateChunk s.rest).ending with
  | unterminated =>
    simp only [ending]
    trivial
  | substitution =>
    simp only [ending]
    exact opened_cons.2 ⟨head?_extend first _, others⟩
  | closed =>
    cases frames with
    | nil =>
      obtain ⟨body, closing⟩ := templateChunk_closed ending
      obtain ⟨text, opening⟩ := List.head?_eq_some_iff.1 first
      simp only [ending]
      refine ⟨rfl, text ++ body, ?_⟩
      simp [Frame.extend, opening, closing]
    | cons outer frames =>
      simp only [ending]
      obtain ⟨second, others⟩ := List.forall_mem_cons.1 others
      exact opened_cons.2 ⟨head?_extend second _, others⟩

theorem tokenStep_encloses {f : Frame} {frames : List Frame} (opened : Opened (f :: frames))
    (t : Token) (s : Scanner) : (tokenStep (f :: frames) t s).Encloses := by
  have goesOn : ∀ depth, (Step.more ({ f with depth := depth } :: frames) s).Encloses :=
    fun _ => opened_cons.2 ⟨(opened_cons.1 opened).1, (opened_cons.1 opened).2⟩
  unfold tokenStep
  dsimp only
  split
  · exact goesOn _
  · split
    · split
      · exact templateStep_encloses opened s
      · exact goesOn _
    · exact goesOn f.depth

theorem step_encloses {frames : List Frame} (opened : Opened frames) (s : Scanner) :
    (step frames s).Encloses := by
  obtain ⟨f, frames, rfl⟩ := List.exists_cons_of_ne_nil opened.1
  obtain ⟨first, others⟩ := opened_cons.1 opened
  have extended : ∀ text, Opened (f.extend text :: frames) :=
    fun text => opened_cons.2 ⟨head?_extend first text, others⟩
  unfold step
  cases gap s.rest with
  | unterminated before comment => trivial
  | complete blank rest =>
    cases rest with
    | nil => trivial
    | cons c cs =>
      dsimp only
      cases read : head (s.skip blank (c :: cs)).regExpAllowed c cs with
      | fault cause text rest => trivial
      | token kind text rest => exact tokenStep_encloses (extended _) _ _
      | template =>
        obtain rfl := head_template read
        exact templateStep_encloses (opened_cons.2 ⟨rfl, (extended blank).2⟩) _

/-- A call while templates are open yields the outermost of them. -/
theorem run_encloses {frames : List Frame} {s s' : Scanner} {t : Token} (opened : Opened frames)
    (call : run frames s = (.ok t, s')) :
    t.kind = .template ∧ ∃ body, t.text.toList = backtick :: (body ++ [backtick]) := by
  fun_induction run frames s with
  | case1 frames s result s'' taken =>
    cases call
    have encloses := step_encloses opened s
    rw [taken] at encloses
    exact encloses
  | case2 frames s frames' s'' taken ih =>
    have encloses := step_encloses opened s
    rw [taken] at encloses
    exact ih encloses call

theorem Step.Encloses.finish {first : Step} (encloses : first.Encloses) {s' : Scanner} {t : Token}
    (call : first.finish = (.ok t, s')) :
    t.kind = .template ∧ ∃ body, t.text.toList = backtick :: (body ++ [backtick]) := by
  cases first with
  | done result s =>
    cases call
    exact encloses
  | more frames s => exact run_encloses encloses call

theorem next_backtick {s s' : Scanner} {t : Token} {blank cs : List Char}
    (read : gap s.rest = .complete blank (backtick :: cs)) (call : s.next = (.ok t, s')) :
    t.kind = .template ∧ ∃ body, t.text.toList = backtick :: (body ++ [backtick]) := by
  unfold next at call
  rw [run_eq_finish, step_backtick read] at call
  exact (templateStep_encloses (opened_cons.2 ⟨rfl, List.forall_mem_nil _⟩) _).finish call

/-- What a call yields is the end of the input, a whole token, or a template between backticks. -/
theorem next_spelled {s s' : Scanner} {t : Token} (call : s.next = (.ok t, s')) :
    t.kind = .endOfInput ∧ t.text = "" ∨ Whole t ∨
      t.kind = .template ∧ ∃ body, t.text.toList = backtick :: (body ++ [backtick]) := by
  cases read : gap s.rest with
  | unterminated before comment =>
    rw [next_of_step (step_unterminated read [])] at call
    cases call
  | complete blank rest =>
    cases rest with
    | nil =>
      rw [next_end read] at call
      cases call
      exact Or.inl ⟨rfl, rfl⟩
    | cons c cs =>
      cases first : head s.regExpAllowed c cs with
      | fault cause text rest =>
        rw [next_of_step (step_fault read first [])] at call
        cases call
      | token kind text rest =>
        rw [next_of_step (step_token read first [])] at call
        cases call
        exact Or.inr (Or.inl ⟨_, _, _, _, _, first, rfl⟩)
      | template =>
        obtain rfl := head_template first
        exact Or.inr (Or.inr (next_backtick read call))

/-- A token that stands whole and has the text of a punctuation character is punctuation. -/
theorem Whole.punctuator {c : Char} (whole : Whole t) (mark : isMark c = true) (point : c ≠ '.')
    (text : t.text = String.ofList [c]) : t.kind = .punctuator := by
  obtain ⟨allowed, d, cs, taken, rest, read, spelled⟩ := whole
  have single : taken = [c] := String.ofList_injective (spelled.symm.trans text)
  subst single
  have first : c :: rest = d :: cs := head_token read
  obtain ⟨rfl, rfl⟩ := List.cons.inj first
  rw [head_mark mark (fun dot => absurd dot point)] at read
  injection read with kind
  exact kind.symm

/-- Behind a hash only a word goes on. -/
theorem head_hash {allowed : Bool} {cs text rest : List Char} {kind : TokenKind}
    (read : head allowed '#' cs = .token kind ('#' :: text) rest) :
    ∀ c ∈ text, isIdentifierContinue c = true := by
  have start : isIdentifierStart '#' = false := by decide
  have digit : '#'.isDigit = false := by decide
  unfold head at read
  simp only [start, digit, backtick, Bool.false_or, show '#' ≠ '"' by decide,
    show '#' ≠ '\'' by decide, show '#' ≠ '\x60' by decide, show '#' ≠ '.' by decide,
    show '#' ≠ '/' by decide, decide_false, Bool.false_and, Bool.false_eq_true, if_false] at read
  split at read
  · obtain ⟨-, taken⟩ := simple_eq_token read
    have taken : (Lexeme.run isIdentifierContinue cs).1 = text := congrArg Prod.fst taken
    rw [← taken]
    exact List.all_eq_true.1 List.all_takeWhile
  · split at read
    · injection read with _ taken
      obtain rfl := (List.cons.inj taken).2
      exact List.forall_mem_nil _
    · cases read

end Scanner

/-- What is spelled like a punctuation character is punctuation. -/
theorem Token.Scanned.punctuator {t : Token} (scanned : t.Scanned) {c : Char}
    (mark : Scanner.isMark c = true) (point : c ≠ '.') (text : t.text = String.ofList [c]) :
    t.kind = .punctuator := by
  obtain ⟨s, s', call⟩ := scanned
  have spelled : t.text.toList = [c] := by rw [text, String.toList_ofList]
  obtain ⟨-, ended⟩ | whole | ⟨-, body, template⟩ := Scanner.next_spelled call
  · rw [ended] at spelled
    cases spelled
  · exact whole.punctuator mark point text
  · have nothing : [] = body ++ [Lexeme.backtick] := (List.cons.inj (spelled.symm.trans template)).2
    simp at nothing

/-- No token starts like a line that is skipped at the start of a source. -/
theorem Token.Scanned.not_hashbang {t : Token} (scanned : t.Scanned) (text : List Char) :
    t.text.toList ≠ '#' :: '!' :: text := by
  intro spelled
  obtain ⟨s, s', call⟩ := scanned
  obtain ⟨-, ended⟩ | ⟨allowed, c, cs, taken, rest, read, same⟩ | ⟨-, body, template⟩ :=
    Scanner.next_spelled call
  · rw [ended] at spelled
    cases spelled
  · rw [same, String.toList_ofList] at spelled
    subst spelled
    obtain ⟨rfl, -⟩ := List.cons.inj (Scanner.head_token read)
    exact absurd (Scanner.head_hash read '!' List.mem_cons_self) (by decide)
  · have backtick : '#' = Lexeme.backtick := (List.cons.inj (spelled.symm.trans template)).1
    exact absurd backtick (by decide)

/-- A word or a string is not spelled like punctuation. -/
theorem Token.Scanned.text_ne {t : Token} (scanned : t.Scanned)
    (kind : t.kind = .identifier ∨ t.kind = .string) {c : Char} (mark : Scanner.isMark c = true)
    (point : c ≠ '.') : t.text ≠ String.ofList [c] := by
  intro text
  rw [scanned.punctuator mark point text] at kind
  simp at kind

end Esm
