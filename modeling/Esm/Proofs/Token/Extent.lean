-- SUMMARY: The text of a token is what the scanner took for it, so a source is no shorter than its tokens.
import Esm.Token.Scanner

/-!
# Extent of tokens

A call of the scanner takes a gap and then the text of one token, and nothing else. A template is
taken over several steps, between which the texts of the templates that are open make up what has
been taken since the outermost of them began.
-/

namespace Esm

/-- A character takes at least one byte. -/
theorem Text.length_le_byteLength (text : List Char) : text.length ≤ byteLength text := by
  induction text with
  | nil => exact Nat.le_refl 0
  | cons c text ih =>
    have := Char.utf8Size_pos c
    rw [List.length_cons, byteLength_cons]
    omega

namespace Scanner

open Text Lexeme

/-- The scanner `s'` has taken this text since `s`. -/
structure Takes (s : Scanner) (taken : List Char) (s' : Scanner) : Prop where
  rest : taken ++ s'.rest = s.rest
  offset : s'.offset = s.offset + byteLength taken

theorem Takes.refl (s : Scanner) : s.Takes [] s := ⟨rfl, rfl⟩

theorem Takes.trans {s s' s'' : Scanner} {taken taken' : List Char} (first : s.Takes taken s')
    (second : s'.Takes taken' s'') : s.Takes (taken ++ taken') s'' := by
  refine ⟨?_, ?_⟩
  · rw [List.append_assoc, second.rest, first.rest]
  · rw [second.offset, first.offset, byteLength_append, Nat.add_assoc]

theorem takes_skip {s : Scanner} {text rest : List Char} (whole : text ++ rest = s.rest) :
    s.Takes text (s.skip text rest) := ⟨whole, rfl⟩

/-- To note a token takes nothing. -/
theorem Takes.complete {s s' : Scanner} {taken : List Char} (takes : s.Takes taken s')
    (t : Token) : s.Takes taken (s'.complete t) := ⟨takes.rest, takes.offset⟩

-- ---------------------------------------------------------------------------
-- Open templates
-- ---------------------------------------------------------------------------

/-- What has been taken since the outermost open template began. -/
def openText : List Frame → List Char
  | [] => []
  | f :: frames => openText frames ++ f.text

/-- Where the outermost open template began. -/
def openStart : List Frame → Option Nat
  | [] => none
  | f :: frames => some ((openStart frames).getD f.start)

@[simp] theorem openText_extendInnermost (text : List Char) (f : Frame) (frames : List Frame) :
    openText (extendInnermost text (f :: frames)) = openText (f :: frames) ++ text := by
  simp [extendInnermost, openText, Frame.extend]

@[simp] theorem openStart_extendInnermost (text : List Char) (frames : List Frame) :
    openStart (extendInnermost text frames) = openStart frames := by
  cases frames <;> rfl

/-- What a step from `s` comes to in which `text` has been taken already of a token that starts at
`start`: what the step takes goes behind that text. -/
def Step.Extends (start : Nat) (text : List Char) (s : Scanner) : Step → Prop
  | .more frames s' => openStart frames = some start ∧
    ∃ taken, s.Takes taken s' ∧ openText frames = text ++ taken
  | .done (.ok t) s' => t.start = start ∧ ∃ taken, s.Takes taken s' ∧ t.text.toList = text ++ taken
  | .done (.error _) _ => True

theorem Step.Extends.after {start : Nat} {text taken : List Char} {s s' : Scanner} {step : Step}
    (takes : s.Takes taken s') (h : step.Extends start (text ++ taken) s') :
    step.Extends start text s := by
  cases step with
  | more frames s'' =>
    obtain ⟨began, taken', takes', whole⟩ := h
    exact ⟨began, taken ++ taken', takes.trans takes', by rw [whole, List.append_assoc]⟩
  | done result s'' =>
    cases result with
    | error e => trivial
    | ok t =>
      obtain ⟨began, taken', takes', whole⟩ := h
      exact ⟨began, taken ++ taken', takes.trans takes', by rw [whole, List.append_assoc]⟩

theorem templateStep_extends {start : Nat} {f : Frame} {frames : List Frame}
    (began : openStart (f :: frames) = some start) (s : Scanner) :
    (templateStep f frames s).Extends start (openText (f :: frames)) s := by
  have whole := templateChunk_append s.rest
  unfold templateStep
  generalize templateChunk s.rest = chunk at whole ⊢
  obtain ⟨text, rest, ending⟩ := chunk
  have takes : s.Takes text (s.skip text rest) := takes_skip whole
  cases ending with
  | unterminated => trivial
  | substitution => exact ⟨began, text, takes, (List.append_assoc _ _ _).symm⟩
  | closed =>
    cases frames with
    | nil =>
      exact ⟨Option.some.inj began, text, takes.complete _, by simp [openText, Frame.extend]⟩
    | cons outer frames =>
      exact ⟨began, text, takes.complete _, by simp [openText, Frame.extend, List.append_assoc]⟩

theorem tokenStep_extends {start : Nat} {frames : List Frame}
    (began : openStart frames = some start) (t : Token) (s : Scanner) :
    (tokenStep frames t s).Extends start (openText frames) s := by
  cases frames with
  | nil => cases began
  | cons f frames =>
    have goesOn : ∀ depth, (Step.more ({ f with depth := depth } :: frames) s).Extends start
        (openText (f :: frames)) s :=
      fun depth => ⟨began, [], .refl s, (List.append_nil _).symm⟩
    unfold tokenStep
    dsimp only
    split
    · exact goesOn _
    · split
      · split
        · exact templateStep_extends began s
        · exact goesOn _
      · exact goesOn f.depth

-- ---------------------------------------------------------------------------
-- Steps and calls
-- ---------------------------------------------------------------------------

/-- What is read at the head of a text and what is left make up the text. -/
theorem split_head (allowed : Bool) (c : Char) (cs : List Char) :
    ((head allowed c cs).split c cs).1 ++ ((head allowed c cs).split c cs).2 = c :: cs := by
  obtain ⟨text, first, whole⟩ := head_append allowed c cs
  rw [first, List.cons_append, whole]

theorem head_token {allowed : Bool} {c : Char} {cs text rest : List Char} {kind : TokenKind}
    (read : head allowed c cs = .token kind text rest) : text ++ rest = c :: cs := by
  have whole := split_head allowed c cs
  rwa [read] at whole

theorem head_fault {allowed : Bool} {c : Char} {cs text rest : List Char} {cause : Fault}
    (read : head allowed c cs = .fault cause text rest) : text ++ rest = c :: cs := by
  have whole := split_head allowed c cs
  rwa [read] at whole

/-- A step while a template is open. -/
theorem step_extends {start : Nat} {frames : List Frame} (began : openStart frames = some start)
    (s : Scanner) : (step frames s).Extends start (openText frames) s := by
  cases frames with
  | nil => cases began
  | cons f frames =>
    have whole := gap_source s.rest
    unfold step
    generalize gap s.rest = skipped at whole ⊢
    cases skipped with
    | unterminated before comment => trivial
    | complete blank rest =>
      have takes : s.Takes blank (s.skip blank rest) := takes_skip whole
      cases rest with
      | nil => trivial
      | cons c cs =>
        let behind := s.skip blank (c :: cs)
        dsimp only
        cases read : head (s.skip blank (c :: cs)).regExpAllowed c cs with
        | fault cause text rest => trivial
        | token kind text rest =>
          have takes' : behind.Takes text (behind.skip text rest) := takes_skip (head_token read)
          apply Step.Extends.after ((takes.trans takes').complete _)
          rw [← openText_extendInnermost]
          apply tokenStep_extends
          rw [openStart_extendInnermost, began]
        | template =>
          have takes' : behind.Takes [c] (behind.skip [c] cs) := takes_skip rfl
          apply Step.Extends.after (takes.trans takes')
          rw [← List.append_assoc, ← openText_extendInnermost]
          apply templateStep_extends
          unfold openStart
          rw [openStart_extendInnermost, began]
          rfl

/-- A step outside templates takes the first text of a token behind a gap. -/
theorem step_nil_extends {s : Scanner} {blank rest : List Char}
    (read : gap s.rest = .complete blank rest) :
    (step [] s).Extends (s.skip blank rest).offset [] (s.skip blank rest) := by
  let behind := s.skip blank rest
  unfold step
  rw [read]
  cases rest with
  | nil => exact ⟨rfl, [], .refl behind, rfl⟩
  | cons c cs =>
    dsimp only
    cases first : head (s.skip blank (c :: cs)).regExpAllowed c cs with
    | fault cause text rest => trivial
    | token kind text rest =>
      have takes : behind.Takes text (behind.skip text rest) := takes_skip (head_token first)
      exact ⟨rfl, text, takes.complete _, String.toList_ofList⟩
    | template =>
      have takes : behind.Takes [c] (behind.skip [c] cs) := takes_skip rfl
      apply Step.Extends.after takes
      exact templateStep_extends rfl _

/-- What a call takes while a template is open completes the text of that template. -/
theorem run_takes {start : Nat} {frames : List Frame} (began : openStart frames = some start)
    {s s' : Scanner} {t : Token} (call : run frames s = (.ok t, s')) :
    t.start = start ∧ ∃ taken, s.Takes taken s' ∧ t.text.toList = openText frames ++ taken := by
  fun_induction run frames s with
  | case1 frames s result s'' taken =>
    cases call
    have extends_ := step_extends began s
    rw [taken] at extends_
    exact extends_
  | case2 frames s frames' s'' taken ih =>
    have extends_ := step_extends began s
    rw [taken] at extends_
    obtain ⟨began', text, takes, whole⟩ := extends_
    obtain ⟨same, text', takes', whole'⟩ := ih began' call
    exact ⟨same, text ++ text', takes.trans takes', by rw [whole', whole, List.append_assoc]⟩

/-- A call takes a gap and then the text of its token. -/
theorem next_takes {s s' : Scanner} {t : Token} (call : s.next = (.ok t, s')) :
    ∃ blank rest, gap s.rest = .complete blank rest ∧ s.Takes (blank ++ t.text.toList) s' ∧
      t.start = s.offset + byteLength blank := by
  unfold next at call
  cases read : gap s.rest with
  | unterminated before comment =>
    rw [run_done (by unfold step; rw [read])] at call
    cases call
  | complete blank rest =>
    let behind := s.skip blank rest
    have source := gap_source s.rest
    rw [read] at source
    have takes : s.Takes blank behind := takes_skip source
    have extends_ : (step [] s).Extends behind.offset [] behind := step_nil_extends read
    refine ⟨blank, rest, rfl, ?_⟩
    cases first : step [] s with
    | done result s'' =>
      rw [first] at extends_
      have same : (result, s'') = (.ok t, s') := (next_of_step first).symm.trans call
      cases same
      obtain ⟨start, text, takes', whole⟩ := extends_
      rw [List.nil_append] at whole
      rw [whole, start, takes.offset]
      exact ⟨takes.trans takes', rfl⟩
    | more frames s'' =>
      rw [first] at extends_
      rw [run_more first] at call
      obtain ⟨began, text, takes', whole⟩ := extends_
      obtain ⟨start, text', takes'', whole'⟩ := run_takes began call
      rw [whole', whole, start, takes.offset]
      exact ⟨takes.trans (takes'.trans takes''), rfl⟩

-- ---------------------------------------------------------------------------
-- Sizes
-- ---------------------------------------------------------------------------

theorem Takes.byteLength_eq {s s' : Scanner} {taken : List Char} (takes : s.Takes taken s') :
    byteLength taken + byteLength s'.rest = byteLength s.rest := by
  rw [← byteLength_append, takes.rest]

/-- There are at most as many tokens as there are characters, and none is longer than the text. -/
theorem tokens_size {s : Scanner} {ts : List Token} (call : s.tokens = .ok ts) :
    ts.length ≤ s.rest.length ∧ ∀ t ∈ ts, byteLength t.text.toList ≤ byteLength s.rest := by
  fun_induction tokens s generalizing ts with
  | case1 s failure s' first => cases call
  | case2 s t s' first last =>
    cases call
    exact ⟨Nat.zero_le _, nofun⟩
  | case3 s t s' first more ih =>
    cases later : s'.tokens with
    | error failure =>
      rw [later] at call
      cases call
    | ok ts' =>
      rw [later] at call
      cases call
      obtain ⟨length, size⟩ := ih later
      obtain ⟨blank, -, -, takes, -⟩ := next_takes first
      have parts := takes.byteLength_eq
      rw [byteLength_append] at parts
      refine ⟨Nat.succ_le_of_lt (Nat.lt_of_le_of_lt length (next_lt first more)), ?_⟩
      intro u mem
      cases mem with
      | head => omega
      | tail _ mem =>
        have := size u mem
        omega

theorem rest_ofSource (source : String) :
    ∃ skipped, skipped ++ (ofSource source).rest = source.toList := by
  unfold ofSource
  dsimp only
  split
  · rename_i line
    exact ⟨_, run_append _ source.toList⟩
  · exact ⟨[], rfl⟩

end Scanner

open Text

/-- A source is at least as long, in bytes, as it has tokens and as each of these is. -/
theorem tokenize_size {source : String} {ts : List Token} (call : tokenize source = .ok ts) :
    ts.length ≤ byteLength source.toList ∧
      ∀ t ∈ ts, byteLength t.text.toList ≤ byteLength source.toList := by
  obtain ⟨skipped, whole⟩ := Scanner.rest_ofSource source
  obtain ⟨length, size⟩ := Scanner.tokens_size call
  have parts : byteLength skipped + byteLength (Scanner.ofSource source).rest =
      byteLength source.toList := by
    rw [← byteLength_append, whole]
  have characters := length_le_byteLength (Scanner.ofSource source).rest
  refine ⟨by omega, ?_⟩
  intro t mem
  have := size t mem
  omega

end Esm
