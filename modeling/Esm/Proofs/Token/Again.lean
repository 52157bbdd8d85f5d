-- SUMMARY: The text of a token is scanned as that token again, whatever is left behind it.
import Mathlib.Data.List.Forall2
import Esm.Proofs.Token.Local

/-!
# Scanning again

A scanner that has the text of a token before it, and knows as much of what it has read, takes that
token again, if what is left behind it cannot go on with it. This holds of every step, also where
templates are open: all that a step takes it takes again. What the scanner knows of what it has read
is only whether a slash may open a regular expression, and so the place of a token makes no
difference, apart from its offset.
-/

namespace Esm

/-- Two tokens that differ in their places at most. -/
structure Token.Alike (t t' : Token) : Prop where
  kind : t'.kind = t.kind
  text : t'.text = t.text

theorem Token.Alike.symm {t t' : Token} (alike : t.Alike t') : t'.Alike t :=
  ⟨alike.kind.symm, alike.text.symm⟩

namespace Scanner

open Text Lexeme

-- ---------------------------------------------------------------------------
-- What a step leaves
-- ---------------------------------------------------------------------------

theorem templateStep_takes (f : Frame) (frames : List Frame) (s : Scanner) :
    ∃ taken, s.Takes taken (templateStep f frames s).scanner := by
  have whole := templateChunk_append s.rest
  unfold templateStep
  generalize templateChunk s.rest = chunk at whole ⊢
  obtain ⟨text, rest, ending⟩ := chunk
  have takes : s.Takes text (s.skip text rest) := takes_skip whole
  refine ⟨text, ?_⟩
  cases ending with
  | unterminated => exact takes
  | substitution => exact takes
  | closed => cases frames <;> exact takes.complete _

theorem tokenStep_takes (frames : List Frame) (t : Token) (s : Scanner) :
    ∃ taken, s.Takes taken (tokenStep frames t s).scanner := by
  cases frames with
  | nil => exact ⟨[], .refl s⟩
  | cons f frames =>
    unfold tokenStep
    dsimp only
    split
    · exact ⟨[], .refl s⟩
    · split
      · split
        · exact templateStep_takes f frames s
        · exact ⟨[], .refl s⟩
      · exact ⟨[], .refl s⟩

theorem step_takes (frames : List Frame) (s : Scanner) :
    ∃ taken, s.Takes taken (step frames s).scanner := by
  have whole := gap_source s.rest
  unfold step
  generalize gap s.rest = skipped at whole ⊢
  cases skipped with
  | unterminated before comment => exact ⟨s.rest, takes_skip (List.append_nil _)⟩
  | complete blank rest =>
    have behind : s.Takes blank (s.skip blank rest) := takes_skip whole
    cases rest with
    | nil => cases frames <;> exact ⟨blank, behind⟩
    | cons c cs =>
      have further : ∀ {text : List Char} {u u' : Scanner},
          (s.skip blank (c :: cs)).Takes text u → (∃ taken, u.Takes taken u') →
            ∃ taken, s.Takes taken u' := by
        rintro text u u' takes ⟨taken, takes'⟩
        exact ⟨_, (behind.trans takes).trans takes'⟩
      dsimp only
      cases read : head (s.skip blank (c :: cs)).regExpAllowed c cs with
      | fault cause text rest => exact further (takes_skip (head_fault read)) ⟨[], .refl _⟩
      | token kind text rest =>
        exact further ((takes_skip (head_token read)).complete _) (tokenStep_takes _ _ _)
      | template => exact further (takes_skip rfl) (templateStep_takes _ _ _)

-- ---------------------------------------------------------------------------
-- Steps
-- ---------------------------------------------------------------------------

/-- Two templates that differ in their places at most. -/
structure Frame.Alike (f f' : Frame) : Prop where
  text : f'.text = f.text
  depth : f'.depth = f.depth

/-- The second scanner has `left` before it, and a slash means the same to both. -/
structure Stands (left : List Char) (s s' : Scanner) : Prop where
  rest : s'.rest = left
  regExpAllowed : s'.regExpAllowed = s.regExpAllowed

/-- Steps that are alike, the second one leaving `left`, unless the first one is a fault. -/
inductive Step.Again (left : List Char) : Step → Step → Prop where
  | done {t t' : Token} {s s' : Scanner} : t.kind ≠ .endOfInput → t.Alike t' → Stands left s s' →
    Again left (.done (.ok t) s) (.done (.ok t') s')
  | more {f f' : Frame} {frames frames' : List Frame} {s s' : Scanner} : f.Alike f' →
    List.Forall₂ Frame.Alike frames frames' → Stands left s s' →
    Again left (.more (f :: frames) s) (.more (f' :: frames') s')
  | failed {failure : Failure} {s : Scanner} {step : Step} :
    Again left (.done (.error failure) s) step

variable {left taken : List Char}

theorem Stands.skip {s s' : Scanner} (stands : Stands left s s') (text rest left' : List Char) :
    Stands left' (s.skip text rest) (s'.skip text left') := ⟨rfl, stands.regExpAllowed⟩

theorem Stands.complete {s s' : Scanner} (stands : Stands left s s') {t t' : Token}
    (alike : t.Alike t') : Stands left (s.complete t) (s'.complete t') := by
  refine ⟨stands.rest, ?_⟩
  simp only [Scanner.complete, Scanner.regExpAllowed, alike.kind, alike.text]

theorem Frame.Alike.extend {f f' : Frame} (alike : f.Alike f') {text text' : List Char}
    (same : text' = text) : (f.extend text).Alike (f'.extend text') :=
  ⟨by simp only [Frame.extend, alike.text, same], alike.depth⟩

theorem alike_extendInnermost {frames frames' : List Frame}
    (alike : List.Forall₂ Frame.Alike frames frames') (text : List Char) :
    List.Forall₂ Frame.Alike (extendInnermost text frames) (extendInnermost text frames') := by
  cases alike with
  | nil => exact .nil
  | cons first others => exact .cons (first.extend rfl) others

theorem templateStep_again {f f' : Frame} {frames frames' : List Frame} {s s' : Scanner}
    (first : f.Alike f') (alike : List.Forall₂ Frame.Alike frames frames')
    (whole : taken ++ (templateStep f frames s).scanner.rest = s.rest)
    (stands : Stands (taken ++ left) s s') :
    Step.Again left (templateStep f frames s) (templateStep f' frames' s') := by
  have append := templateChunk_append s.rest
  unfold templateStep at whole ⊢
  rw [stands.rest]
  generalize read : templateChunk s.rest = chunk at append whole ⊢
  have extended : (f.extend chunk.text).Alike (f'.extend chunk.text) := first.extend rfl
  -- what is taken is the chunk
  have again : chunk.ending ≠ .unterminated → taken ++ chunk.rest = s.rest →
      templateChunk (taken ++ left) = chunk.leaving left := by
    intro complete whole
    obtain rfl : taken = chunk.text := List.append_cancel_right (whole.trans append.symm)
    rw [← read]
    exact templateChunk_again (by rw [read]; exact complete) left
  cases ending : chunk.ending with
  | unterminated =>
    simp only [ending]
    exact .failed
  | substitution =>
    simp only [ending] at whole
    rw [again (by rw [ending]; decide) whole]
    simp only [Piece.leaving, ending]
    exact .more ⟨extended.text, rfl⟩ alike (stands.skip _ _ _)
  | closed =>
    have token : Token.Alike
        ⟨.template, (f.extend chunk.text).start, String.ofList (f.extend chunk.text).text⟩
        ⟨.template, (f'.extend chunk.text).start, String.ofList (f'.extend chunk.text).text⟩ :=
      ⟨rfl, congrArg String.ofList extended.text⟩
    cases alike with
    | nil =>
      simp only [ending] at whole
      rw [again (by rw [ending]; decide) whole]
      simp only [Piece.leaving, ending]
      have proper : TokenKind.template ≠ .endOfInput := by decide
      exact .done proper token ((stands.skip _ _ _).complete token)
    | cons outer others =>
      simp only [ending] at whole
      rw [again (by rw [ending]; decide) whole]
      simp only [Piece.leaving, ending]
      exact .more (outer.extend extended.text) others ((stands.skip _ _ _).complete token)

theorem tokenStep_again {frames frames' : List Frame} {s s' : Scanner} {t t' : Token}
    (alike : List.Forall₂ Frame.Alike frames frames') (proper : t.kind ≠ .endOfInput)
    (token : t.Alike t') (whole : taken ++ (tokenStep frames t s).scanner.rest = s.rest)
    (stands : Stands (taken ++ left) s s') :
    Step.Again left (tokenStep frames t s) (tokenStep frames' t' s') := by
  -- unless template text follows, nothing is taken
  have nothing : taken ++ s.rest = s.rest → Stands left s s' := by
    intro whole
    obtain rfl : taken = [] := List.append_left_eq_self.1 whole
    exact stands
  cases alike with
  | nil => exact .done proper token (nothing whole)
  | cons first others =>
    unfold tokenStep Token.isPunctuator at whole ⊢
    simp only [token.kind, token.text, first.depth] at whole ⊢
    split
    · rename_i opens
      rw [if_pos opens] at whole
      exact .more ⟨first.text, rfl⟩ others (nothing whole)
    rename_i noOpener
    rw [if_neg noOpener] at whole
    split
    · rename_i closes
      rw [if_pos closes] at whole
      split
      · rename_i outermost
        rw [outermost] at whole
        exact templateStep_again first others whole stands
      · rename_i within
        rw [within] at whole
        exact .more ⟨first.text, rfl⟩ others (nothing whole)
    · rename_i noCloser
      rw [if_neg noCloser] at whole
      exact .more first others (nothing whole)

theorem head_kind {allowed : Bool} {c : Char} {cs text rest : List Char} {kind : TokenKind}
    (read : head allowed c cs = .token kind text rest) : kind ≠ .endOfInput := by
  have proper : ∀ {kind' cause} {tail : Piece Ending}, kind' ≠ .endOfInput →
      literal kind' cause c tail = .token kind text rest → kind ≠ .endOfInput := by
    intro kind' cause tail proper read
    unfold literal at read
    split at read
    · cases read
      exact proper
    · cases read
  unfold head at read
  dsimp only at read
  split at read
  · exact proper (by decide) read
  split at read
  · cases read
  split at read
  · cases read
    decide
  split at read
  · exact proper (by decide) read
  split at read
  · cases read
    decide
  split at read
  · cases read
    decide
  · cases read

theorem taken_eq {taken' blank text rest left whole : List Char} (parts : taken ++ left = whole)
    (parts' : blank ++ (text ++ rest) = whole) (parts'' : taken' ++ left = rest) :
    taken = blank ++ (text ++ taken') := by
  subst parts'' parts'
  exact List.append_cancel_right (parts.trans (by simp))

/-- A step that meets a character behind the gap, or while a template is open, takes what it takes
again. -/
theorem step_again {frames frames' : List Frame} {s s' : Scanner}
    (alike : List.Forall₂ Frame.Alike frames frames')
    (whole : taken ++ (step frames s).scanner.rest = s.rest)
    (borders : Borders (step frames s).scanner.rest left) (stands : Stands (taken ++ left) s s') :
    (frames = [] ∧ ∃ blank, gap s.rest = .complete blank []) ∨
      Step.Again left (step frames s) (step frames' s') := by
  have source := gap_source s.rest
  unfold step at whole borders ⊢
  cases read : gap s.rest with
  | unterminated => exact Or.inr .failed
  | complete blank rest =>
    cases rest with
    | nil =>
      cases frames with
      | nil => exact Or.inl ⟨rfl, blank, rfl⟩
      | cons f frames => exact Or.inr .failed
    | cons c cs =>
      apply Or.inr
      simp only [read] at source whole borders ⊢
      have source : blank ++ c :: cs = s.rest := source
      cases first : head (s.skip blank (c :: cs)).regExpAllowed c cs with
      | fault cause text rest => exact .failed
      | token kind text rest =>
        simp only [first] at whole borders ⊢
        obtain ⟨text', spelled, behind⟩ := head_append (s.skip blank (c :: cs)).regExpAllowed c cs
        rw [first] at spelled behind
        obtain rfl : text = c :: text' := spelled
        have behind : text' ++ rest = cs := behind
        obtain ⟨taken', left', -⟩ := tokenStep_takes (extendInnermost (blank ++ c :: text') frames)
          ⟨kind, (s.skip blank (c :: cs)).offset, String.ofList (c :: text')⟩
          (((s.skip blank (c :: cs)).skip (c :: text') rest).complete
            ⟨kind, (s.skip blank (c :: cs)).offset, String.ofList (c :: text')⟩)
        have parts : blank ++ (c :: text' ++ rest) = s.rest := by rw [List.cons_append, behind, source]
        obtain rfl : taken = blank ++ (c :: text' ++ taken') := taken_eq whole parts left'
        have borders' : Borders rest (taken' ++ left) := by
          rw [show rest = _ from left'.symm]
          exact borders.append taken'
        have borders'' : Borders cs (text' ++ (taken' ++ left)) := by
          rw [← behind]
          exact borders'.append text'
        have rest' : s'.rest = blank ++ c :: (text' ++ (taken' ++ left)) := by
          rw [stands.rest]
          simp
        have allowed : (s'.skip blank (c :: (text' ++ (taken' ++ left)))).regExpAllowed =
            (s.skip blank (c :: cs)).regExpAllowed := stands.regExpAllowed
        simp only [rest', gap_again read borders'', allowed, head_again first borders']
        have token : Token.Alike
            ⟨kind, (s.skip blank (c :: cs)).offset, String.ofList (c :: text')⟩
            ⟨kind, (s'.skip blank (c :: (text' ++ (taken' ++ left)))).offset,
              String.ofList (c :: text')⟩ := ⟨rfl, rfl⟩
        exact tokenStep_again (alike_extendInnermost alike _) (head_kind first) token left'
          (((stands.skip _ _ _).skip _ _ _).complete token)
      | template =>
        simp only [first] at whole borders ⊢
        obtain rfl := head_template first
        obtain ⟨taken', left', -⟩ := templateStep_takes
          ⟨(s.skip blank (backtick :: cs)).offset, [backtick], 0⟩ (extendInnermost blank frames)
          ((s.skip blank (backtick :: cs)).skip [backtick] cs)
        obtain rfl : taken = blank ++ ([backtick] ++ taken') := taken_eq whole source left'
        have borders' : Borders cs (taken' ++ left) := by
          rw [show cs = _ from left'.symm]
          exact borders.append taken'
        have rest' : s'.rest = blank ++ backtick :: (taken' ++ left) := by
          rw [stands.rest]
          simp
        simp only [rest', gap_again read borders', head_backtick]
        exact templateStep_again ⟨rfl, rfl⟩ (alike_extendInnermost alike _) left'
          ((stands.skip _ _ _).skip _ _ _)

-- ---------------------------------------------------------------------------
-- Calls
-- ---------------------------------------------------------------------------

theorem run_suffix {frames : List Frame} {s u : Scanner} {result : Except Failure Token}
    (call : run frames s = (result, u)) : ∃ taken, s.Takes taken u := by
  fun_induction run frames s with
  | case1 frames s result s₁ first =>
    cases call
    have takes := step_takes frames s
    rwa [first] at takes
  | case2 frames s frames₁ s₁ first ih =>
    obtain ⟨taken, takes⟩ := step_takes frames s
    obtain ⟨taken', takes'⟩ := ih call
    rw [first] at takes
    exact ⟨taken ++ taken', takes.trans takes'⟩

/-- A call that does not find the end of the text takes what it takes again. -/
theorem run_again {frames frames' : List Frame} {s s' u : Scanner} {t : Token}
    (alike : List.Forall₂ Frame.Alike frames frames') (call : run frames s = (.ok t, u))
    (whole : taken ++ u.rest = s.rest) (borders : Borders u.rest left)
    (stands : Stands (taken ++ left) s s') :
    (frames = [] ∧ ∃ blank, gap s.rest = .complete blank []) ∨
      t.kind ≠ .endOfInput ∧ ∃ t' u', run frames' s' = (.ok t', u') ∧ t.Alike t' ∧
        Stands left u u' := by
  fun_induction run frames s generalizing frames' s' taken with
  | case1 frames s result s₁ first =>
    cases call
    rw [show u = (step frames s).scanner by rw [first]; rfl] at whole borders
    obtain ended | again := step_again alike whole borders stands
    · exact Or.inl ended
    · rw [first] at again
      generalize first' : step frames' s' = step' at again
      cases again with
      | done proper token after => exact Or.inr ⟨proper, _, _, run_done first', token, after⟩
  | case2 frames s frames₁ s₁ first ih =>
    obtain ⟨taken₀, whole₀, -⟩ := step_takes frames s
    obtain ⟨taken₁, whole₁, -⟩ := run_suffix call
    rw [first, Step.scanner] at whole₀
    obtain rfl : taken = taken₀ ++ taken₁ := by
      refine List.append_cancel_right (whole.trans ?_)
      rw [List.append_assoc, whole₁, whole₀]
    have borders₁ : Borders s₁.rest (taken₁ ++ left) := by
      rw [← whole₁]
      exact borders.append taken₁
    rw [List.append_assoc] at stands
    rw [show s₁ = (step frames s).scanner by rw [first]; rfl] at whole₀ borders₁
    obtain ended | again := step_again alike whole₀ borders₁ stands
    · exact Or.inl ended
    · rw [first] at again
      generalize first' : step frames' s' = step' at again
      cases again with
      | more same others after =>
        obtain ⟨stuck, -⟩ | more := ih (.cons same others) call whole₁ after
        · cases stuck
        · rw [run_more first']
          exact Or.inr more

/-- The text of a token is taken as that token. -/
theorem next_again {s s' u : Scanner} {t : Token} (call : s.next = (.ok t, u))
    (proper : t.kind ≠ .endOfInput) (borders : Borders u.rest left)
    (stands : Stands (t.text.toList ++ left) s s') :
    ∃ t' u', s'.next = (.ok t', u') ∧ t.Alike t' ∧ Stands left u u' := by
  obtain ⟨blank, rest, read, takes, -⟩ := next_takes call
  have ends := gap_rest read
  let behind := s.skip blank rest
  have same : s.next = behind.next := next_consume (by simp [read, ends, Gap.consume])
  have call' : run [] behind = (.ok t, u) := same.symm.trans call
  have whole : t.text.toList ++ u.rest = behind.rest := by
    have source : blank ++ rest = s.rest := by
      have source := gap_source s.rest
      rwa [read] at source
    have parts := takes.rest
    rw [← source, List.append_assoc] at parts
    exact List.append_cancel_left parts
  obtain ⟨-, blank', ended⟩ | ⟨-, taken⟩ :=
    run_again .nil call' whole borders ⟨stands.rest, stands.regExpAllowed⟩
  · rw [show run [] behind = _ from next_end ended] at call'
    cases call'
    exact absurd rfl proper
  · exact taken

/-- The texts of tokens, with a space between them. -/
def spaced (ts : List Token) : List Char := [' '].intercalate (ts.map (·.text.toList))

/-- The texts of the tokens of a text have these tokens, if there is a space between them. -/
theorem tokens_again {s s' : Scanner} {ts : List Token} (call : s.tokens = .ok ts)
    (stands : Stands (spaced ts) s s') :
    ∃ ts', s'.tokens = .ok ts' ∧ List.Forall₂ Token.Alike ts ts' := by
  fun_induction tokens s generalizing s' ts with
  | case1 s failure u first => cases call
  | case2 s t u first last =>
    cases call
    obtain ⟨rest, offset, previous⟩ := s'
    obtain rfl : rest = [] := stands.rest
    exact ⟨[], tokens_nil offset previous, .nil⟩
  | case3 s t u first more ih =>
    cases later : u.tokens with
    | error failure =>
      rw [later] at call
      cases call
    | ok ts₁ =>
      rw [later] at call
      cases call
      cases ts₁ with
      | nil =>
        have alone : spaced [t] = t.text.toList ++ [] := by simp [spaced, List.intercalate]
        have nothing : Borders u.rest [] := Or.inr fun c first => by cases first
        obtain ⟨t', u', first', token, after⟩ := next_again first more nothing (alone ▸ stands)
        obtain ⟨ts', tokens, alike⟩ := ih later after
        exact ⟨t' :: ts', tokens_cons first' (token.kind ▸ more) tokens, .cons token alike⟩
      | cons t₁ ts₂ =>
        have parts : spaced (t :: t₁ :: ts₂) = t.text.toList ++ ' ' :: spaced (t₁ :: ts₂) := by
          simp [spaced, List.intercalate_cons_cons]
        have space : Borders u.rest (' ' :: spaced (t₁ :: ts₂)) := by
          refine Or.inr fun c first => Or.inl ?_
          cases first
          rfl
        obtain ⟨t', u', first', token, after⟩ := next_again first more space (parts ▸ stands)
        have behind : Stands (spaced (t₁ :: ts₂)) u (u'.skip [' '] (spaced (t₁ :: ts₂))) :=
          ⟨rfl, after.regExpAllowed⟩
        obtain ⟨ts', tokens, alike⟩ := ih later behind
        have skipped : u'.next = (u'.skip [' '] (spaced (t₁ :: ts₂))).next :=
          next_consume (by rw [after.rest, gap_blank (by decide)])
        rw [← tokens_congr skipped] at tokens
        exact ⟨t' :: ts', tokens_cons first' (token.kind ▸ more) tokens, .cons token alike⟩

end Scanner
end Esm
