-- SUMMARY: How far a template extends, and what stands before it.
import Esm.Proofs.Token.Slash

/-!
# Templates and what stands before them

The scanner reads a template up to its closing backtick, through the tokens of its substitutions.
What it has read before the template plays a part in this only if a slash is the first token of the
first substitution: the last token that is complete is then the one before the template, which is
none of the substitution. Main statement: `template_alone`.
-/

namespace Esm.Scanner

open Text Lexeme

/-- The first token to be read is a slash, maybe behind the openings of substitutions. -/
inductive SlashFirst : List Char → Prop where
  | slash {cs blank rest : List Char} : gap cs = .complete blank ('/' :: rest) → SlashFirst cs
  | opening {cs blank rest text inner : List Char} : gap cs = .complete blank (backtick :: rest) →
    templateChunk rest = ⟨text, inner, .substitution⟩ → SlashFirst inner → SlashFirst cs

/-- Two outcomes for a template: it fails in both, or has the same text in both. -/
inductive SameTemplate : Except Failure Token → Except Failure Token → Prop where
  | read {t t' : Token} : t.kind = .template → t.Alike t' → SameTemplate (.ok t) (.ok t')
  | failed {e e' : Failure} : SameTemplate (.error e) (.error e')

variable {f f' : Frame} {frames frames' : List Frame} {s s' : Scanner}

-- ---------------------------------------------------------------------------
-- No slash first
-- ---------------------------------------------------------------------------

/-- Only for a slash it matters whether a regular expression is allowed. -/
theorem head_allowed {c : Char} (slash : c ≠ '/') (allowed allowed' : Bool) (cs : List Char) :
    head allowed' c cs = head allowed c cs := by
  unfold head
  simp [slash]

/-- Template text is the same for both scanners; which slashes are allowed can differ behind it only
where a substitution opens. -/
theorem templateStep_same (first : f.Alike f') (alike : List.Forall₂ Frame.Alike frames frames')
    (same : s'.rest = s.rest) :
    Step.Again (templateStep f frames s).scanner.rest (templateStep f frames s)
        (templateStep f' frames' s') ∨
      ∃ text inner, templateChunk s.rest = ⟨text, inner, .substitution⟩ ∧
        templateStep f frames s =
          .more ({ f.extend text with depth := 0 } :: frames) (s.skip text inner) ∧
        templateStep f' frames' s' =
          .more ({ f'.extend text with depth := 0 } :: frames') (s'.skip text inner) := by
  unfold templateStep
  rw [same]
  obtain ⟨text, rest, ending⟩ := templateChunk s.rest
  have extended : (f.extend text).Alike (f'.extend text) := first.extend rfl
  cases ending with
  | unterminated => exact Or.inl .failed
  | substitution => exact Or.inr ⟨text, rest, rfl, rfl, rfl⟩
  | closed =>
    have token : Token.Alike
        ⟨.template, (f.extend text).start, String.ofList (f.extend text).text⟩
        ⟨.template, (f'.extend text).start, String.ofList (f'.extend text).text⟩ :=
      ⟨rfl, congrArg String.ofList extended.text⟩
    have stands : ∀ {t t' : Token}, t.Alike t' →
        Stands rest ((s.skip text rest).complete t) ((s'.skip text rest).complete t') := by
      intro t t' alike
      refine ⟨rfl, ?_⟩
      simp only [regExpAllowed, complete, alike.kind, alike.text]
    apply Or.inl
    cases alike with
    | nil =>
      have proper : TokenKind.template ≠ .endOfInput := by decide
      exact .done proper token (stands token)
    | cons outer others => exact .more (outer.extend extended.text) others (stands token)

/-- A step that does not meet a slash comes to the same for both scanners, from where on a slash
means the same to both, unless it opens a substitution. -/
theorem step_same (alike : List.Forall₂ Frame.Alike frames frames') (same : s'.rest = s.rest)
    (other : ¬ SlashFirst s.rest) :
    (frames = [] ∧ ∃ blank, gap s.rest = .complete blank []) ∨
      Step.Again (step frames s).scanner.rest (step frames s) (step frames' s') ∨
      ∃ opened opened' u u', step frames s = .more opened u ∧ step frames' s' = .more opened' u' ∧
        opened ≠ [] ∧ List.Forall₂ Frame.Alike opened opened' ∧ u'.rest = u.rest ∧
        ¬ SlashFirst u.rest := by
  cases read : gap s.rest with
  | unterminated before comment =>
    rw [step_unterminated read]
    exact Or.inr (Or.inl .failed)
  | complete blank rest =>
    have read' : gap s'.rest = .complete blank rest := by rw [same, read]
    have extended (text : List Char) :
        List.Forall₂ Frame.Alike (extendInnermost text frames) (extendInnermost text frames') :=
      alike_extendInnermost alike text
    cases rest with
    | nil =>
      cases alike with
      | nil => exact Or.inl ⟨rfl, blank, rfl⟩
      | cons first others =>
        unfold step
        rw [read]
        exact Or.inr (Or.inl .failed)
    | cons c cs =>
      have slash : c ≠ '/' := by
        rintro rfl
        exact other (.slash read)
      apply Or.inr
      cases first : head s.regExpAllowed c cs with
      | fault cause text rest =>
        rw [step_fault read first]
        exact Or.inl .failed
      | token kind text rest =>
        have first' : head s'.regExpAllowed c cs = .token kind text rest := by
          rw [head_allowed slash s.regExpAllowed, first]
        rw [step_token read first, step_token read' first']
        have token : Token.Alike ⟨kind, s.offset + byteLength blank, String.ofList text⟩
            ⟨kind, s'.offset + byteLength blank, String.ofList text⟩ := ⟨rfl, rfl⟩
        obtain ⟨taken, whole, -⟩ := tokenStep_takes (extendInnermost (blank ++ text) frames)
          ⟨kind, s.offset + byteLength blank, String.ofList text⟩
          (((s.skip blank (c :: cs)).skip text rest).complete
            ⟨kind, s.offset + byteLength blank, String.ofList text⟩)
        refine Or.inl (tokenStep_again (extended _) (head_kind first) token whole ⟨whole.symm, ?_⟩)
        simp only [regExpAllowed, complete]
      | template =>
        obtain rfl := head_template first
        rw [step_backtick read, step_backtick read']
        let g : Frame := ⟨s.offset + byteLength blank, [backtick], 0⟩
        let g' : Frame := ⟨s'.offset + byteLength blank, [backtick], 0⟩
        have opening : g.Alike g' := ⟨rfl, rfl⟩
        have same' : ((s'.skip blank (backtick :: cs)).skip [backtick] cs).rest =
            ((s.skip blank (backtick :: cs)).skip [backtick] cs).rest := rfl
        obtain again | ⟨text, inner, chunk, opened, opened'⟩ :=
          templateStep_same opening (extended blank) same'
        · exact Or.inl again
        · refine Or.inr ⟨_, _, _, _, opened, opened', List.cons_ne_nil _ _, ?_, rfl, ?_⟩
          · exact .cons ⟨rfl, rfl⟩ (extended blank)
          · exact fun later => other (.opening read chunk later)

/-- Two scanners with the same text before them take the same, if no slash is first in it. -/
theorem run_same (alike : List.Forall₂ Frame.Alike frames frames') (same : s'.rest = s.rest)
    (other : ¬ SlashFirst s.rest) {u : Scanner} {t : Token} (call : run frames s = (.ok t, u)) :
    (frames = [] ∧ ∃ blank, gap s.rest = .complete blank []) ∨
      ∃ t' u', run frames' s' = (.ok t', u') ∧ t.Alike t' := by
  fun_induction run frames s generalizing frames' s' with
  | case1 frames s result s₁ first =>
    cases call
    obtain ended | again | ⟨_, _, _, _, more, -⟩ := step_same alike same other
    · exact Or.inl ended
    · rw [first] at again
      generalize first' : step frames' s' = step' at again
      cases again with
      | done _ token _ => exact Or.inr ⟨_, _, run_done first', token⟩
    · rw [first] at more
      cases more
  | case2 frames s frames₁ s₁ first ih =>
    apply Or.inr
    obtain ended | again | ⟨opened, opened', s₂, s₂', more, more', inside, alike₁, same₁, other₁⟩ :=
      step_same alike same other
    · obtain ⟨rfl, blank, read⟩ := ended
      simp [step, read] at first
    · -- from here on a slash means the same to both
      rw [first] at again
      generalize first' : step frames' s' = step' at again
      cases again with
      | more first₁ others₁ stands =>
        obtain ⟨text, whole, -⟩ := run_suffix call
        have stands : Stands (text ++ u.rest) s₁ _ :=
          ⟨stands.rest.trans whole.symm, stands.regExpAllowed⟩
        rw [run_more first']
        obtain ⟨none, -⟩ | ⟨-, t', u', call', token, -⟩ :=
          run_again (.cons first₁ others₁) call whole (Or.inl rfl) stands
        · cases none
        · exact ⟨t', u', call', token⟩
    · rw [first] at more
      cases more
      rw [run_more more']
      obtain ⟨none, -⟩ | taken := ih alike₁ same₁ other₁ call
      · exact absurd none inside
      · exact taken

-- ---------------------------------------------------------------------------
-- A slash first
-- ---------------------------------------------------------------------------

/-- A scanner gets to the slash through openings alone, which are no tokens: it remembers the same
token there as before them. -/
theorem SlashFirst.reached {cs : List Char} (slash : SlashFirst cs) :
    ∃ inner blank rest, gap inner = .complete blank ('/' :: rest) ∧
      ∀ {root s : Scanner} {frames : List Frame}, root.Reaches frames s → s.rest = cs →
        ∃ frames' u, root.Reaches frames' u ∧ u.rest = inner ∧
          u.regExpAllowed = s.regExpAllowed := by
  induction slash with
  | slash read => exact ⟨_, _, _, read, fun reached before => ⟨_, _, reached, before, rfl⟩⟩
  | opening read chunk slash ih =>
    obtain ⟨inner, blank, rest, read', further⟩ := ih
    refine ⟨inner, blank, rest, read', fun {root s frames} reached before => ?_⟩
    have opened := step_backtick (before ▸ read) frames
    unfold templateStep at opened
    simp only [skip, chunk] at opened
    obtain ⟨frames', u, reached', rest', remembered⟩ := further (.inside reached opened) rfl
    exact ⟨frames', u, reached', rest', remembered⟩

-- ---------------------------------------------------------------------------
-- Templates
-- ---------------------------------------------------------------------------

variable {cs : List Char}

/-- Two scanners that have a template next, and may read slashes in different ways only if there is
none first: one takes what the other takes. -/
theorem next_same (read : gap s.rest = .complete [] (backtick :: cs)) (same : s'.rest = s.rest)
    (agree : s'.regExpAllowed = s.regExpAllowed ∨ ¬ SlashFirst s.rest) {t : Token} {u : Scanner}
    (call : s.next = (.ok t, u)) : ∃ t' u', s'.next = (.ok t', u') ∧ t.Alike t' := by
  have begun : ∀ blank, gap s.rest ≠ .complete blank [] := by simp [read]
  obtain agree | other := agree
  · obtain ⟨taken, whole, -⟩ := run_suffix call
    obtain ⟨-, blank, ended⟩ | ⟨-, t', u', call', token, -⟩ :=
      run_again .nil call whole (Or.inl rfl) ⟨same.trans whole.symm, agree⟩
    · exact absurd ended (begun blank)
    · exact ⟨t', u', call', token⟩
  · obtain ⟨-, blank, ended⟩ | taken := run_same .nil same other call
    · exact absurd ended (begun blank)
    · exact taken

/-- Whether a template is closed, and what its text is, depends on what has been read before it only
if a slash is the first token of its substitution: where a regular expression is allowed before the
template or no slash comes first, it is read as it is by itself. Otherwise that slash divides, but
opens a regular expression if the template is read by itself. -/
theorem template_alone {s : Scanner} (opens : s.rest.head? = some backtick) :
    let alone := ofSource (String.ofList s.rest)
    (s.regExpAllowed = true ∨ ¬ SlashFirst s.rest → SameTemplate s.next.1 alone.next.1) ∧
      (s.regExpAllowed = false → SlashFirst s.rest →
        ∃ frames frames' u u' offset offset', s.Reaches frames u ∧ alone.Reaches frames' u' ∧
          u'.rest = u.rest ∧ u.Divides offset ∧ u'.OpensRegExp offset') := by
  obtain ⟨cs, whole⟩ := List.head?_eq_some_iff.1 opens
  have read : gap s.rest = .complete [] (backtick :: cs) := by
    rw [whole]
    exact gap_eq_nil (by decide) (by decide) cs
  intro alone
  have plain : alone = ⟨s.rest, 0, none⟩ := by
    have start : ¬ "#!".toList <+: (String.ofList s.rest).toList := by
      rintro ⟨line, text⟩
      have text : '#' :: '!' :: line = backtick :: cs :=
        text.trans (String.toList_ofList.trans whole)
      exact absurd (List.cons.inj text).1 (by decide)
    simpa using ofSource_plain start
  have same : alone.rest = s.rest := by rw [plain]
  have allowed : alone.regExpAllowed = true := by rw [plain]; rfl
  constructor
  · intro agree
    have agree' : alone.regExpAllowed = s.regExpAllowed ∨ ¬ SlashFirst s.rest :=
      agree.imp_left fun before => allowed.trans before.symm
    have back : s.regExpAllowed = alone.regExpAllowed ∨ ¬ SlashFirst alone.rest := by
      rw [same]
      exact agree'.imp_left Eq.symm
    cases call : s.next with
    | mk result u =>
      cases call' : alone.next with
      | mk result' u' =>
        cases result with
        | ok t =>
          obtain ⟨t', u'', again, token⟩ := next_same read same agree' call
          rw [call'] at again
          cases again
          exact .read (next_backtick read call).1 token
        | error failure =>
          cases result' with
          | error failure' => exact .failed
          | ok t' =>
            obtain ⟨t, u'', again, -⟩ := next_same (same ▸ read) same.symm back call'
            rw [call] at again
            cases again
  · intro disallowed slash
    obtain ⟨inner, blank, rest, behind, further⟩ := slash.reached
    obtain ⟨frames, u, reached, rfl, divides⟩ := further .start rfl
    obtain ⟨frames', u', reached', same', opens'⟩ := further .start same
    have division := divides_of_disallowed behind (divides.trans disallowed)
    have expression := opensRegExp_of_allowed (same' ▸ behind) (opens'.trans allowed)
    exact ⟨frames, frames', u, u', _, _, reached, reached', same', division, expression⟩

/-- A tagged template, with a division in its substitution. -/
theorem template_alone_tagged :
    let tagged : Scanner := ⟨"`$\x7bb / c\x7d`".toList, 1, some ⟨.identifier, 0, "a"⟩⟩
    (ofSource "a`$\x7bb / c\x7d`").next = (.ok ⟨.identifier, 0, "a"⟩, tagged) ∧
      tagged.rest.head? = some backtick ∧ ¬ SlashFirst tagged.rest ∧
      SameTemplate tagged.next.1 (ofSource (String.ofList tagged.rest)).next.1 := by
  intro tagged
  have opens : tagged.rest.head? = some backtick := by decide
  have other : ¬ SlashFirst tagged.rest := by
    have first : gap tagged.rest = .complete [] (backtick :: "$\x7bb / c\x7d`".toList) := by
      decide +kernel
    have chunk : templateChunk "$\x7bb / c\x7d`".toList =
        ⟨"$\x7b".toList, "b / c\x7d`".toList, .substitution⟩ := by
      decide +kernel
    have second : gap "b / c\x7d`".toList = .complete [] "b / c\x7d`".toList := by decide +kernel
    rintro (read | ⟨read, chunk', inner⟩)
    · have same := first.symm.trans read
      simp [backtick] at same
    · cases first.symm.trans read
      cases chunk.symm.trans chunk'
      obtain read | ⟨read, -, -⟩ := inner
      · cases second.symm.trans read
      · cases second.symm.trans read
  exact ⟨by decide +kernel, opens, other, (template_alone opens).1 (Or.inr other)⟩

/-- A tagged template with a regular expression first in its substitution: the template is never
closed, for what is read is a division and a template in the substitution. By itself it is read to
its end. -/
theorem template_alone_slash :
    let tagged : Scanner := ⟨"`$\x7b/`/\x7d`".toList, 1, some ⟨.identifier, 0, "a"⟩⟩
    (ofSource "a`$\x7b/`/\x7d`").next = (.ok ⟨.identifier, 0, "a"⟩, tagged) ∧
      tagged.next.1 = .error ⟨.unterminatedTemplate, 1⟩ ∧
      (ofSource (String.ofList tagged.rest)).next.1 =
        .ok ⟨.template, 0, "`$\x7b/`/\x7d`"⟩ := by
  decide +kernel

end Esm.Scanner
