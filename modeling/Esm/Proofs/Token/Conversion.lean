-- SUMMARY: How a source is scanned whose line ends have got carriage returns.
import Esm.Proofs.Token.Inside
import Esm.Proofs.Token.LineEnds
import Esm.Proofs.Token.Tiling

/-!
# Converting line ends

A source with CR LF for every LF is scanned like the source itself, step by step, up to the first
string in which a line feed is escaped: there it has a fault. The templates that are open
correspond, and the last tokens do, as far as a slash depends on them. Main statement: `kinds_crlf`.
-/

namespace Esm

/-- Two tokens of a kind, with the same text if they are words or punctuators. -/
structure Token.Converts (t t' : Token) : Prop where
  kind : t'.kind = t.kind
  text : t.kind = .identifier ∨ t.kind = .punctuator → t'.text = t.text

theorem Token.Converts.kinds {ts ts' : List Token} (converts : List.Forall₂ Token.Converts ts ts') :
    ts'.map (·.kind) = ts.map (·.kind) := by
  induction converts with
  | nil => rfl
  | cons token _ ih => rw [List.map_cons, List.map_cons, token.kind, ih]

theorem Token.Converts.isPunctuator {t t' : Token} (converts : t.Converts t') (text : String) :
    t'.isPunctuator text = t.isPunctuator text := by
  unfold Token.isPunctuator
  rw [converts.kind]
  by_cases punctuator : t.kind = .punctuator
  · rw [converts.text (Or.inr punctuator)]
  · rw [beq_eq_false_iff_ne.2 punctuator]
    rfl

namespace Scanner

open Text Lexeme

/-- The second scanner has before it what the first has, converted, and a slash means the same to
both. -/
structure Converts (s s' : Scanner) : Prop where
  rest : s'.rest = crlf s.rest
  regExpAllowed : s'.regExpAllowed = s.regExpAllowed

/-- The next token is a string in which a line feed is escaped. -/
def Breaks (s : Scanner) : Prop :=
  ∃ t u, s.next = (.ok t, u) ∧ t.kind = .string ∧ escapesFeed t.text.toList = true

/-- Two templates with as many braces open in their substitutions. -/
def Frame.Level (f f' : Frame) : Prop := f'.depth = f.depth

/-- Steps that correspond, if no string breaks. -/
inductive Step.Converts : Step → Step → Prop where
  | done {t t' : Token} {s s' : Scanner} : t.Converts t' → s.Converts s' →
    Converts (.done (.ok t) s) (.done (.ok t') s')
  | more {frames frames' : List Frame} {s s' : Scanner} :
    List.Forall₂ Frame.Level frames frames' → s.Converts s' →
    Converts (.more frames s) (.more frames' s')
  | failed {e e' : Failure} {s s' : Scanner} :
    Converts (.done (.error e) s) (.done (.error e') s')

variable {frames frames' : List Frame} {s s' : Scanner}

-- ---------------------------------------------------------------------------
-- Steps
-- ---------------------------------------------------------------------------

theorem Converts.complete {t t' : Token} (converts : s.Converts s') (token : t.Converts t') :
    (s.complete t).Converts (s'.complete t') := by
  refine ⟨converts.rest, ?_⟩
  simp only [Scanner.regExpAllowed, Scanner.complete, token.kind]
  cases kind : t.kind with
  | identifier => simp only [token.text (Or.inl kind)]
  | punctuator => simp only [token.text (Or.inr kind)]
  | number | string | template | regExp | endOfInput => rfl

theorem level_extendInnermost (levels : List.Forall₂ Frame.Level frames frames')
    (text text' : List Char) :
    List.Forall₂ Frame.Level (extendInnermost text frames) (extendInnermost text' frames') := by
  cases levels with
  | nil => exact .nil
  | cons first others => exact .cons first others

theorem templateStep_converts (f f' : Frame) (levels : List.Forall₂ Frame.Level frames frames')
    (converts : s.Converts s') :
    (templateStep f frames s).Converts (templateStep f' frames' s') := by
  unfold templateStep
  rw [converts.rest, templateChunk_crlf]
  obtain ⟨text, rest, ending⟩ := templateChunk s.rest
  cases ending with
  | unterminated => exact .failed
  | substitution => exact .more (.cons rfl levels) ⟨rfl, converts.regExpAllowed⟩
  | closed =>
    have token : Token.Converts
        ⟨.template, (f.extend text).start, String.ofList (f.extend text).text⟩
        ⟨.template, (f'.extend (crlf text)).start, String.ofList (f'.extend (crlf text)).text⟩ :=
      ⟨rfl, nofun⟩
    have behind : (s.skip text rest).Converts (s'.skip (crlf text) (crlf rest)) :=
      ⟨rfl, converts.regExpAllowed⟩
    cases levels with
    | nil => exact .done token (behind.complete token)
    | cons first others => exact .more (.cons first others) (behind.complete token)

theorem tokenStep_converts {t t' : Token} (levels : List.Forall₂ Frame.Level frames frames')
    (token : t.Converts t') (converts : s.Converts s') :
    (tokenStep frames t s).Converts (tokenStep frames' t' s') := by
  cases levels with
  | nil => exact .done token converts
  | cons first others =>
    unfold tokenStep
    simp only [token.isPunctuator, show _ = _ from first]
    split
    · exact .more (.cons rfl others) converts
    split
    · split
      · exact templateStep_converts _ _ others converts
      · exact .more (.cons rfl others) converts
    · exact .more (.cons first others) converts

theorem ne_feed_of_gap {blank cs : List Char} {c : Char}
    (read : gap s.rest = .complete blank (c :: cs)) : c ≠ '\n' := by
  rintro rfl
  have ends := gap_rest read
  rw [gap_blank (by decide)] at ends
  obtain ⟨text, -, whole⟩ := Gap.consume_eq_complete ends
  cases whole

/-- What breaks is a string at the end of the gap. -/
theorem breaks_iff {blank cs : List Char} {c : Char}
    (read : gap s.rest = .complete blank (c :: cs)) :
    s.Breaks ↔ ∃ text rest, head s.regExpAllowed c cs = .token .string text rest ∧
      escapesFeed text = true := by
  constructor
  · rintro ⟨t, u, call, string, escaped⟩
    cases first : head s.regExpAllowed c cs with
    | fault cause text rest =>
      rw [next_of_step (step_fault read first [])] at call
      cases call
    | token kind text rest =>
      rw [next_of_step (step_token read first [])] at call
      cases call
      obtain rfl : kind = .string := string
      exact ⟨text, rest, rfl, by rwa [String.toList_ofList] at escaped⟩
    | template =>
      obtain rfl := head_template first
      rw [(next_backtick read call).1] at string
      cases string
  · rintro ⟨text, rest, first, escaped⟩
    exact ⟨_, _, next_of_step (step_token read first []), rfl, by rwa [String.toList_ofList]⟩

/-- A step on the converted text does what the step on the text does, unless the next token is a
string in which a line feed is escaped: then it fails. -/
theorem step_converts (levels : List.Forall₂ Frame.Level frames frames')
    (converts : s.Converts s') :
    ¬ s.Breaks ∧ (step frames s).Converts (step frames' s') ∨
      s.Breaks ∧ ∃ e u, step frames' s' = .done (.error e) u := by
  have read' : gap s'.rest = (gap s.rest).crlf := by rw [converts.rest, gap_crlf]
  cases read : gap s.rest with
  | unterminated before comment =>
    rw [read] at read'
    have whole : ¬ s.Breaks := by
      rintro ⟨t, u, call, -⟩
      rw [next_of_step (step_unterminated read [])] at call
      cases call
    rw [step_unterminated read, step_unterminated read']
    exact Or.inl ⟨whole, .failed⟩
  | complete blank rest =>
    rw [read] at read'
    cases rest with
    | nil =>
      have whole : ¬ s.Breaks := by
        rintro ⟨t, u, call, string, -⟩
        rw [next_end read] at call
        cases call
        cases string
      refine Or.inl ⟨whole, ?_⟩
      unfold step
      rw [read, read']
      cases levels with
      | nil => exact .done ⟨rfl, nofun⟩ ⟨rfl, converts.regExpAllowed⟩
      | cons first others => exact .failed
    | cons c cs =>
      have heads := head_crlf s.regExpAllowed c cs
      have read' : gap s'.rest = .complete (crlf blank) (c :: crlf cs) := by
        rw [read', Gap.crlf, crlf_cons (ne_feed_of_gap read)]
      generalize first : head s.regExpAllowed c cs = h,
        first' : head s.regExpAllowed c (crlf cs) = h' at heads
      rw [← converts.regExpAllowed] at first'
      cases heads with
      | fault =>
        have whole : ¬ s.Breaks := by simp [breaks_iff read, first]
        rw [step_fault read first, step_fault read' first']
        exact Or.inl ⟨whole, .failed⟩
      | @token kind text text' rest same plain =>
        have whole : ¬ s.Breaks := by
          rw [breaks_iff read, first]
          rintro ⟨_, _, string, escaped⟩
          cases string
          rw [plain rfl] at escaped
          cases escaped
        rw [step_token read first, step_token read' first']
        have token : Token.Converts ⟨kind, s.offset + byteLength blank, String.ofList text⟩
            ⟨kind, s'.offset + byteLength (crlf blank), String.ofList text'⟩ :=
          ⟨rfl, fun spelled => congrArg String.ofList (same spelled)⟩
        have behind : ((s.skip blank (c :: cs)).skip text rest).Converts
            ((s'.skip (crlf blank) (c :: crlf cs)).skip text' (crlf rest)) :=
          ⟨rfl, converts.regExpAllowed⟩
        have levels := level_extendInnermost levels (blank ++ text) (crlf blank ++ text')
        exact Or.inl ⟨whole, tokenStep_converts levels token (behind.complete token)⟩
      | template =>
        obtain rfl := head_template first
        have whole : ¬ s.Breaks := by simp [breaks_iff read, first]
        rw [step_backtick read, step_backtick read']
        have levels := level_extendInnermost levels blank (crlf blank)
        exact Or.inl ⟨whole, templateStep_converts _ _ levels ⟨rfl, converts.regExpAllowed⟩⟩
      | broken escaped =>
        have breaks : s.Breaks := (breaks_iff read).2 ⟨_, _, first, escaped⟩
        exact Or.inr ⟨breaks, _, _, step_fault read' first' frames'⟩

-- ---------------------------------------------------------------------------
-- Calls
-- ---------------------------------------------------------------------------

/-- Somewhere on the way from here the next token is a string in which a line feed is escaped. -/
def Broken (s : Scanner) : Prop := ∃ frames u, s.Reaches frames u ∧ u.Breaks

/-- What calls on a text and on the converted text come to, on the way from `root`: tokens that
correspond, or faults, or only the second one a fault, if a string on the way breaks. -/
inductive CallConverts (root : Scanner) :
    Except Failure Token × Scanner → Except Failure Token × Scanner → Prop where
  | read {t t' : Token} {u u' : Scanner} : t.Converts t' → u.Converts u' → root.Reaches [] u →
    CallConverts root (.ok t, u) (.ok t', u')
  | failed {e e' : Failure} {u u' : Scanner} : CallConverts root (.error e, u) (.error e', u')
  | broken {call : Except Failure Token × Scanner} {e : Failure} {u : Scanner} : root.Broken →
    CallConverts root call (.error e, u)

variable {root root' : Scanner}

theorem run_converts (levels : List.Forall₂ Frame.Level frames frames') (converts : s.Converts s')
    (reached : root.Reaches frames s) : CallConverts root (run frames s) (run frames' s') := by
  fun_induction run frames s generalizing frames' s' with
  | case1 frames s result s₁ first =>
    obtain ⟨-, steps⟩ | ⟨breaks, e, u, failed⟩ := step_converts levels converts
    · rw [first] at steps
      generalize first' : step frames' s' = step' at steps
      cases steps with
      | done token converts₁ =>
        rw [run_done first']
        exact .read token converts₁ (.next reached first)
      | failed =>
        rw [run_done first']
        exact .failed
    · rw [run_done failed]
      exact .broken ⟨_, _, reached, breaks⟩
  | case2 frames s frames₁ s₁ first ih =>
    obtain ⟨-, steps⟩ | ⟨breaks, e, u, failed⟩ := step_converts levels converts
    · rw [first] at steps
      generalize first' : step frames' s' = step' at steps
      cases steps with
      | more levels₁ converts₁ =>
        rw [run_more first']
        exact ih levels₁ converts₁ (.inside reached first)
    · rw [run_done failed]
      exact .broken ⟨_, _, reached, breaks⟩

theorem tokens_converts (converts : s.Converts s') (reached : root.Reaches [] s) :
    (∃ ts ts', s.tokens = .ok ts ∧ s'.tokens = .ok ts' ∧ List.Forall₂ Token.Converts ts ts') ∨
      (∃ e, s'.tokens = .error e) ∧ ((∃ e, s.tokens = .error e) ∨ root.Broken) := by
  fun_induction tokens s generalizing s' with
  | case1 s e u first =>
    have calls : CallConverts root s.next s'.next := run_converts .nil converts reached
    generalize first' : s'.next = call' at calls
    apply Or.inr
    rw [tokens_eq, first']
    rw [first] at calls
    cases calls with
    | failed => exact ⟨⟨_, rfl⟩, Or.inl ⟨e, rfl⟩⟩
    | broken broken => exact ⟨⟨_, rfl⟩, Or.inr broken⟩
  | case2 s t u first last =>
    have calls : CallConverts root s.next s'.next := run_converts .nil converts reached
    generalize first' : s'.next = call' at calls
    rw [tokens_eq s', first']
    rw [first] at calls
    cases calls with
    | read token converts₁ reached₁ =>
      exact Or.inl ⟨[], [], rfl, if_pos (token.kind.trans last), .nil⟩
    | broken broken => exact Or.inr ⟨⟨_, rfl⟩, Or.inr broken⟩
  | case3 s t u first more ih =>
    have calls : CallConverts root s.next s'.next := run_converts .nil converts reached
    generalize first' : s'.next = call' at calls
    rw [first] at calls
    cases calls with
    | @read _ t' _ u' token converts₁ reached₁ =>
      have rest' : s'.tokens = u'.tokens.map (t' :: ·) := by
        rw [tokens_of_next first', if_neg (token.kind ▸ more)]
      rw [rest']
      obtain ⟨ts, ts', rest, rest', alike⟩ | ⟨⟨e, failed'⟩, failed | broken⟩ :=
        ih converts₁ reached₁
      · rw [rest, rest']
        exact Or.inl ⟨_, _, rfl, rfl, .cons token alike⟩
      · obtain ⟨e', failed⟩ := failed
        rw [failed, failed']
        exact Or.inr ⟨⟨_, rfl⟩, Or.inl ⟨_, rfl⟩⟩
      · rw [failed']
        exact Or.inr ⟨⟨_, rfl⟩, Or.inr broken⟩
    | broken broken =>
      rw [tokens_eq s', first']
      exact Or.inr ⟨⟨_, rfl⟩, Or.inr broken⟩

-- ---------------------------------------------------------------------------
-- Sources
-- ---------------------------------------------------------------------------

/-- If there are tokens up to the end of the text, there are also from behind the first one. -/
theorem next_of_tokens {ts : List Token} (call : s.tokens = .ok ts) :
    ∃ t u ts', s.next = (.ok t, u) ∧ u.tokens = .ok ts' := by
  cases first : s.next with
  | mk result u =>
    cases result with
    | error e =>
      rw [tokens_eq, first] at call
      cases call
    | ok t =>
      refine ⟨t, u, ?_⟩
      rw [tokens_of_next first] at call
      split at call
      · rename_i ended
        obtain ⟨blank, read⟩ := gap_of_ended first ended
        rw [next_end read] at first
        cases first
        exact ⟨[], rfl, tokens_nil _ _⟩
      · cases rest : u.tokens with
        | error e =>
          rw [rest] at call
          cases call
        | ok ts' => exact ⟨ts', rfl, rfl⟩

/-- A call on the converted text that yields a token starts like the one on the text. -/
theorem step_converts_of_run (levels : List.Forall₂ Frame.Level frames frames')
    (converts : s.Converts s') {t : Token} {u : Scanner} (call : run frames' s' = (.ok t, u)) :
    ¬ s.Breaks ∧ (step frames s).Converts (step frames' s') := by
  obtain steps | ⟨-, e, v, failed⟩ := step_converts levels converts
  · exact steps
  · rw [run_done failed] at call
    cases call

/-- If the converted text is read to its end, then also from where it corresponds to a place that
the text is read up to. -/
theorem Reaches.converts {ts : List Token} {u : Scanner} (reached : root.Reaches frames u)
    (converts : root.Converts root') (call : root'.tokens = .ok ts) :
    ∃ frames' u' t v ts', List.Forall₂ Frame.Level frames frames' ∧ u.Converts u' ∧
      run frames' u' = (.ok t, v) ∧ v.tokens = .ok ts' := by
  induction reached with
  | start =>
    obtain ⟨t, v, ts', first, rest⟩ := next_of_tokens call
    exact ⟨[], root', t, v, ts', .nil, converts, first, rest⟩
  | inside _ first ih =>
    obtain ⟨frames', u', t, v, ts', levels, converts, call', rest⟩ := ih
    obtain ⟨-, steps⟩ := step_converts_of_run levels converts call'
    rw [first] at steps
    generalize first' : step frames' u' = step' at steps
    cases steps with
    | more levels₁ converts₁ =>
      rw [run_more first'] at call'
      exact ⟨_, _, t, v, ts', levels₁, converts₁, call', rest⟩
  | next _ first ih =>
    obtain ⟨frames', u', t, v, ts', levels, converts, call', rest⟩ := ih
    obtain ⟨-, steps⟩ := step_converts_of_run levels converts call'
    rw [first] at steps
    generalize first' : step frames' u' = step' at steps
    cases steps with
    | done token converts₁ =>
      rw [run_done first'] at call'
      cases call'
      obtain ⟨t₁, v₁, ts₁, first₁, rest₁⟩ := next_of_tokens rest
      exact ⟨[], _, t₁, v₁, ts₁, .nil, converts₁, first₁, rest₁⟩

/-- A converted text that is read to its end has no string that breaks. -/
theorem not_broken {ts : List Token} (converts : root.Converts root')
    (call : root'.tokens = .ok ts) : ¬ root.Broken := by
  rintro ⟨frames, u, reached, breaks⟩
  obtain ⟨frames', u', t, v, ts', levels, converts, call', -⟩ := reached.converts converts call
  obtain ⟨whole, -⟩ := step_converts_of_run levels converts call'
  exact whole breaks

theorem ofSource_converts {source converted : String}
    (whole : converted.toList = crlf source.toList) :
    (ofSource source).Converts (ofSource converted) := by
  by_cases hashbang : "#!".toList <+: source.toList
  · obtain ⟨cs, text⟩ := hashbang
    have text : source.toList = '#' :: '!' :: cs := text.symm
    have text' : converted.toList = '#' :: '!' :: crlf cs := by rw [whole, text]; rfl
    have line : Lexeme.run (fun c => !isLineEnd c) ('#' :: '!' :: crlf cs) = _ :=
      run_crlf (by decide) (by decide) ('#' :: '!' :: cs)
    unfold ofSource
    simp only [text, text', line]
    exact ⟨rfl, rfl⟩
  · have plain : ¬ "#!".toList <+: converted.toList := by
      rintro ⟨ds, text⟩
      obtain ⟨cs, first, second⟩ := eq_cons_of_crlf (by decide) (text.trans whole).symm
      obtain ⟨cs', rfl, -⟩ := eq_cons_of_crlf (by decide) second.symm
      exact hashbang ⟨cs', first.symm⟩
    rw [ofSource_plain hashbang, ofSource_plain plain]
    exact ⟨whole, rfl⟩

end Scanner

/-- The kinds of the tokens of a source text. -/
def kinds (source : String) : Except Scanner.Failure (List TokenKind) :=
  (tokenize source).map fun ts => ts.map (·.kind)

/-- A source with CR LF for every LF can be read, and has tokens of the same kinds, exactly if the
source can be read and no line feed is escaped in a string of it. -/
theorem kinds_crlf (source : String) (ks : List TokenKind) :
    kinds (String.ofList (Text.crlf source.toList)) = .ok ks ↔
      kinds source = .ok ks ∧ ¬ (Scanner.ofSource source).Broken := by
  have converts : (Scanner.ofSource source).Converts _ :=
    Scanner.ofSource_converts String.toList_ofList
  unfold kinds tokenize
  obtain ⟨ts, ts', call, call', alike⟩ | ⟨⟨e', failed'⟩, apart⟩ :=
    Scanner.tokens_converts converts .start
  · rw [call, call']
    simp [Except.map, Token.Converts.kinds alike, Scanner.not_broken converts call']
  · rw [failed']
    obtain ⟨e, failed⟩ | broken := apart
    · rw [failed]
      simp [Except.map]
    · simp [Except.map, broken]

/-- An escaped line feed: the string is read as one, and breaks off with the carriage return before
the line feed. -/
theorem kinds_crlf_escaped : kinds "'a\\\nb'" = .ok [.string] ∧
    String.ofList (Text.crlf "'a\\\nb'".toList) = "'a\\\r\nb'" ∧
    kinds "'a\\\r\nb'" = .error ⟨.unterminatedString, 0⟩ := by
  decide +kernel

end Esm
