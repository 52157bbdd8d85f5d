-- SUMMARY: Scanning by byte offsets settles, and yields the spans of the tokens.
import Esm.Proofs.Offsets.Attempt
import Esm.Proofs.Token.Slash

/-!
# Scanning by byte offsets

The scanner can do without the texts of tokens: it notes spans, and looks the text of a token up in
the source where a slash or a bracket depends on it. A template is scanned by two routines that call
each other, one for its text and one for a substitution, which counts the braces that are open.
Main statement: `settles_tokens`.
-/

namespace Esm.Offsets

open Text Lexeme Attempt

/-- The text still to be read, its byte offset, and the span of the last token completed. -/
structure Cursor where
  rest : List Char
  offset : Nat
  previous : Option Span
deriving DecidableEq, Repr

namespace Cursor

/-- Step over text taken off the head of the rest. -/
def skip (c : Cursor) (text rest : List Char) : Cursor :=
  { c with rest := rest, offset := c.offset + byteLength text }

/-- Complete a token that started at `start` and ends here. -/
def complete (c : Cursor) (kind : TokenKind) (start : Nat) : Span × Cursor :=
  let span : Span := ⟨kind, start, c.offset⟩
  (span, { c with previous := some span })

end Cursor

section

variable (source : List Char)

/-- Whether a regular expression may start with this character: for a slash, the text of the token
before is looked up. -/
def regExpAllowed? (previous : Option Span) (first : Char) : Option Bool :=
  if first = '/' then do
    let t ← previous.mapM (token? source)
    some (Scanner.regExpAllowed ⟨[], 0, t⟩)
  else some false

/-- What stands at the head of the text `first :: cs`. For a number the source is looked up from here
on: it is hexadecimal if that starts with `0x`. -/
def head? (c : Cursor) (first : Char) (cs : List Char) : Option Head := do
  let allowed ← regExpAllowed? source c.previous first
  if first.isDigit || (first = '.' && cs.head?.any Char.isDigit) then
    let ahead ← slice? source c.offset (byteLength source)
    let hexadecimal := "0x".toList.isPrefixOf ahead || "0X".toList.isPrefixOf ahead
    some (simple .number first (numberTail hexadecimal ' ' cs))
  else some (head allowed first cs)

mutual

/-- The next token and the cursor behind it. Calls nest no more deeply than `fuel`. -/
def next : (fuel : Nat) → Cursor → Attempt (Span × Cursor)
  | 0, _ => unfinished
  | fuel + 1, c =>
    match gap c.rest with
    | .unterminated before _ =>
      refuse source (.lexical .unterminatedComment) (c.offset + byteLength before)
    | .complete blank rest =>
      let c := c.skip blank rest
      match rest with
      | [] => pure (⟨.endOfInput, c.offset, c.offset⟩, c)
      | first :: cs => do
        match ← look (head? source c first cs) with
        | .fault cause _ _ => refuse source (.lexical cause) c.offset
        | .token kind text rest => pure ((c.skip text rest).complete kind c.offset)
        | .template =>
          let behind ← template fuel c.offset (c.skip [first] cs)
          pure (behind.complete .template c.offset)

/-- The text of a template that started at `start`, up to its closing backtick. -/
def template : (fuel start : Nat) → Cursor → Attempt Cursor
  | 0, _, _ => unfinished
  | fuel + 1, start, c =>
    let chunk := templateChunk c.rest
    let c := c.skip chunk.text chunk.rest
    match chunk.ending with
    | .closed => pure c
    | .unterminated => refuse source (.lexical .unterminatedTemplate) start
    | .substitution => do
      let c ← substitution fuel start 0 c
      template fuel start c

/-- A substitution of a template that started at `start`, up to its closing brace, with `depth`
braces open in it. -/
def substitution : (fuel start depth : Nat) → Cursor → Attempt Cursor
  | 0, _, _, _ => unfinished
  | fuel + 1, start, depth, c => do
    let (span, c) ← next fuel c
    let t ← look (token? source span)
    if t.kind = .endOfInput then refuse source (.lexical .unterminatedTemplate) start
    else if t.isPunctuator "\x7b" then substitution fuel start (depth + 1) c
    else if t.isPunctuator "\x7d" then
      if depth = 0 then pure c
      else
        let depth ← look (down? depth)
        substitution fuel start depth c
    else substitution fuel start depth c

end

/-- All tokens up to the end of the input. -/
def tokens : (fuel : Nat) → Cursor → Attempt (List Span)
  | 0, _ => unfinished
  | fuel + 1, c => do
    let (span, c) ← next source fuel c
    if span.kind = .endOfInput then pure []
    else
      let spans ← tokens fuel c
      pure (span :: spans)

end

-- ---------------------------------------------------------------------------
-- Scanners in a source
-- ---------------------------------------------------------------------------

/-- The cursor where a scanner stands. -/
def cursorOf (s : Scanner) : Cursor := ⟨s.rest, s.offset, s.previous.map spanOf⟩

/-- A scanner stands in a source at its offset, and so does the last token it completed. -/
structure Within (source : List Char) (s : Scanner) : Prop where
  stands : ∃ before, before ++ s.rest = source ∧ byteLength before = s.offset
  previous : ∀ t ∈ s.previous, Lies source t

variable {source : List Char} {s s' : Scanner}

theorem Within.boundary (within : Within source s) : IsBoundary source s.offset := by
  obtain ⟨before, whole, size⟩ := within.stands
  exact ⟨before, s.rest, whole, size⟩

theorem Within.skip {text rest : List Char} (within : Within source s)
    (whole : text ++ rest = s.rest) : Within source (s.skip text rest) := by
  obtain ⟨before, whole', size⟩ := within.stands
  refine ⟨⟨before ++ text, ?_, ?_⟩, within.previous⟩
  · rw [List.append_assoc]
    show before ++ (text ++ rest) = source
    rw [whole, whole']
  · rw [byteLength_append, size]
    rfl

theorem Within.takes {text : List Char} (within : Within source s) (takes : s.Takes text s')
    (previous : ∀ t ∈ s'.previous, Lies source t) : Within source s' := by
  obtain ⟨before, whole, size⟩ := within.stands
  refine ⟨⟨before ++ text, ?_, ?_⟩, previous⟩
  · rw [List.append_assoc, takes.rest, whole]
  · rw [byteLength_append, size, takes.offset]

/-- A token that a call yields stands in the source, up to where the call has left the scanner. -/
theorem Within.of_next {t : Token} (within : Within source s) (call : s.next = (.ok t, s')) :
    Lies source t ∧ t.finish = s'.offset ∧ Within source s' := by
  obtain ⟨blank, rest, read, takes, start⟩ := Scanner.next_takes call
  obtain ⟨before, whole, size⟩ := within.stands
  have finish : t.finish = s'.offset := by
    rw [Token.finish, start, takes.offset, byteLength_append, Nat.add_assoc]
  have lies : Lies source t := by
    refine ⟨before ++ blank, s'.rest, ?_, ?_⟩
    · rw [← whole, ← takes.rest]
      simp
    · rw [byteLength_append, size, start]
  refine ⟨lies, finish, within.takes takes fun u remembered => ?_⟩
  by_cases ended : t.kind = .endOfInput
  · obtain ⟨blank, read⟩ := Scanner.gap_of_ended call ended
    rw [Scanner.next_end read] at call
    cases call
    exact within.previous u remembered
  · rw [Scanner.previous_of_next call ended] at remembered
    cases remembered
    exact lies

/-- To complete a token that ends where the scanner stands takes no more than its span. -/
theorem complete_cursorOf {t : Token} (finish : t.finish = s.offset) :
    (cursorOf s).complete t.kind t.start = (spanOf t, cursorOf (s.complete t)) := by
  unfold spanOf
  rw [finish]
  show _ = (_, (⟨s.rest, s.offset, some (spanOf t)⟩ : Cursor))
  unfold spanOf
  rw [finish]
  rfl

theorem within_ofSource (source : String) : Within source.toList (Scanner.ofSource source) := by
  obtain ⟨line, whole, -, offset⟩ := Scanner.hashbang_ofSource source
  refine ⟨⟨line, whole, offset.symm⟩, fun t remembered => ?_⟩
  have fresh : (Scanner.ofSource source).previous = none := by
    unfold Scanner.ofSource
    dsimp only
    split <;> rfl
  rw [fresh] at remembered
  cases remembered

-- ---------------------------------------------------------------------------
-- Heads
-- ---------------------------------------------------------------------------

theorem Within.regExpAllowed (within : Within source s) (first : Char) :
    regExpAllowed? source (cursorOf s).previous first =
      some (if first = '/' then s.regExpAllowed else false) := by
  unfold regExpAllowed? cursorOf
  split
  · cases previous : s.previous with
    | none =>
      unfold Scanner.regExpAllowed
      rw [previous]
      rfl
    | some t =>
      have found : token? source (spanOf t) = some t := (within.previous t previous).token?
      have same : s.regExpAllowed = Scanner.regExpAllowed ⟨[], 0, some t⟩ := by
        unfold Scanner.regExpAllowed
        rw [previous]
      rw [same]
      show ((token? source (spanOf t)).map some >>= _) = _
      rw [found]
      rfl
  · rfl

/-- Only a slash can open a regular expression. -/
theorem head_allowed {first : Char} (other : first ≠ '/') (allowed allowed' : Bool)
    (cs : List Char) : head allowed first cs = head allowed' first cs := by
  unfold head
  simp [other]

theorem head_number {first : Char} {cs : List Char}
    (number : (first.isDigit || (first = '.' && cs.head?.any Char.isDigit)) = true)
    (allowed : Bool) : head allowed first cs =
      simple .number first (numberTail (first = '0' && cs.head?.any fun x => x = 'x' || x = 'X') ' ' cs) := by
  have quote : ¬ (first = '"' || first = '\'') = true := by
    rintro same
    simp only [Bool.or_eq_true, decide_eq_true_eq] at same
    obtain rfl | rfl := same <;> simp at number
  have tick : ¬ first = backtick := by
    rintro rfl
    simp [backtick] at number
  unfold head
  dsimp only
  rw [if_neg quote, if_neg tick, if_pos number]

theorem hexadecimal_eq (first : Char) (cs : List Char) :
    ("0x".toList.isPrefixOf (first :: cs) || "0X".toList.isPrefixOf (first :: cs)) =
      (first = '0' && cs.head?.any fun x => x = 'x' || x = 'X') := by
  cases cs with
  | nil => simp [List.isPrefixOf]
  | cons d cs =>
    rw [Bool.eq_iff_iff]
    simp only [Bool.or_eq_true, Bool.and_eq_true, decide_eq_true_eq, List.head?_cons,
      Option.any_some]
    grind

theorem Within.head_eq {first : Char} {cs : List Char} (within : Within source s)
    (rest : s.rest = first :: cs) :
    head? source (cursorOf s) first cs = some (head s.regExpAllowed first cs) := by
  have same : head (if first = '/' then s.regExpAllowed else false) first cs =
      head s.regExpAllowed first cs := by
    split
    · rfl
    · rename_i other
      exact head_allowed other _ _ cs
  unfold head?
  rw [within.regExpAllowed first]
  show (if _ then _ else _ : Option Head) = _
  split
  · rename_i number
    obtain ⟨before, whole, size⟩ := within.stands
    have ahead : slice? source (cursorOf s).offset (byteLength source) = some (first :: cs) := by
      show slice? source s.offset _ = _
      rw [← whole, ← size, slice?_end, rest]
    rw [ahead, head_number number]
    show some (simple _ _ (numberTail (_ || _) _ _)) = _
    rw [hexadecimal_eq]
  · rw [same]

-- ---------------------------------------------------------------------------
-- Calls
-- ---------------------------------------------------------------------------

/-- An attempt at a token settles as a call of the scanner does, and leaves the cursor where the call
leaves the scanner. -/
def SettlesAs (source : String) (attempt : Attempt (Span × Cursor))
    (call : Except Scanner.Failure Token × Scanner) : Prop :=
  Settles source .lexical (fun yielded t => yielded = (spanOf t, cursorOf call.2)) attempt call.1

/-- Calls for a token nest three deep at most for each character: a token, the template that it
starts and the substitution in that. -/
def NextSettles (source : String) (s : Scanner) : Prop := ∀ fuel, 3 * s.rest.length < fuel →
  Within source.toList s → SettlesAs source (next source.toList fuel (cursorOf s)) s.next

/-- The text of a template, up to its end, is read as the steps of the scanner read it. -/
def TemplateSettles (source : String) (s : Scanner) : Prop :=
  ∀ fuel, 3 * s.rest.length + 2 < fuel → ∀ f : Scanner.Frame,
    Within source.toList s → IsBoundary source.toList f.start →
    f.start + byteLength f.text = s.offset →
    SettlesAs source (do
      let c ← template source.toList fuel f.start (cursorOf s)
      pure (c.complete .template f.start)) (Scanner.templateStep f [] s).finish

/-- The rest of a substitution and then of its template is read as the steps of the scanner read
them. -/
def SubstitutionSettles (source : String) (s : Scanner) : Prop :=
  ∀ fuel fuel', 3 * s.rest.length + 1 < fuel → 3 * s.rest.length < fuel' → ∀ f : Scanner.Frame,
    Within source.toList s → IsBoundary source.toList f.start →
    f.start + byteLength f.text = s.offset →
    SettlesAs source (do
      let c ← substitution source.toList fuel f.start f.depth (cursorOf s)
      let c ← template source.toList fuel' f.start c
      pure (c.complete .template f.start)) (Scanner.run [f] s)

section

variable {source : String} {s : Scanner}

theorem nextSettles (shorter : ∀ u : Scanner, u.rest.length < s.rest.length →
    TemplateSettles source u) : NextSettles source s := by
  intro fuel enough within
  obtain ⟨fuel, rfl⟩ := Nat.exists_eq_add_one_of_ne_zero (Nat.ne_zero_of_lt enough)
  rw [next]
  have source_eq := gap_source s.rest
  cases read : gap s.rest with
  | unterminated before comment =>
    rw [read] at source_eq
    rw [Scanner.next_of_step (Scanner.step_unterminated read [])]
    simp only [cursorOf, read]
    exact .refuse (within.skip source_eq).boundary _
  | complete blank rest =>
    rw [read] at source_eq
    have behind : Within source.toList (s.skip blank rest) := within.skip source_eq
    cases rest with
    | nil =>
      rw [Scanner.next_end read]
      simp only [cursorOf, read]
      exact .pure rfl
    | cons first cs =>
      have found : head? source.toList (cursorOf (s.skip blank (first :: cs))) first cs =
          some (head s.regExpAllowed first cs) := behind.head_eq rfl
      simp only [cursorOf, read]
      refine .look found ?_
      cases first_eq : head s.regExpAllowed first cs with
      | fault cause text rest =>
        rw [Scanner.next_of_step (Scanner.step_fault read first_eq [])]
        exact .refuse behind.boundary _
      | token kind text rest =>
        rw [Scanner.next_of_step (Scanner.step_token read first_eq [])]
        let t : Token := ⟨kind, s.offset + byteLength blank, String.ofList text⟩
        have finish : t.finish = ((s.skip blank (first :: cs)).skip text rest).offset := by
          show s.offset + byteLength blank + byteLength (String.ofList _).toList = _
          rw [String.toList_ofList]
          rfl
        exact .pure (complete_cursorOf finish)
      | template =>
        obtain rfl := head_template first_eq
        let f : Scanner.Frame := ⟨s.offset + byteLength blank, [backtick], 0⟩
        have smaller : cs.length < s.rest.length := by
          rw [← source_eq]
          simp [Gap.source]
          omega
        have call : s.next = (Scanner.templateStep f []
            ((s.skip blank (backtick :: cs)).skip [backtick] cs)).finish :=
          (Scanner.run_eq_finish [] s).trans
            (congrArg Scanner.Step.finish (Scanner.step_backtick read []))
        rw [call]
        have enough : 3 * cs.length + 2 < fuel := by omega
        exact shorter _ smaller fuel enough f (behind.skip rfl) behind.boundary rfl

theorem templateSettles (shorter : ∀ u : Scanner, u.rest.length ≤ s.rest.length →
    SubstitutionSettles source u) : TemplateSettles source s := by
  intro fuel enough f within boundary stops
  obtain ⟨fuel, rfl⟩ := Nat.exists_eq_add_one_of_ne_zero (Nat.ne_zero_of_lt enough)
  have source_eq := templateChunk_append s.rest
  rw [template]
  unfold Scanner.templateStep
  simp only [cursorOf]
  generalize templateChunk s.rest = chunk at source_eq ⊢
  have stops' : f.start + byteLength (f.text ++ chunk.text) = s.offset + byteLength chunk.text := by
    rw [byteLength_append, ← Nat.add_assoc, stops]
  let u : Scanner := s.skip chunk.text chunk.rest
  have left : u.rest.length ≤ s.rest.length := length_le_of_append_eq source_eq
  have behind : Within source.toList u := within.skip source_eq
  cases ending : chunk.ending with
  | closed =>
    let t : Token := ⟨.template, f.start, String.ofList (f.text ++ chunk.text)⟩
    have finish : t.finish = u.offset := by
      show f.start + byteLength (String.ofList _).toList = _
      rw [String.toList_ofList]
      exact stops'
    exact .pure (complete_cursorOf finish)
  | unterminated => exact .refuse_bind boundary _ _
  | substitution =>
    have inside := shorter u left fuel fuel (by omega) (by omega)
      ⟨f.start, f.text ++ chunk.text, 0⟩ behind boundary stops'
    rw [← bind_assoc] at inside
    exact inside

theorem substitutionSettles (same : NextSettles source s)
    (shorter : ∀ u : Scanner, u.rest.length < s.rest.length →
      TemplateSettles source u ∧ SubstitutionSettles source u) :
    SubstitutionSettles source s := by
  rintro fuel fuel' enough enough' ⟨start, text, depth⟩ within boundary stops
  obtain ⟨fuel, rfl⟩ := Nat.exists_eq_add_one_of_ne_zero (Nat.ne_zero_of_lt enough)
  rw [substitution, Scanner.run_inside]
  cases call : s.next with
  | mk answer u =>
    have settles := same fuel (by omega) within
    rw [call] at settles
    cases answer with
    | error failure =>
      rw [bind_assoc]
      exact settles.error_bind
    | ok t =>
      obtain ⟨_, yielded, rfl⟩ := settles.ok
      obtain ⟨lies, finish, within'⟩ := within.of_next call
      obtain ⟨blank, rest, -, takes, -⟩ := Scanner.next_takes call
      have stops' : start + byteLength (text ++ Scanner.taken s u) = u.offset := by
        rw [takes.taken_eq, takes.offset, byteLength_append, ← Nat.add_assoc, stops]
      rw [yielded]
      simp only [pure_bind, bind_assoc]
      refine .look lies.token? ?_
      by_cases ended : t.kind = .endOfInput
      · rw [if_pos ended, if_pos ended]
        exact .refuse_bind boundary _ _
      rw [if_neg ended, if_neg ended]
      have less : u.rest.length < s.rest.length := Scanner.next_lt call ended
      obtain ⟨textSettles, goesOn⟩ := shorter u less
      have goesOn : ∀ depth, SettlesAs source _
          (Scanner.run [⟨start, text ++ Scanner.taken s u, depth⟩] u) :=
        fun depth => goesOn fuel fuel' (by omega) (by omega)
          ⟨start, text ++ Scanner.taken s u, depth⟩ within' boundary stops'
      unfold Scanner.tokenStep
      by_cases opening : t.isPunctuator "\x7b" = true
      · simp only [opening, if_true]
        exact goesOn (depth + 1)
      by_cases closing : t.isPunctuator "\x7d" = true
      · simp only [opening, closing, if_true, Bool.false_eq_true, if_false]
        cases depth with
        | zero => exact textSettles fuel' (by omega) ⟨start, _, 0⟩ within' boundary stops'
        | succ depth => exact goesOn depth
      · simp only [opening, closing, Bool.false_eq_true, if_false]
        exact goesOn depth

theorem settles_below (n : Nat) : ∀ s : Scanner, s.rest.length < n →
    NextSettles source s ∧ TemplateSettles source s ∧ SubstitutionSettles source s := by
  induction n with
  | zero => exact fun s none => absurd none (Nat.not_lt_zero _)
  | succ n ih =>
    have settlesNext : ∀ s : Scanner, s.rest.length ≤ n → NextSettles source s :=
      fun s below => nextSettles fun u less => (ih u (by omega)).2.1
    have settlesSubstitution : ∀ s : Scanner, s.rest.length ≤ n → SubstitutionSettles source s :=
      fun s below => substitutionSettles (settlesNext s below) fun u less => (ih u (by omega)).2
    intro s below
    have below := Nat.le_of_lt_succ below
    exact ⟨settlesNext s below,
      templateSettles fun u less => settlesSubstitution u (Nat.le_trans less below),
      settlesSubstitution s below⟩

/-- Each call settles. -/
theorem settles_next (within : Within source.toList s) {fuel : Nat}
    (enough : 3 * s.rest.length < fuel) :
    SettlesAs source (next source.toList fuel (cursorOf s)) s.next :=
  (settles_below _ s (Nat.lt_succ_self _)).1 fuel enough within

/-- The attempt at all tokens settles, with their spans, each of which stands in the source. -/
theorem settles_tokens {fuel : Nat} (within : Within source.toList s)
    (enough : 3 * s.rest.length + 1 < fuel) :
    Settles source .lexical (fun spans ts => spans = ts.map spanOf ∧ ∀ t ∈ ts, Lies source.toList t)
      (tokens source.toList fuel (cursorOf s)) s.tokens := by
  induction fuel generalizing s with
  | zero => exact absurd enough (Nat.not_lt_zero _)
  | succ fuel ih =>
  have settles := settles_next within (Nat.lt_of_succ_lt_succ enough)
  rw [tokens, Scanner.tokens_eq]
  cases call : s.next with
  | mk answer u =>
  rw [call] at settles
  cases answer with
  | error failure => exact settles.error_bind
  | ok t =>
    obtain ⟨_, yielded, rfl⟩ := settles.ok
    rw [yielded, pure_bind]
    show Settles source _ _ (if t.kind = .endOfInput then _ else _)
      (if t.kind = .endOfInput then _ else _)
    split
    · exact .pure ⟨rfl, List.forall_mem_nil _⟩
    · rename_i more
      obtain ⟨lies, -, within'⟩ := within.of_next call
      have less : u.rest.length < s.rest.length := Scanner.next_lt call more
      have others := ih within' (by omega)
      cases later : u.tokens with
      | error failure =>
        rw [later] at others
        exact others.error_bind
      | ok ts =>
        rw [later] at others
        obtain ⟨_, spans, rfl, lie⟩ := others.ok
        rw [spans]
        exact .pure ⟨rfl, List.forall_mem_cons.2 ⟨lies, lie⟩⟩

end

end Esm.Offsets
