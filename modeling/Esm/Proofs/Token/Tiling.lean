-- SUMMARY: The tokens of a source and the gaps between them make up the source.
import Esm.Proofs.Token.Followed
import Esm.Proofs.Token.Shape

/-!
# Tilings

The tokens of a source stand in it one behind the other, each with the shape of its kind. What is
left between them, before the first and behind the last is a skipped first line, blanks and
comments, so every character of the source belongs to one token or to one gap. Main statement:
`tokenize_tiles`.
-/

namespace Esm

open Text

/-- The offset right behind a token. -/
def Token.finish (t : Token) : Nat := t.start + byteLength t.text.toList

namespace Lexeme

-- ---------------------------------------------------------------------------
-- Gaps
-- ---------------------------------------------------------------------------

/-- What is skipped before a text: blanks, line comments up to a line end or the end of the text,
and block comments up to the first closing. -/
inductive Trivia (behind : List Char) : List Char → Prop where
  | nil : Trivia behind []
  | blank {c : Char} {cs : List Char} : isBlank c = true → Trivia behind cs →
    Trivia behind (c :: cs)
  | line {text cs : List Char} : (∀ c ∈ text, isLineEnd c = false) →
    (∀ c ∈ (cs ++ behind).head?, isLineEnd c = true) → Trivia behind cs →
    Trivia behind ('/' :: '/' :: (text ++ cs))
  | block {text cs : List Char} : ¬ "*/".toList <:+: text → Trivia behind cs →
    Trivia behind ('/' :: '*' :: (text ++ '*' :: '/' :: cs))

/-- What is skipped at the start of a source: its first line, if that starts with `#!`. -/
inductive Hashbang (behind : List Char) : List Char → Prop where
  | none : ¬ "#!".toList <+: behind → Hashbang behind []
  | line {text : List Char} : (∀ c ∈ text, isLineEnd c = false) →
    (∀ c ∈ behind.head?, isLineEnd c = true) → Hashbang behind ('#' :: '!' :: text)

/-- A run that goes on up to a line end takes none. -/
theorem run_line (cs : List Char) :
    (∀ c ∈ (run (fun c => !isLineEnd c) cs).1, isLineEnd c = false) ∧
      ∀ c ∈ (run (fun c => !isLineEnd c) cs).2.head?, isLineEnd c = true := by
  refine ⟨fun c mem => by simpa using run_satisfies _ cs c mem, fun c first => ?_⟩
  have stops := head?_run_rest (fun c => !isLineEnd c) cs
  rw [Option.mem_def.1 first] at stops
  simpa using stops

theorem closing_infix_cons {c : Char} {cs : List Char} (inside : "*/".toList <:+: c :: cs) :
    c = '*' ∧ cs.head? = some '/' ∨ "*/".toList <:+: cs := by
  obtain ⟨rest, whole⟩ | later := List.infix_cons_iff.1 inside
  · obtain ⟨rfl, rfl⟩ := List.cons.inj (whole : '*' :: '/' :: rest = c :: cs)
    exact Or.inl ⟨rfl, rfl⟩
  · exact Or.inr later

/-- A block comment that is complete ends at the first star with a slash behind it. A star that was
read just before may be that star. -/
theorem blockCommentTail_closed {afterStar : Bool} {cs : List Char}
    (closed : (blockCommentTail afterStar cs).ending = .closed) :
    ∃ body, (bif afterStar then ['*'] else []) ++ (blockCommentTail afterStar cs).text =
      body ++ ['*', '/'] ∧ ¬ "*/".toList <:+: body := by
  induction cs generalizing afterStar with
  | nil => cases closed
  | cons c cs ih =>
    simp only [blockCommentTail] at closed ⊢
    split
    · rename_i last
      simp only [Bool.and_eq_true, beq_iff_eq] at last
      obtain ⟨rfl, rfl⟩ := last
      exact ⟨[], rfl, by decide⟩
    rename_i more
    rw [if_neg more] at closed
    obtain ⟨body, whole, first⟩ := ih closed
    -- the body from this character on, which is its own first one if it is a star
    obtain ⟨body', whole', first', slash⟩ : ∃ body', c :: (blockCommentTail (c == '*') cs).text =
        body' ++ ['*', '/'] ∧ ¬ "*/".toList <:+: body' ∧ (body'.head? = some '/' → c = '/') := by
      by_cases star : c = '*'
      · subst star
        refine ⟨body, whole, first, fun slash => ?_⟩
        obtain ⟨rest, rfl⟩ := List.head?_eq_some_iff.1 slash
        exact (List.cons.inj whole).1
      · rw [beq_false_of_ne star] at whole ⊢
        refine ⟨c :: body, congrArg (c :: ·) whole, fun inside => ?_, Option.some.inj⟩
        obtain ⟨same, -⟩ | later := closing_infix_cons inside
        · exact star same
        · exact first later
    cases afterStar with
    | false => exact ⟨body', whole', first'⟩
    | true =>
      refine ⟨'*' :: body', congrArg ('*' :: ·) whole', fun inside => ?_⟩
      obtain ⟨-, opening⟩ | later := closing_infix_cons inside
      · exact more (by simp [slash opening])
      · exact first' later

/-- A gap is made of blanks and comments. -/
theorem gap_trivia {cs blank rest : List Char} (read : gap cs = .complete blank rest) :
    Trivia rest blank := by
  fun_induction gap cs generalizing blank with
  | case1 =>
    cases read
    exact .nil
  | case2 cs comment =>
    rename_i ih
    obtain ⟨text, read', rfl⟩ := Gap.consume_eq_complete read
    obtain ⟨line, ends⟩ := run_line cs
    have source : text ++ rest = comment.2 := by
      have whole := gap_source comment.2
      rwa [read'] at whole
    exact .line line (by rw [source]; exact ends) (ih read')
  | case3 cs comment closed =>
    rename_i ih
    obtain ⟨text, read', rfl⟩ := Gap.consume_eq_complete read
    obtain ⟨body, whole, first⟩ := blockCommentTail_closed closed
    have whole : comment.text = body ++ ['*', '/'] := whole
    rw [whole]
    simpa using .block first (ih read')
  | case4 => cases read
  | case5 c cs _ _ blank' ih =>
    obtain ⟨text, read', rfl⟩ := Gap.consume_eq_complete read
    exact .blank blank' (ih read')
  | case6 =>
    cases read
    exact .nil

end Lexeme

open Lexeme

-- ---------------------------------------------------------------------------
-- Tilings
-- ---------------------------------------------------------------------------

/-- The text from an offset on is made of these tokens, each where it says it starts and with the
shape of its kind, and of gaps before, between and behind them. -/
inductive Tiles : Nat → List Char → List Token → Prop where
  | last {offset : Nat} {gap : List Char} : Trivia [] gap → Tiles offset gap []
  | token {offset : Nat} {gap rest : List Char} {t : Token} {ts : List Token} :
    Trivia (t.text.toList ++ rest) gap → t.start = offset + byteLength gap →
    Shape t.kind t.text.toList → Tiles t.finish rest ts →
    Tiles offset (gap ++ (t.text.toList ++ rest)) (t :: ts)

namespace Tiles

variable {offset : Nat} {text : List Char} {ts : List Token}

/-- Each token is a piece of the text, and starts behind the characters before it. -/
theorem covers (tiles : Tiles offset text ts) : ∀ t ∈ ts, ∃ before after,
    before ++ t.text.toList ++ after = text ∧ t.start = offset + byteLength before := by
  induction tiles with
  | last => exact List.forall_mem_nil _
  | @token offset gap rest t ts trivia start shape tiles ih =>
    refine List.forall_mem_cons.2 ⟨⟨gap, rest, List.append_assoc _ _ _, start⟩, fun u mem => ?_⟩
    obtain ⟨before, after, whole, start'⟩ := ih u mem
    refine ⟨gap ++ t.text.toList ++ before, after, by simp [← whole], ?_⟩
    rw [start', Token.finish, start]
    simp [Nat.add_assoc]

theorem ordered (tiles : Tiles offset text ts) : ts.Pairwise (·.finish ≤ ·.start) := by
  induction tiles with
  | last => exact .nil
  | token trivia start shape tiles ih =>
    refine .cons (fun u mem => ?_) ih
    obtain ⟨before, after, -, start'⟩ := tiles.covers u mem
    exact start' ▸ Nat.le_add_right _ _

theorem shape (tiles : Tiles offset text ts) : ∀ t ∈ ts, Shape t.kind t.text.toList := by
  induction tiles with
  | last => exact List.forall_mem_nil _
  | token _ _ shape _ ih => exact List.forall_mem_cons.2 ⟨shape, ih⟩

end Tiles

namespace Scanner

/-- A call ends the input where nothing comes behind the gap. -/
theorem gap_of_ended {s s' : Scanner} {t : Token} (call : s.next = (.ok t, s'))
    (ended : t.kind = .endOfInput) : ∃ blank, gap s.rest = .complete blank [] := by
  have before : Before [] s s := ⟨(List.append_nil _).symm, rfl⟩
  obtain last | ⟨proper, -⟩ := next_followed (fun c first => by cases first) before call
  · exact last
  · exact absurd ended proper

theorem tokens_tile {s : Scanner} {ts : List Token} (call : s.tokens = .ok ts) :
    Tiles s.offset s.rest ts := by
  fun_induction tokens s generalizing ts with
  | case1 s failure s' first => cases call
  | case2 s t s' first last =>
    cases call
    obtain ⟨blank, read⟩ := gap_of_ended first last
    have whole := gap_source s.rest
    rw [read, Gap.source, List.append_nil] at whole
    exact whole ▸ .last (gap_trivia read)
  | case3 s t s' first more ih =>
    cases later : s'.tokens with
    | error failure =>
      rw [later] at call
      cases call
    | ok ts' =>
      rw [later] at call
      cases call
      obtain ⟨blank, rest, read, takes, start⟩ := next_takes first
      have whole : blank ++ rest = s.rest := by
        have source := gap_source s.rest
        rwa [read] at source
      have parts : blank ++ (t.text.toList ++ s'.rest) = s.rest := by
        rw [← takes.rest, List.append_assoc]
      obtain rfl : t.text.toList ++ s'.rest = rest :=
        List.append_cancel_left (parts.trans whole.symm)
      have finish : t.finish = s'.offset := by
        rw [Token.finish, start, takes.offset, byteLength_append, Nat.add_assoc]
      rw [← parts]
      refine .token (gap_trivia read) start (Token.Scanned.shape ⟨s, s', first⟩ more) ?_
      exact finish ▸ ih later

theorem hashbang_ofSource (source : String) :
    ∃ line, line ++ (ofSource source).rest = source.toList ∧
    Hashbang (ofSource source).rest line ∧ (ofSource source).offset = byteLength line := by
  by_cases starts : "#!".toList <+: source.toList
  · obtain ⟨cs, text⟩ := starts
    have text : source.toList = '#' :: '!' :: cs := text.symm
    have whole := run_append (fun c => !isLineEnd c) source.toList
    obtain ⟨line, ends⟩ := run_line source.toList
    obtain ⟨more, taken⟩ : ∃ more, (Lexeme.run (fun c => !isLineEnd c) source.toList).1 =
        '#' :: '!' :: more := by
      rw [text]
      exact ⟨_, rfl⟩
    have skipped : ofSource source = (⟨source.toList, 0, none⟩ : Scanner).skip
        (Lexeme.run (fun c => !isLineEnd c) source.toList).1
        (Lexeme.run (fun c => !isLineEnd c) source.toList).2 := by
      unfold ofSource
      simp only [text]
    rw [skipped]
    refine ⟨_, whole, ?_, Nat.zero_add _⟩
    rw [taken] at line ⊢
    exact .line (List.forall_mem_cons.1 (List.forall_mem_cons.1 line).2).2 ends
  · rw [ofSource_plain starts]
    exact ⟨[], rfl, .none starts, rfl⟩

end Scanner

/-- The tokens of a source and the gaps between them make up the source: a first line that is
skipped, and from there on a tiling. So each token is a piece of the source that is not empty,
between two offsets at which characters start, and it does not start before the one before it has
ended. -/
theorem tokenize_tiles {source : String} {ts : List Token} (scanned : tokenize source = .ok ts) :
    (∃ line rest, line ++ rest = source.toList ∧ Hashbang rest line ∧
      Tiles (byteLength line) rest ts) ∧
    (∀ t ∈ ts, t.start < t.finish ∧ t.finish ≤ byteLength source.toList ∧
      ∃ before after, before ++ t.text.toList ++ after = source.toList ∧
        t.start = byteLength before ∧ t.finish = byteLength (before ++ t.text.toList)) ∧
    ts.Pairwise (·.finish ≤ ·.start) := by
  obtain ⟨line, whole, hashbang, offset⟩ := Scanner.hashbang_ofSource source
  have tiles := Scanner.tokens_tile scanned
  rw [offset] at tiles
  refine ⟨⟨line, _, whole, hashbang, tiles⟩, fun t mem => ?_, tiles.ordered⟩
  obtain ⟨before, after, parts, start⟩ := tiles.covers t mem
  have source_eq : line ++ before ++ t.text.toList ++ after = source.toList := by
    rw [← whole, ← parts]
    simp
  have start' : t.start = byteLength (line ++ before) := by rw [start, byteLength_append]
  have finish : t.finish = byteLength (line ++ before ++ t.text.toList) := by
    rw [Token.finish, start', byteLength_append (line ++ before)]
  have characters := List.length_pos_of_ne_nil (tiles.shape t mem).ne_nil
  have bytes := length_le_byteLength t.text.toList
  refine ⟨?_, ?_, line ++ before, after, source_eq, start', finish⟩
  · unfold Token.finish
    omega
  · rw [finish, ← source_eq, byteLength_append (line ++ before ++ t.text.toList)]
    exact Nat.le_add_right _ _

/-- A skipped line, every kind of token, a byte order mark, comments of both kinds, and characters
of several bytes. -/
theorem tokenize_tiles_accented :
    let source := "#!é\n'é\\'',#a = `$\x7b/[/]/g\x7d`/.5/***/;\ufeff//"
    let ts : List Token := [⟨.string, 5, "'é\\''"⟩, ⟨.punctuator, 11, ","⟩, ⟨.identifier, 12, "#a"⟩,
      ⟨.punctuator, 15, "="⟩, ⟨.template, 17, "`$\x7b/[/]/g\x7d`"⟩, ⟨.punctuator, 28, "/"⟩,
      ⟨.number, 29, ".5"⟩, ⟨.punctuator, 36, ";"⟩]
    tokenize source = .ok ts ∧
      (∃ line rest, line ++ rest = source.toList ∧ Hashbang rest line ∧
        Tiles (byteLength line) rest ts) ∧
      (∀ t ∈ ts, t.start < t.finish ∧ t.finish ≤ byteLength source.toList ∧
        ∃ before after, before ++ t.text.toList ++ after = source.toList ∧
          t.start = byteLength before ∧ t.finish = byteLength (before ++ t.text.toList)) ∧
      ts.Pairwise (·.finish ≤ ·.start) := by
  intro source ts
  have scanned : tokenize source = .ok ts := by decide +kernel
  exact ⟨scanned, tokenize_tiles scanned⟩

end Esm
