-- SUMMARY: The tokens of a text do not depend on what follows it in a new line, nor on where it stands.
import Esm.Proofs.Token.Again

/-!
# Texts that follow one another

A text that can be read to its end has the same tokens when another text follows it that starts with
a new line: every token, and every comment, is complete by then.
-/

namespace Esm

/-- Nothing, or a text that starts with a new line. -/
def Text.StartsLine (tail : List Char) : Prop := ∀ c ∈ tail.head?, c = '\n'

open Text

/-- What is left is left with another text behind it. -/
theorem Text.StartsLine.borders {tail : List Char} (line : StartsLine tail) (left : List Char) :
    Borders left (left ++ tail) := by
  cases left with
  | nil => exact Or.inr fun c first => Or.inr (line c first)
  | cons c left => exact Or.inl rfl

namespace Lexeme

-- ---------------------------------------------------------------------------
-- Gaps
-- ---------------------------------------------------------------------------

variable {tail : List Char}

theorem run_followed {test : Char → Bool} (fails : test '\n' = false) (line : StartsLine tail)
    (cs : List Char) : run test (cs ++ tail) = ((run test cs).1, (run test cs).2 ++ tail) := by
  have stops : ((run test cs).2 ++ tail).head?.any test = false := by
    cases rest : (run test cs).2 with
    | nil =>
      cases tail with
      | nil => rfl
      | cons c tail =>
        obtain rfl := line c rfl
        exact fails
    | cons c cs' =>
      have ends := head?_run_rest test cs
      rw [rest] at ends
      exact ends
  have whole : cs ++ tail = (run test cs).1 ++ ((run test cs).2 ++ tail) := by
    rw [← List.append_assoc, run_append]
  rw [whole]
  exact run_stops stops cs

theorem Gap.consume_consume (before taken : List Char) (g : Gap) :
    (g.consume taken).consume before = g.consume (before ++ taken) := by
  cases g <;> simp [consume]

/-- A gap that ends with its text goes on in the gap of another one. -/
theorem gap_followed {cs blank : List Char} (line : StartsLine tail)
    (read : gap cs = .complete blank []) : gap (cs ++ tail) = (gap tail).consume blank := by
  fun_induction gap cs generalizing blank with
  | case1 =>
    cases read
    rw [List.nil_append]
    cases gap tail <;> rfl
  | case2 cs comment =>
    rename_i ih
    obtain ⟨text, read', rfl⟩ := Gap.consume_eq_complete read
    have same : run (fun c => !isLineEnd c) (cs ++ tail) = (comment.1, comment.2 ++ tail) :=
      run_followed (by decide) line cs
    rw [← Gap.consume_consume, ← ih read', List.cons_append, List.cons_append, gap]
    simp only [same]
  | case3 cs comment closed =>
    rename_i ih
    obtain ⟨text, read', rfl⟩ := Gap.consume_eq_complete read
    have whole : cs ++ tail = comment.text ++ (comment.rest ++ tail) := by
      rw [← List.append_assoc, blockCommentTail_append]
    have same : blockCommentTail false (cs ++ tail) = comment.leaving (comment.rest ++ tail) := by
      rw [whole]
      exact blockCommentTail_again closed _
    rw [← Gap.consume_consume, ← ih read', List.cons_append, List.cons_append, gap]
    simp only [same, Piece.leaving, closed]
  | case4 => cases read
  | case5 c cs _ _ blank' ih =>
    obtain ⟨text, read', rfl⟩ := Gap.consume_eq_complete read
    rw [← Gap.consume_consume, ← ih read', List.cons_append, gap_blank blank']
  | case6 => cases read

/-- What follows does not make a comment of a slash. -/
theorem append_ne_cons (cs : List Char) {ds : List Char} {d : Char} (line : StartsLine tail) (other : d ≠ '\n')
    (absent : ∀ ds, cs ≠ d :: ds) : cs ++ tail ≠ d :: ds := by
  intro same
  cases cs with
  | nil =>
    rw [List.nil_append] at same
    subst same
    exact other (line d rfl)
  | cons c cs =>
    cases same
    exact absent cs rfl

end Lexeme

namespace Scanner

open Lexeme

variable {tail : List Char}

-- ---------------------------------------------------------------------------
-- Calls
-- ---------------------------------------------------------------------------

/-- The second scanner has before it what the first has, with `tail` behind it, and a slash means
the same to both. -/
structure Before (tail : List Char) (s s' : Scanner) : Prop where
  rest : s'.rest = s.rest ++ tail
  regExpAllowed : s'.regExpAllowed = s.regExpAllowed

/-- A call that does not find the end of its text takes the same when another one follows. -/
theorem next_followed {s s' u : Scanner} {t : Token} (line : StartsLine tail)
    (before : Before tail s s') (call : s.next = (.ok t, u)) :
    (∃ blank, gap s.rest = .complete blank []) ∨
      t.kind ≠ .endOfInput ∧ ∃ t' u', s'.next = (.ok t', u') ∧ t.Alike t' ∧ Before tail u u' := by
  obtain ⟨taken, whole, -⟩ := run_suffix call
  have stands : Stands (taken ++ (u.rest ++ tail)) s s' :=
    ⟨by rw [before.rest, ← whole, List.append_assoc], before.regExpAllowed⟩
  obtain ⟨-, ended⟩ | ⟨proper, t', u', call', token, after⟩ :=
    run_again .nil call whole (line.borders u.rest) stands
  · exact Or.inl ended
  · exact Or.inr ⟨proper, t', u', call', token, after.rest, after.regExpAllowed⟩

/-- The tokens of a text that can be read to its end come first when another text follows, and
behind them come the tokens of that text. -/
theorem tokens_followed {s s' : Scanner} {ts : List Token} (line : StartsLine tail)
    (before : Before tail s s') (call : s.tokens = .ok ts) :
    ∃ ts' offset previous, List.Forall₂ Token.Alike ts ts' ∧
      s'.tokens = (tokens ⟨tail, offset, previous⟩).map (ts' ++ ·) := by
  fun_induction tokens s generalizing s' ts with
  | case1 s failure u first => cases call
  | case2 s t u first last =>
    cases call
    obtain ⟨blank, read⟩ | ⟨proper, -⟩ := next_followed line before first
    · have whole : gap s'.rest = (gap tail).consume blank := by
        rw [before.rest, gap_followed line read]
      refine ⟨[], s'.offset + byteLength blank, s'.previous, .nil, ?_⟩
      rw [tokens_congr (next_consume whole)]
      exact (congrFun Except.map_id _).symm
    · exact absurd last proper
  | case3 s t u first more ih =>
    obtain ⟨blank, read⟩ | ⟨-, t', u', call', token, after⟩ := next_followed line before first
    · rw [next_end read] at first
      cases first
      exact absurd rfl more
    · cases rest : u.tokens with
      | error failure =>
        rw [rest] at call
        cases call
      | ok ts₁ =>
        rw [rest] at call
        cases call
        obtain ⟨ts', offset, previous, alike, followed⟩ := ih after rest
        refine ⟨t' :: ts', offset, previous, .cons token alike, ?_⟩
        rw [tokens_of_next call', if_neg (token.kind ▸ more), followed]
        cases (tokens ⟨tail, offset, previous⟩) with
        | error failure => rfl
        | ok us => rfl

/-- A line that is skipped at the start of a source is skipped whatever follows. -/
theorem ofSource_followed (line : StartsLine tail) {source whole : String}
    (appended : whole.toList = source.toList ++ tail) :
    Before tail (ofSource source) (ofSource whole) := by
  by_cases hashbang : "#!".toList <+: source.toList
  · obtain ⟨cs, text⟩ := hashbang
    have text : source.toList = '#' :: '!' :: cs := text.symm
    have whole' : whole.toList = '#' :: '!' :: (cs ++ tail) := by rw [appended, text]; rfl
    have skipped : Lexeme.run (fun c => !isLineEnd c) ('#' :: '!' :: (cs ++ tail)) = _ :=
      Lexeme.run_followed (by decide) line ('#' :: '!' :: cs)
    unfold ofSource
    simp only [text, whole', skipped]
    exact ⟨rfl, rfl⟩
  · have plain : ¬ "#!".toList <+: whole.toList := by
      rintro ⟨cs, text⟩
      have text : source.toList ++ tail = '#' :: '!' :: cs := (text.trans appended).symm
      cases first : source.toList with
      | nil =>
        rw [first] at text
        exact append_ne_cons [] line (by decide) nofun text
      | cons c rest =>
        rw [first] at text
        obtain ⟨rfl, text'⟩ := List.cons.inj text
        refine append_ne_cons rest line (by decide) ?_ text'
        rintro ds rfl
        exact hashbang ⟨ds, first.symm⟩
    rw [ofSource_plain hashbang, ofSource_plain plain]
    exact ⟨appended, rfl⟩

end Scanner

end Esm
