-- SUMMARY: Where a slash divides, and where it opens a regular expression.
import Esm.Proofs.Token.Inside

/-!
# Slashes

A slash that opens no comment divides if an operand is complete before it, and opens a regular
expression otherwise. The scanner decides by the last token alone. That is right behind every
operand but two: a member that is named like a keyword, and an operand with an increment or a
decrement behind it. Main statement: `slash_behind_operand`.
-/

namespace Esm.Scanner

open Text Lexeme

-- ---------------------------------------------------------------------------
-- The token before
-- ---------------------------------------------------------------------------

theorem templateStep_previous {f : Frame} {frames : List Frame} {s s' : Scanner} {t : Token}
    (h : templateStep f frames s = .done (.ok t) s') : s'.previous = some t := by
  unfold templateStep at h
  dsimp only at h
  split at h
  · cases h
  · cases h
  · split at h
    · cases h
      rfl
    · cases h

theorem tokenStep_previous {frames : List Frame} {t u : Token} {s s' : Scanner}
    (h : tokenStep frames u (s.complete u) = .done (.ok t) s') : s'.previous = some t := by
  cases frames with
  | nil =>
    cases h
    rfl
  | cons f frames =>
    unfold tokenStep at h
    dsimp only at h
    split at h
    · cases h
    split at h
    · split at h
      · exact templateStep_previous h
      · cases h
    · cases h

/-- A scanner remembers the token it has completed. -/
theorem step_previous {frames : List Frame} {s s' : Scanner} {t : Token}
    (h : step frames s = .done (.ok t) s') (proper : t.kind ≠ .endOfInput) :
    s'.previous = some t := by
  unfold step at h
  split at h
  · cases h
  · dsimp only at h
    split at h
    · split at h
      · cases h
        exact absurd rfl proper
      · cases h
    · split at h
      · cases h
      · exact tokenStep_previous h
      · exact templateStep_previous h

theorem previous_of_next {s s' : Scanner} {t : Token} (call : s.next = (.ok t, s'))
    (proper : t.kind ≠ .endOfInput) : s'.previous = some t := by
  have remembered : ∀ frames s, run frames s = (.ok t, s') → s'.previous = some t := by
    intro frames s call
    fun_induction run frames s with
    | case1 frames s result s'' taken =>
      cases call
      exact step_previous taken proper
    | case2 frames s frames' s'' taken ih => exact ih call
  exact remembered [] s call

-- ---------------------------------------------------------------------------
-- Slashes
-- ---------------------------------------------------------------------------

theorem head_slash (allowed : Bool) (cs : List Char) : head allowed '/' cs =
    if allowed then literal .regExp .unterminatedRegExp '/' (regExpTail cs)
    else .token .punctuator ['/'] cs := by
  have digit : '/'.isDigit = false := by decide
  have start : isIdentifierStart '/' = false := by decide
  unfold head
  cases allowed <;> simp [digit, start, backtick, isPunctuation]

/-- The next token is the slash at this offset alone. -/
def Divides (s : Scanner) (offset : Nat) : Prop :=
  ∃ s', s.next = (.ok ⟨.punctuator, offset, "/"⟩, s')

/-- The next token is a regular expression that the slash at this offset opens, or would be one if
it were closed. -/
def OpensRegExp (s : Scanner) (offset : Nat) : Prop :=
  (∃ t s', s.next = (.ok t, s') ∧ t.kind = .regExp ∧ t.start = offset) ∨
    ∃ s', s.next = (.error ⟨.unterminatedRegExp, offset⟩, s')

variable {s s' : Scanner} {blank cs : List Char}

theorem divides_of_disallowed (slash : gap s.rest = .complete blank ('/' :: cs))
    (disallowed : s.regExpAllowed = false) : s.Divides (s.offset + byteLength blank) := by
  have read : head s.regExpAllowed '/' cs = .token .punctuator ['/'] cs := by
    rw [disallowed]
    exact head_slash false cs
  exact ⟨_, next_of_step (step_token slash read [])⟩

theorem opensRegExp_of_allowed (slash : gap s.rest = .complete blank ('/' :: cs))
    (allowed : s.regExpAllowed = true) : s.OpensRegExp (s.offset + byteLength blank) := by
  have read : head s.regExpAllowed '/' cs =
      literal .regExp .unterminatedRegExp '/' (regExpTail cs) := by
    rw [allowed]
    exact head_slash true cs
  unfold literal at read
  cases ending : (regExpTail cs).ending with
  | closed =>
    rw [ending] at read
    exact Or.inl ⟨_, _, next_of_step (step_token slash read []), rfl, rfl⟩
  | unterminated =>
    rw [ending] at read
    exact Or.inr ⟨_, next_of_step (step_fault slash read [])⟩

theorem Divides.not_opensRegExp {offset offset' : Nat} (divides : s.Divides offset) :
    ¬ s.OpensRegExp offset' := by
  obtain ⟨u, call⟩ := divides
  rintro (⟨t, u', call', kind, -⟩ | ⟨u', call'⟩)
  · rw [call] at call'
    cases call'
    cases kind
  · rw [call] at call'
    cases call'

-- ---------------------------------------------------------------------------
-- Operands
-- ---------------------------------------------------------------------------

/-- A token that a call has yielded, and the gap before it. -/
structure Reading where
  gap : List Char
  token : Token

/-- Calls from `s` on, one behind the other, yield these tokens. They may be those of a
substitution, which are read by such calls from behind its opening on. -/
inductive Reads (s : Scanner) : List Reading → Scanner → Prop where
  | nil : Reads s [] s
  | next {rs : List Reading} {s₁ s₂ : Scanner} {blank rest : List Char} {t : Token} :
    Reads s rs s₁ → gap s₁.rest = .complete blank rest → s₁.next = (.ok t, s₂) →
    t.kind ≠ .endOfInput → Reads s (rs ++ [⟨blank, t⟩]) s₂

theorem Reads.previous {rs : List Reading} {r : Reading} (reads : Reads s (rs ++ [r]) s') :
    s'.previous = some r.token := by
  generalize whole : rs ++ [r] = all at reads
  cases reads with
  | nil => simp at whole
  | next before read call proper =>
    obtain ⟨-, last⟩ := List.append_inj' whole rfl
    cases last
    exact previous_of_next call proper

/-- The last token, or the last two, complete an operand: a word that is no keyword before
expressions, a member, which is a word behind a single point, a literal, or a closing bracket. -/
inductive Complete : List Reading → Prop where
  | word {rs : List Reading} {r : Reading} : r.token.kind = .identifier →
    r.token.text ∉ expressionKeywords → Complete (rs ++ [r])
  | member {rs : List Reading} {point r : Reading} : point.token.isPunctuator "." = true →
    (∀ r' ∈ rs.getLast?, r'.token.isPunctuator "." = false) → r.token.kind = .identifier →
    Complete (rs ++ [point, r])
  | literal {rs : List Reading} {r : Reading} :
    r.token.kind ∈ [TokenKind.number, .string, .template, .regExp] → Complete (rs ++ [r])
  | bracket {rs : List Reading} {r : Reading} : r.token.isPunctuator "]" = true →
    Complete (rs ++ [r])

/-- The last two tokens are an increment or a decrement of the operand before them: the same sign
twice, with nothing between, in the line in which the operand ends. -/
inductive Stepped : List Reading → Prop where
  | intro {rs : List Reading} {sign : String} {first second : Reading} : Complete rs →
    sign ∈ ["+", "-"] → first.token.isPunctuator sign = true →
    second.token.isPunctuator sign = true → (∀ c ∈ first.gap, isLineEnd c = false) →
    second.gap = [] → Stepped (rs ++ [first, second])

/-- The last tokens are a member that is named like a keyword before expressions. -/
inductive KeywordMember : List Reading → Prop where
  | intro {rs : List Reading} {point r : Reading} : point.token.isPunctuator "." = true →
    (∀ r' ∈ rs.getLast?, r'.token.isPunctuator "." = false) → r.token.kind = .identifier →
    r.token.text ∈ expressionKeywords → KeywordMember (rs ++ [point, r])

-- ---------------------------------------------------------------------------
-- Slashes behind operands
-- ---------------------------------------------------------------------------

variable {rs : List Reading} {r : Reading}

theorem Reads.allowed_word (reads : Reads s (rs ++ [r]) s') (word : r.token.kind = .identifier) :
    s'.regExpAllowed = expressionKeywords.contains r.token.text := by
  simp only [regExpAllowed, reads.previous, word]

theorem Reads.allowed_punctuator (reads : Reads s (rs ++ [r]) s') {text : String}
    (punctuator : r.token.isPunctuator text = true) :
    s'.regExpAllowed = !([")", "]", "\x7d"].contains text) := by
  simp only [Token.isPunctuator, Bool.and_eq_true, beq_iff_eq] at punctuator
  simp only [regExpAllowed, reads.previous, punctuator.1, punctuator.2]

theorem KeywordMember.allowed (member : KeywordMember rs) (reads : Reads s rs s') :
    s'.regExpAllowed = true := by
  obtain ⟨-, -, word, keyword⟩ := member
  rw [List.append_cons] at reads
  rw [reads.allowed_word word]
  simpa using keyword

theorem Stepped.allowed (stepped : Stepped rs) (reads : Reads s rs s') :
    s'.regExpAllowed = true := by
  obtain ⟨-, sign, -, second, -, -⟩ := stepped
  rw [List.append_cons] at reads
  rw [reads.allowed_punctuator second]
  simp only [List.mem_cons, List.not_mem_nil, or_false] at sign
  obtain rfl | rfl := sign <;> decide

/-- Behind a complete operand a regular expression is allowed only where a member has the name of a
keyword. -/
theorem Complete.keywordMember (complete : Complete rs) (reads : Reads s rs s')
    (allowed : s'.regExpAllowed = true) : KeywordMember rs := by
  cases complete with
  | word word plain =>
    rw [reads.allowed_word word] at allowed
    exact absurd (by simpa using allowed) plain
  | member point single word =>
    rw [List.append_cons] at reads
    rw [reads.allowed_word word] at allowed
    exact .intro point single word (by simpa using allowed)
  | literal literal =>
    simp only [regExpAllowed, reads.previous] at allowed
    simp only [List.mem_cons, List.not_mem_nil, or_false] at literal
    obtain kind | kind | kind | kind := literal <;> simp [kind] at allowed
  | bracket bracket =>
    rw [reads.allowed_punctuator bracket] at allowed
    exact absurd allowed (by decide)

/-- A slash that opens no comment, behind an operand: it divides, and starts no regular expression,
unless the operand is a member that is named like a keyword before expressions or ends with an
increment or a decrement. Behind these two it does not divide and starts a regular expression. -/
theorem slash_behind_operand (reads : Reads s rs s') (operand : Complete rs ∨ Stepped rs)
    (slash : gap s'.rest = .complete blank ('/' :: cs)) :
    (s'.Divides (s'.offset + byteLength blank) ↔ ¬ (KeywordMember rs ∨ Stepped rs)) ∧
      (s'.OpensRegExp (s'.offset + byteLength blank) ↔ KeywordMember rs ∨ Stepped rs) := by
  have mistaken : s'.regExpAllowed = true ↔ KeywordMember rs ∨ Stepped rs := by
    constructor
    · intro allowed
      exact operand.imp_left fun complete => complete.keywordMember reads allowed
    · rintro (member | stepped)
      · exact member.allowed reads
      · exact stepped.allowed reads
  rw [← mistaken]
  cases allowed : s'.regExpAllowed with
  | false =>
    have divides := divides_of_disallowed slash allowed
    have noOpening : ¬ s'.OpensRegExp (s'.offset + byteLength blank) := divides.not_opensRegExp
    exact ⟨iff_of_true divides Bool.false_ne_true, iff_of_false noOpening Bool.false_ne_true⟩
  | true =>
    have opens := opensRegExp_of_allowed slash allowed
    have noDivision : ¬ s'.Divides (s'.offset + byteLength blank) :=
      fun divides => divides.not_opensRegExp opens
    exact ⟨iff_of_false noDivision (not_not_intro rfl), iff_of_true opens rfl⟩

/-- A division of a member that goes on like a regular expression. -/
theorem slash_behind_operand_member : ∃ rs s', Reads (ofSource "a.b /c/ d") rs s' ∧
    Complete rs ∧ gap s'.rest = .complete [' '] "/c/ d".toList ∧
      s'.Divides 4 ∧ ¬ s'.OpensRegExp 4 := by
  let a : Token := ⟨.identifier, 0, "a"⟩
  let point : Token := ⟨.punctuator, 1, "."⟩
  let b : Token := ⟨.identifier, 2, "b"⟩
  let behind : Scanner := ⟨" /c/ d".toList, 3, some b⟩
  have gap_a : gap (ofSource "a.b /c/ d").rest = .complete [] "a.b /c/ d".toList := by
    decide +kernel
  have read_a : (ofSource "a.b /c/ d").next = (.ok a, ⟨".b /c/ d".toList, 1, some a⟩) := by
    decide +kernel
  have gap_point : gap ".b /c/ d".toList = .complete [] ".b /c/ d".toList := by decide +kernel
  have read_point : next ⟨".b /c/ d".toList, 1, some a⟩ =
      (.ok point, ⟨"b /c/ d".toList, 2, some point⟩) := by
    decide +kernel
  have gap_b : gap "b /c/ d".toList = .complete [] "b /c/ d".toList := by decide +kernel
  have read_b : next ⟨"b /c/ d".toList, 2, some point⟩ = (.ok b, behind) := by decide +kernel
  have reads : Reads (ofSource "a.b /c/ d") [⟨[], a⟩, ⟨[], point⟩, ⟨[], b⟩] behind :=
    .next (.next (.next .nil gap_a read_a (by decide)) gap_point read_point (by decide)) gap_b
      read_b (by decide)
  have member : Complete [⟨[], a⟩, ⟨[], point⟩, ⟨[], b⟩] := by
    show Complete ([⟨[], a⟩] ++ [⟨[], point⟩, ⟨[], b⟩])
    exact .member (by decide) (by simp [a, Token.isPunctuator]) rfl
  have slash : gap behind.rest = .complete [' '] ('/' :: "c/ d".toList) := by decide +kernel
  have plain : ¬ (KeywordMember [⟨[], a⟩, ⟨[], point⟩, ⟨[], b⟩] ∨
      Stepped [⟨[], a⟩, ⟨[], point⟩, ⟨[], b⟩]) := by
    have disallowed : behind.regExpAllowed = false := by decide
    rintro (keyword | stepped)
    · exact absurd (keyword.allowed reads) (by rw [disallowed]; decide)
    · exact absurd (stepped.allowed reads) (by rw [disallowed]; decide)
  obtain ⟨divides, opens⟩ := slash_behind_operand reads (Or.inl member) slash
  exact ⟨_, behind, reads, member, slash, divides.2 plain, fun opens' => plain (opens.1 opens')⟩

/-- A member that is named like a keyword: the division of it is taken for a regular expression that
is never closed. -/
theorem slash_behind_operand_keyword : ∃ rs s', Reads (ofSource "a.in / b") rs s' ∧
    Complete rs ∧ gap s'.rest = .complete [' '] "/ b".toList ∧
      s'.next = (.error ⟨.unterminatedRegExp, 5⟩, ⟨[], 8, s'.previous⟩) := by
  let a : Token := ⟨.identifier, 0, "a"⟩
  let point : Token := ⟨.punctuator, 1, "."⟩
  let word : Token := ⟨.identifier, 2, "in"⟩
  have gap_a : gap (ofSource "a.in / b").rest = .complete [] "a.in / b".toList := by
    decide +kernel
  have read_a : (ofSource "a.in / b").next = (.ok a, ⟨".in / b".toList, 1, some a⟩) := by
    decide +kernel
  have gap_point : gap ".in / b".toList = .complete [] ".in / b".toList := by decide +kernel
  have read_point : next ⟨".in / b".toList, 1, some a⟩ =
      (.ok point, ⟨"in / b".toList, 2, some point⟩) := by
    decide +kernel
  have gap_word : gap "in / b".toList = .complete [] "in / b".toList := by decide +kernel
  have read_word : next ⟨"in / b".toList, 2, some point⟩ =
      (.ok word, ⟨" / b".toList, 4, some word⟩) := by
    decide +kernel
  have reads : Reads (ofSource "a.in / b") [⟨[], a⟩, ⟨[], point⟩, ⟨[], word⟩]
      ⟨" / b".toList, 4, some word⟩ :=
    .next (.next (.next .nil gap_a read_a (by decide)) gap_point read_point (by decide)) gap_word
      read_word (by decide)
  have member : Complete [⟨[], a⟩, ⟨[], point⟩, ⟨[], word⟩] := by
    show Complete ([⟨[], a⟩] ++ [⟨[], point⟩, ⟨[], word⟩])
    exact .member (by decide) (by simp [a, Token.isPunctuator]) rfl
  exact ⟨_, _, reads, member, by decide +kernel, by decide +kernel⟩

end Esm.Scanner
