-- SUMMARY: Brackets nest exactly if going through the tokens with a stack ends with none open.
import Esm.Proofs.Interface.Nested

/-!
# Brackets and the stack

Whether brackets nest can be told by going through the tokens once, with the brackets that are open
on a stack. Tokens that close none of the brackets opened before them can be judged by themselves: put
one after the other, they nest exactly if each of them does.
-/

namespace Esm.Interface

-- ---------------------------------------------------------------------------
-- The stack
-- ---------------------------------------------------------------------------

/-- The brackets that are open behind a token, the innermost first. There is no answer if the token
closes anything but the innermost bracket. -/
def pass (opened : List Token) (t : Token) : Option (List Token) :=
  if isDelimiter t then
    if (closerOf t.text).isSome then some (t :: opened)
    else
      match opened with
      | [] => none
      | opener :: opened => if closerOf opener.text = some t.text then some opened else none
  else some opened

/-- The brackets that are open behind tokens. -/
def brackets (opened : List Token) (ts : List Token) : Option (List Token) := ts.foldlM pass opened

variable {opened : List Token} {t opener : Token} {ts us : List Token}

theorem brackets_cons (opened : List Token) (t : Token) (ts : List Token) :
    brackets opened (t :: ts) = (pass opened t).bind (brackets · ts) :=
  List.foldlM_cons

theorem brackets_append (opened ts us : List Token) :
    brackets opened (ts ++ us) = (brackets opened ts).bind (brackets · us) :=
  List.foldlM_append

theorem pass_plain (plain : isDelimiter t = false) (opened : List Token) :
    pass opened t = some opened := by
  unfold pass
  rw [plain]
  rfl

theorem pass_opener (kind : t.kind = .punctuator) (opens : (closerOf t.text).isSome = true)
    (opened : List Token) : pass opened t = some (t :: opened) := by
  unfold pass isDelimiter
  simp only [kind, opens, BEq.rfl, Bool.true_or, Bool.and_self, if_true]

theorem pass_closer (kind : t.kind = .punctuator) (shuts : (closerOf t.text).isSome = false)
    (closer : isCloser t.text = true) (opener : Token) (opened : List Token) :
    pass (opener :: opened) t = if closerOf opener.text = some t.text then some opened else none := by
  unfold pass isDelimiter
  simp only [kind, shuts, closer, BEq.rfl, Bool.or_true, Bool.and_self, if_true,
    Bool.false_eq_true, if_false]

/-- A closing bracket where none is open. -/
theorem pass_closer_nil (kind : t.kind = .punctuator) (shuts : (closerOf t.text).isSome = false)
    (closer : isCloser t.text = true) : pass [] t = none := by
  unfold pass isDelimiter
  simp only [kind, shuts, closer, BEq.rfl, Bool.or_true, Bool.and_self, if_true,
    Bool.false_eq_true, if_false]

/-- A bracket that is closed by its counterpart. -/
theorem pass_closes (kind : t.kind = .punctuator) (closes : closerOf opener.text = some t.text)
    (opened : List Token) : pass (opener :: opened) t = some opened := by
  obtain ⟨shuts, closer⟩ := closerOf_closer closes
  rw [pass_closer kind (by rw [shuts]; rfl) closer, if_pos closes]

/-- Tokens without brackets leave the stack as it is. -/
theorem brackets_plain (plain : ∀ t ∈ ts, isDelimiter t = false) (opened : List Token) :
    brackets opened ts = some opened := by
  induction ts with
  | nil => rfl
  | cons t ts ih =>
    obtain ⟨first, others⟩ := List.forall_mem_cons.1 plain
    rw [brackets_cons, pass_plain first]
    exact ih others

-- ---------------------------------------------------------------------------
-- Nesting
-- ---------------------------------------------------------------------------

theorem brackets_nested (nested : Nested ts) (opened : List Token) :
    brackets opened ts = some opened := by
  induction nested generalizing opened with
  | nil => rfl
  | cons plain _ ih =>
    rw [brackets_cons, pass_plain plain]
    exact ih opened
  | bracket kind kind' closes _ _ ihInner ih =>
    rw [brackets_cons, pass_opener kind (by rw [closes]; rfl), Option.bind_some, brackets_append,
      ihInner, Option.bind_some, brackets_cons, pass_closes kind' closes]
    exact ih opened

/-- Tokens that close the brackets `opened`, from the innermost to the outermost, and nest besides. -/
def Unwinds : List Token → List Token → Prop
  | [], ts => Nested ts
  | opener :: opened, ts => ∃ inner closer rest, ts = inner ++ closer :: rest ∧ Nested inner ∧
      closer.kind = .punctuator ∧ closerOf opener.text = some closer.text ∧ Unwinds opened rest

/-- Tokens that nest can be put before tokens that close brackets. -/
theorem Unwinds.after {inner : List Token} (unwinds : Unwinds opened ts)
    (puts : ∀ {rest}, Nested rest → Nested (inner ++ rest)) : Unwinds opened (inner ++ ts) := by
  cases opened with
  | nil => exact puts unwinds
  | cons opener opened =>
    obtain ⟨within, closer, rest, rfl, nested, kind, closes, others⟩ := unwinds
    exact ⟨inner ++ within, closer, rest, (List.append_assoc _ _ _).symm, puts nested, kind, closes,
      others⟩

theorem unwinds_of_brackets (ends : brackets opened ts = some []) : Unwinds opened ts := by
  induction ts generalizing opened with
  | nil =>
    cases ends
    exact .nil
  | cons t ts ih =>
    rw [brackets_cons] at ends
    by_cases delimiter : isDelimiter t = true
    · have kind : t.kind = .punctuator := by
        simp only [isDelimiter, Bool.and_eq_true, beq_iff_eq] at delimiter
        exact delimiter.1
      cases opens : (closerOf t.text).isSome with
      | true =>
        rw [pass_opener kind opens] at ends
        -- the bracket that `t` opens is closed before those in `opened`
        obtain ⟨inner, closer, rest, rfl, nested, kind', closes, others⟩ := ih ends
        have puts : ∀ {rest}, Nested rest → Nested ((t :: (inner ++ [closer])) ++ rest) := by
          intro rest behind
          rw [List.cons_append, List.append_assoc]
          exact .bracket kind kind' closes nested behind
        have whole : t :: (inner ++ closer :: rest) = (t :: (inner ++ [closer])) ++ rest := by simp
        rw [whole]
        exact others.after puts
      | false =>
        have closer : isCloser t.text = true := by
          simp only [isDelimiter, opens, Bool.false_or, Bool.and_eq_true] at delimiter
          exact delimiter.2
        cases opened with
        | nil =>
          rw [pass_closer_nil kind opens closer] at ends
          cases ends
        | cons opener opened =>
          rw [pass_closer kind opens closer] at ends
          split at ends
          · rename_i closes
            exact ⟨[], t, ts, rfl, .nil, kind, closes, ih ends⟩
          · cases ends
    · have plain : isDelimiter t = false := Bool.eq_false_iff.2 delimiter
      rw [pass_plain plain] at ends
      have puts : ∀ {rest}, Nested rest → Nested ([t] ++ rest) := .cons plain
      exact (ih ends).after puts

/-- Brackets nest exactly if the stack is empty in the end. -/
theorem nested_iff : Nested ts ↔ brackets [] ts = some [] :=
  ⟨fun nested => brackets_nested nested [], unwinds_of_brackets⟩

-- ---------------------------------------------------------------------------
-- Tokens that can be judged by themselves
-- ---------------------------------------------------------------------------

/-- Behind the brackets `opened` the tokens close at most these: whatever was open before stays
open. -/
def Keeps (opened ts : List Token) : Prop :=
  (∀ before, brackets (opened ++ before) ts = none) ∨
    ∃ left, ∀ before, brackets (opened ++ before) ts = some (left ++ before)

/-- Behind the brackets `opened` the tokens can be judged by themselves, and they close these and
nest besides exactly if all of the `parts` nest. -/
structure Judged (opened ts : List Token) (parts : List (List Token)) : Prop where
  keeps : Keeps opened ts
  ends : brackets opened ts = some [] ↔ ∀ part ∈ parts, Nested part

variable {parts parts' : List (List Token)} {opened' : List Token}

theorem Judged.nested (judged : Judged [] ts parts) : Nested ts ↔ ∀ part ∈ parts, Nested part :=
  nested_iff.trans judged.ends

theorem judged_nil : Judged [] [] [] :=
  ⟨Or.inr ⟨[], fun _ => rfl⟩, fun _ => List.forall_mem_nil _, fun _ => rfl⟩

/-- Tokens are judged by one part if they keep what is open and end as the part does. -/
theorem judged_part {part : List Token} (keeps : Keeps [] ts)
    (same : brackets [] ts = brackets [] part) : Judged [] ts [part] := by
  refine ⟨keeps, ?_⟩
  rw [same, ← nested_iff]
  exact List.forall_mem_singleton.symm

/-- A token that turns one stack into another goes before tokens behind the latter. -/
theorem Judged.cons (judged : Judged opened' ts parts)
    (passed : ∀ before, pass (opened ++ before) t = some (opened' ++ before)) :
    Judged opened (t :: ts) parts := by
  have step : ∀ before,
      brackets (opened ++ before) (t :: ts) = brackets (opened' ++ before) ts := by
    intro before
    rw [brackets_cons, passed]
    rfl
  have alone := step []
  rw [List.append_nil, List.append_nil] at alone
  refine ⟨?_, ?_⟩
  · unfold Keeps
    simp only [step]
    exact judged.keeps
  · rw [alone]
    exact judged.ends

theorem keeps_plain (plain : ∀ t ∈ ts, isDelimiter t = false) (opened : List Token) :
    Keeps opened ts :=
  Or.inr ⟨opened, fun _ => brackets_plain plain _⟩

theorem Keeps.append (keeps : Keeps [] ts) (keeps' : Keeps [] us) : Keeps [] (ts ++ us) := by
  unfold Keeps at *
  simp only [List.nil_append, brackets_append] at *
  obtain stuck | ⟨left, first⟩ := keeps
  · exact Or.inl fun before => by rw [stuck]; rfl
  · simp only [first, Option.bind_some]
    obtain stuck | ⟨left', second⟩ := keeps'
    · exact Or.inl fun before => stuck _
    · exact Or.inr ⟨left' ++ left, fun before => by rw [second, List.append_assoc]⟩

/-- What is judged by itself is judged part by part: the brackets that the first tokens leave open
cannot be closed by the others. -/
theorem Judged.append (judged : Judged [] ts parts) (judged' : Judged [] us parts') :
    Judged [] (ts ++ us) (parts ++ parts') := by
  refine ⟨judged.keeps.append judged'.keeps, ?_⟩
  rw [List.forall_mem_append, ← judged.ends, ← judged'.ends, brackets_append]
  constructor
  · intro ends
    obtain stuck | ⟨left, first⟩ := judged.keeps
    · rw [show brackets [] ts = none from stuck []] at ends
      cases ends
    · have first : brackets [] ts = some (left ++ []) := first []
      rw [List.append_nil] at first
      rw [first, Option.bind_some] at ends
      obtain stuck | ⟨left', second⟩ := judged'.keeps
      · rw [show brackets left us = none from stuck left] at ends
        cases ends
      · rw [show brackets left us = some (left' ++ left) from second left] at ends
        obtain ⟨rfl, rfl⟩ := List.append_eq_nil_iff.1 (Option.some.inj ends)
        exact ⟨first, second []⟩
  · rintro ⟨first, second⟩
    rw [first, Option.bind_some, second]

-- ---------------------------------------------------------------------------
-- Tokens without brackets
-- ---------------------------------------------------------------------------

/-- No token is a bracket. -/
def Plain (ts : List Token) : Prop := ∀ t ∈ ts, isDelimiter t = false

theorem plain_nil : Plain [] := List.forall_mem_nil _

theorem Plain.cons (first : isDelimiter t = false) (others : Plain ts) : Plain (t :: ts) :=
  List.forall_mem_cons.2 ⟨first, others⟩

theorem Plain.append {us : List Token} (plain : Plain ts) (plain' : Plain us) : Plain (ts ++ us) :=
  List.forall_mem_append.2 ⟨plain, plain'⟩

theorem Plain.nested (plain : Plain ts) : Nested ts := by
  induction ts with
  | nil => exact .nil
  | cons t ts ih =>
    obtain ⟨first, others⟩ := List.forall_mem_cons.1 plain
    exact .cons first (ih others)

theorem isDelimiter_of_kind {kind : TokenKind} (h : t.kind = kind) (other : kind ≠ .punctuator) :
    isDelimiter t = false := by
  simp [isDelimiter, h, other]

theorem isDelimiter_of_isWord {word : String} (h : t.isWord word = true) :
    isDelimiter t = false :=
  isDelimiter_of_kind (isWord_eq h).1 (by decide)

/-- Punctuation that is no bracket. -/
theorem isDelimiter_of_isPunctuator {text : String} (h : t.isPunctuator text = true)
    (other : ((closerOf text).isSome || isCloser text) = false) : isDelimiter t = false := by
  have same : t.text = text := by
    simp only [Token.isPunctuator, Bool.and_eq_true, beq_iff_eq] at h
    exact h.2
  simp only [isDelimiter, same, other, Bool.and_false]

/-- A token that is no bracket goes before what is judged by itself. -/
theorem Judged.plain_cons {opened : List Token} {parts : List (List Token)}
    (judged : Judged opened ts parts) (plain : isDelimiter t = false) :
    Judged opened (t :: ts) parts :=
  judged.cons fun before => pass_plain plain (opened ++ before)

/-- Tokens that nest are judged by any part that does. -/
theorem judged_nested {part : List Token} (nested : Nested ts) (nested' : Nested part) :
    Judged [] ts [part] :=
  judged_part (Or.inr ⟨[], brackets_nested nested⟩)
    ((brackets_nested nested []).trans (brackets_nested nested' []).symm)

/-- Tokens that have brackets only in one part are judged by it. -/
theorem judged_around {before part after : List Token} (plain : Plain before) (plain' : Plain after)
    (keeps : Keeps [] part) : Judged [] (before ++ (part ++ after)) [part] := by
  have around : ∀ opened, brackets opened (before ++ (part ++ after)) = brackets opened part := by
    intro opened
    rw [brackets_append, brackets_plain plain, Option.bind_some, brackets_append]
    cases brackets opened part with
    | none => rfl
    | some left => exact brackets_plain plain' left
  exact judged_part ((keeps_plain plain []).append (keeps.append (keeps_plain plain' [])))
    (around [])

-- ---------------------------------------------------------------------------
-- Token by token
-- ---------------------------------------------------------------------------

/-- A token that turns one stack into another goes before tokens behind the latter. -/
theorem Keeps.cons {opened opened' : List Token} (keeps : Keeps opened' ts)
    (passed : ∀ before, pass (opened ++ before) t = some (opened' ++ before)) :
    Keeps opened (t :: ts) := by
  unfold Keeps at *
  simp only [brackets_cons, passed, Option.bind_some]
  exact keeps

theorem keeps_plain_cons {opened : List Token} (plain : isDelimiter t = false)
    (keeps : Keeps opened ts) : Keeps opened (t :: ts) :=
  keeps.cons fun before => pass_plain plain (opened ++ before)

theorem keeps_opener_cons {opened : List Token} (kind : t.kind = .punctuator)
    (opens : (closerOf t.text).isSome = true) (keeps : Keeps (t :: opened) ts) :
    Keeps opened (t :: ts) :=
  keeps.cons fun before => pass_opener kind opens (opened ++ before)

/-- A closing bracket closes the innermost one, or there is no going on. -/
theorem keeps_closer_cons {opened : List Token} (kind : t.kind = .punctuator)
    (shuts : (closerOf t.text).isSome = false) (closes : isCloser t.text = true) (opener : Token)
    (keeps : closerOf opener.text = some t.text → Keeps opened ts) :
    Keeps (opener :: opened) (t :: ts) := by
  have passed : ∀ before, pass (opener :: opened ++ before) t =
      if closerOf opener.text = some t.text then some (opened ++ before) else none :=
    fun before => pass_closer kind shuts closes opener (opened ++ before)
  by_cases same : closerOf opener.text = some t.text
  · exact (keeps same).cons fun before => by rw [passed, if_pos same]
  · refine Or.inl fun before => ?_
    rw [brackets_cons, passed, if_neg same]
    rfl

end Esm.Interface
