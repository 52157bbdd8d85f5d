-- SUMMARY: What the readers of import and export clauses take off the tokens, and its brackets.
import Esm.Proofs.Interface.Brackets
import Esm.Proofs.Interface.Names

/-!
# What readers take

A reader of a clause takes tokens off the front of a list. Of most clauses these have no brackets at
all; those of an import or an export list stand between braces.
-/

namespace Esm.Interface

variable {stop : Nat} {m m' : Interface} {keyword opener t : Token} {ts rest d : List Token}

theorem isDelimiter_of_name {name : String} (h : t.name? = some name) : isDelimiter t = false := by
  unfold Token.name? at h
  split at h
  · rename_i kind
    exact isDelimiter_of_kind kind (by decide)
  · rename_i kind
    exact isDelimiter_of_kind kind (by decide)
  · cases h

theorem isPunctuator_eq {text : String} (h : t.isPunctuator text = true) :
    t.kind = .punctuator ∧ t.text = text := by
  simpa [Token.isPunctuator] using h

-- ---------------------------------------------------------------------------
-- Imports
-- ---------------------------------------------------------------------------

/-- What a reader has taken off a list of tokens is of some shape. -/
def Takes (shape : List Token → Prop) (ts rest : List Token) : Prop :=
  ∃ d, ts = d ++ rest ∧ shape d

theorem Takes.cons {shape shape' : List Token → Prop} (takes : Takes shape ts rest)
    (puts : ∀ {d}, shape d → shape' (t :: d)) : Takes shape' (t :: ts) rest := by
  obtain ⟨d, rfl, taken⟩ := takes
  exact ⟨t :: d, rfl, puts taken⟩

theorem takes_nil {shape : List Token → Prop} (empty : shape []) : Takes shape ts ts :=
  ⟨[], rfl, empty⟩

/-- A reader of single tokens takes one that is no bracket. -/
theorem word_plain {text : String} (read : word stop text ts = .ok (t, rest)) :
    ts = t :: rest ∧ isDelimiter t = false := by
  cases ts with
  | nil => cases read
  | cons u us =>
    simp only [word] at read
    split at read
    · rename_i proper
      cases read
      exact ⟨rfl, isDelimiter_of_isWord proper⟩
    · cases read

theorem tokenOf_plain {kind : TokenKind} (read : tokenOf stop kind ts = .ok (t, rest))
    (other : kind ≠ .punctuator) : ts = t :: rest ∧ isDelimiter t = false := by
  obtain ⟨tail, proper⟩ := tokenOf_ok read
  exact ⟨tail, isDelimiter_of_kind proper other⟩

theorem takes_fromClause {add : String → Interface}
    (call : fromClause stop keyword add ts = .ok (m', rest)) : Takes Plain ts rest := by
  unfold fromClause at call
  split at call
  · rename_i next
    obtain ⟨⟨t, left⟩, read, h⟩ := bind_eq_ok.1 call
    obtain ⟨tail, plain⟩ := tokenOf_plain read (by decide)
    cases h
    obtain ⟨from_, whole, isFrom⟩ := eq_cons_of_nextIs next
    rw [whole, tail]
    exact ⟨[from_, t], rfl, .cons (isDelimiter_of_isWord isFrom) (.cons plain plain_nil)⟩
  · cases call

/-- The tokens of an import behind its keyword: no brackets, but for those of a list. -/
inductive Imported : List Token → Prop where
  | plain {ts : List Token} : Plain ts → Imported ts
  | list {brace brace' : Token} {names after : List Token} : brace.isPunctuator "\x7b" = true →
    (∀ t ∈ names, t.text ≠ "\x7d") → brace'.text = "\x7d" → Plain after →
    Imported (brace :: (names ++ brace' :: after))
  | cons {first : Token} {ts : List Token} : isDelimiter first = false → Imported ts →
    Imported (first :: ts)

theorem takes_skipImportList (call : skipImportList opener ts = .ok rest) :
    ∃ inner closer, ts = inner ++ closer :: rest ∧ (∀ t ∈ inner, t.text ≠ "\x7d") ∧
      closer.text = "\x7d" := by
  induction ts with
  | nil => cases call
  | cons t ts ih =>
    simp only [skipImportList] at call
    split at call
    · rename_i closing
      cases call
      exact ⟨[], t, rfl, List.forall_mem_nil _, closing⟩
    · rename_i inside
      obtain ⟨inner, closer, rfl, others, closing⟩ := ih call
      exact ⟨t :: inner, closer, rfl, List.forall_mem_cons.2 ⟨inside, others⟩, closing⟩

theorem takes_importBindings (call : importBindings stop keyword m ts = .ok (m', rest)) :
    Takes Imported ts rest := by
  cases ts with
  | nil => cases call
  | cons t ts =>
    simp only [importBindings] at call
    split at call
    · -- a namespace
      rename_i star
      obtain ⟨⟨as, left⟩, read, call⟩ := bind_eq_ok.1 call
      obtain ⟨⟨name, left'⟩, read', call⟩ := bind_eq_ok.1 call
      obtain ⟨whole, plain⟩ := word_plain read
      obtain ⟨tail, plain'⟩ := tokenOf_plain read' (by decide)
      have clause : Takes Plain left' rest := takes_fromClause call
      have tail : left = name :: left' := tail
      rw [whole, tail]
      exact ((clause.cons (.cons plain')).cons (.cons plain)).cons fun plain =>
        .plain (.cons (isDelimiter_of_isPunctuator star (by decide)) plain)
    · split at call
      · -- a list
        rename_i brace
        obtain ⟨left, read, call⟩ := bind_eq_ok.1 call
        obtain ⟨after, behind, plain⟩ := takes_fromClause call
        obtain ⟨inner, closer, rfl, inside, closing⟩ := takes_skipImportList read
        subst behind
        exact ⟨t :: (inner ++ closer :: after), by simp, .list brace inside closing plain⟩
      · cases call

theorem takes_importDeclaration (call : importDeclaration stop keyword m ts = .ok (m', rest)) :
    Takes Imported ts rest := by
  cases ts with
  | nil => cases call
  | cons t ts =>
    simp only [importDeclaration] at call
    split at call
    · -- an expression
      cases call
      exact takes_nil (.plain plain_nil)
    · split at call
      · -- a bare specifier
        rename_i kind
        cases call
        exact ⟨[t], rfl, .plain (.cons (isDelimiter_of_kind kind (by decide)) plain_nil)⟩
      · -- a default binding
        rename_i kind
        have plain : isDelimiter t = false := isDelimiter_of_kind kind (by decide)
        split at call
        · cases call
        · split at call
          · rename_i next
            obtain ⟨comma, whole, isComma⟩ := eq_cons_of_nextIs next
            have bindings : Takes Imported ts.tail rest := takes_importBindings call
            rw [whole]
            exact (bindings.cons (.cons (isDelimiter_of_isPunctuator isComma (by decide)))).cons
              (.cons plain)
          · exact (takes_fromClause call).cons fun clause => .plain (.cons plain clause)
      · exact takes_importBindings call

-- ---------------------------------------------------------------------------
-- Exports
-- ---------------------------------------------------------------------------

/-- Only punctuation is spelled like a closing brace. -/
def Spelled (ts : List Token) : Prop := ∀ t ∈ ts, t.text = "\x7d" → t.kind = .punctuator

theorem Spelled.of_append (spelled : Spelled (d ++ rest)) : Spelled rest :=
  fun t mem => spelled t (List.mem_append_right d mem)

theorem takes_exportItem (call : exportItem stop m t ts = .ok (m', rest)) :
    Takes Plain (t :: ts) rest := by
  obtain ⟨name, named, call⟩ := bind_eq_ok.1 call
  have plain : isDelimiter t = false := isDelimiter_of_name (bindingName_ok named)
  split at call
  · rename_i next
    obtain ⟨⟨exported, left⟩, read, call⟩ := bind_eq_ok.1 call
    obtain ⟨alias_, named', call⟩ := bind_eq_ok.1 call
    obtain ⟨m₁, added, call⟩ := bind_eq_ok.1 call
    cases call
    obtain ⟨as, whole, isAs⟩ := eq_cons_of_nextIs next
    rw [whole, anyToken_ok read]
    exact ⟨[t, as, exported], rfl, .cons plain (.cons (isDelimiter_of_isWord isAs)
      (.cons (isDelimiter_of_name (bindingName_ok named')) plain_nil))⟩
  · obtain ⟨m₁, added, call⟩ := bind_eq_ok.1 call
    cases call
    exact ⟨[t], rfl, .cons plain plain_nil⟩

/-- An export list has no brackets before its closing brace. -/
theorem takes_exportList (call : exportList stop m ts = .ok (m', rest)) (spelled : Spelled ts) :
    ∃ inner closer, ts = inner ++ closer :: rest ∧ Plain inner ∧ closer.isPunctuator "\x7d" = true := by
  have closing : ∀ {t : Token} {ts : List Token}, Spelled (t :: ts) → t.text = "\x7d" →
      t.isPunctuator "\x7d" = true := by
    intro t ts spelled text
    simp [Token.isPunctuator, spelled t List.mem_cons_self text, text]
  fun_induction exportList stop m ts with
  | case1 => cases call
  | case2 m t ts text =>
    cases call
    exact ⟨[], t, rfl, plain_nil, closing spelled text⟩
  | case3 => cases call
  | case4 => cases call
  | case5 m t ts _ m₁ ts' item ts'' separator ih =>
    obtain ⟨d, whole, plain⟩ := takes_exportItem item
    rw [whole] at spelled ⊢
    cases ts' with
    | nil => cases separator
    | cons u us =>
      simp only [exportSeparator] at separator
      split at separator
      · rename_i comma
        cases separator
        have plain' : isDelimiter u = false := by
          simp [isDelimiter, comma, closerOf, isCloser]
        obtain ⟨inner, closer, rfl, others, brace⟩ :=
          ih call (Spelled.of_append (d := [u]) spelled.of_append)
        exact ⟨d ++ u :: inner, closer, by simp, plain.append (.cons plain' others), brace⟩
      · split at separator <;> cases separator
  | case6 m t ts _ m₁ ts' item ts'' separator =>
    obtain ⟨d, whole, plain⟩ := takes_exportItem item
    rw [whole] at spelled ⊢
    cases call
    cases ts' with
    | nil => cases separator
    | cons u us =>
      simp only [exportSeparator] at separator
      split at separator
      · cases separator
      · split at separator
        · rename_i text
          cases separator
          exact ⟨d, u, rfl, plain, closing spelled.of_append text⟩
        · cases separator

theorem takes_exportedName (call : exportedName stop m ts = .ok (m', rest)) :
    Takes Plain ts rest := by
  obtain ⟨⟨t, left⟩, read, call⟩ := bind_eq_ok.1 call
  obtain ⟨m₁, added, call⟩ := bind_eq_ok.1 call
  obtain ⟨whole, plain⟩ := tokenOf_plain read (by decide)
  cases call
  exact ⟨[t], whole, .cons plain plain_nil⟩

theorem takes_exportedFunction (call : exportedFunction stop m ts = .ok (m', rest)) :
    Takes Plain ts rest := by
  have named := takes_exportedName call
  split at named
  · rename_i next
    obtain ⟨star, whole, isStar⟩ := eq_cons_of_nextIs next
    rw [whole]
    exact named.cons (.cons (isDelimiter_of_isPunctuator isStar (by decide)))
  · exact named

theorem takes_exportedStar (call : exportedStar stop keyword m ts = .ok (m', rest)) :
    Takes Plain ts rest := by
  unfold exportedStar at call
  split at call
  · rename_i next
    obtain ⟨⟨exported, left⟩, read, call⟩ := bind_eq_ok.1 call
    obtain ⟨name, named, call⟩ := bind_eq_ok.1 call
    obtain ⟨m₁, added, call⟩ := bind_eq_ok.1 call
    obtain ⟨as, whole, isAs⟩ := eq_cons_of_nextIs next
    have clause : Takes Plain left rest := takes_fromClause call
    rw [whole, anyToken_ok read]
    exact (clause.cons (.cons (isDelimiter_of_name (bindingName_ok named)))).cons
      (.cons (isDelimiter_of_isWord isAs))
  · exact takes_fromClause call

end Esm.Interface
