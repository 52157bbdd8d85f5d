-- SUMMARY: Compiling by index and byte offset comes to a module or a syntax error for every source.
import Esm.Proofs.Encoding.Capacity
import Esm.Proofs.Offsets.Reading
import Esm.Proofs.Offsets.Scanner

/-!
# Compiling by index and offset

Compiling a source can be put together from the scanner and the readers that know spans and offsets
only. Every look at the source, at the tokens or at the one before, every cut and every count that goes
down is in range, for any source, also for one that breaks off in the middle of a declaration, and calls
nest no deeper than in proportion to the source: what comes of it is what compiling the text comes to.
Main statement: `compile_eq_some`.
-/

namespace Esm.Offsets

open Text Attempt

-- ---------------------------------------------------------------------------
-- Modules
-- ---------------------------------------------------------------------------

theorem bracket_ne_dot {t : Token}
    (bracket : (Interface.closerOf t.text).isSome = true ∨ Interface.isCloser t.text = true) :
    t.text ≠ "." := by
  intro dot
  rw [dot] at bracket
  exact absurd bracket (by decide)

namespace Cut

variable {source : String} {all ts opened : List Token} {t : Token} {fuel pos : Nat}
  {m : Interface} (cut : Cut source.toList all)

include cut

/-- Punctuation opens a bracket, closes one, or is passed over. -/
theorem statements_punctuator (here : all.drop pos = t :: ts) (kind : t.kind = .punctuator) :
    statements source.toList (all.map spanOf) (fuel + 1) m (opened.map spanOf) pos =
      if (Interface.closerOf t.text).isSome then
        statements source.toList (all.map spanOf) fuel m ((t :: opened).map spanOf) (pos + 1)
      else if Interface.isCloser t.text then do
        let opened ← closed source.toList t (opened.map spanOf)
        statements source.toList (all.map spanOf) fuel m opened (pos + 1)
      else statements source.toList (all.map spanOf) fuel m (opened.map spanOf) (pos + 1) := by
  rw [statements, cut.peek_eq here]
  simp only [pure_bind, List.head?_cons, kind, if_true, List.map_cons]

/-- Outside brackets, where no dot comes before it, the word `import` starts a declaration. -/
theorem statements_import (here : all.drop pos = t :: ts) (word : t.isWord "import" = true)
    (free : afterDot source.toList (all.map spanOf) pos = pure false) :
    statements source.toList (all.map spanOf) (fuel + 1) m [] pos = (do
      let (m, pos) ← importDeclaration source.toList (all.map spanOf) fuel m pos
      statements source.toList (all.map spanOf) fuel m [] pos) := by
  obtain ⟨kind, text⟩ := Interface.isWord_eq word
  rw [statements, cut.peek_eq here]
  simp only [pure_bind, List.head?_cons, kind, text, free, reduceCtorEq, if_false, decide_true,
    List.isEmpty_nil, Bool.and_true, Bool.not_false, if_true]

/-- So does the word `export`. -/
theorem statements_export (here : all.drop pos = t :: ts) (word : t.isWord "export" = true)
    (free : afterDot source.toList (all.map spanOf) pos = pure false) :
    statements source.toList (all.map spanOf) (fuel + 1) m [] pos = (do
      let (m, pos) ← exportDeclaration source.toList (all.map spanOf) fuel m pos
      statements source.toList (all.map spanOf) fuel m [] pos) := by
  obtain ⟨kind, text⟩ := Interface.isWord_eq word
  have other : ¬ ("export" : String) = "import" := by decide
  rw [statements, cut.peek_eq here]
  simp only [pure_bind, List.head?_cons, kind, text, free, other, reduceCtorEq, if_false, decide_true,
    decide_false, List.isEmpty_nil, Bool.and_true, Bool.and_false, Bool.not_false, if_true,
    Bool.false_eq_true]

/-- What is no punctuation and starts no declaration is passed over. -/
theorem statements_pass (here : all.drop pos = t :: ts) {dotted : Bool}
    (behind : afterDot source.toList (all.map spanOf) pos = pure dotted)
    (other : t.kind ≠ .punctuator)
    (noImport : ¬ (t.isWord "import" && opened.isEmpty && !dotted) = true)
    (noExport : ¬ (t.isWord "export" && opened.isEmpty && !dotted) = true) :
    statements source.toList (all.map spanOf) (fuel + 1) m (opened.map spanOf) pos =
      statements source.toList (all.map spanOf) fuel m (opened.map spanOf) (pos + 1) := by
  rw [statements, cut.peek_eq here]
  simp only [pure_bind, List.head?_cons, other, if_false, behind, List.isEmpty_map]
  split
  · rename_i proper
    simp only [Bool.and_eq_true, decide_eq_true_eq] at proper
    have unstarted : ∀ word : String, ¬ (t.isWord word && opened.isEmpty && !dotted) = true →
        ¬ (!dotted && decide (t.text = word)) = true := by
      intro word no starts
      simp only [Bool.and_eq_true, decide_eq_true_eq] at starts
      exact no (by simp [Token.isWord, proper.1, proper.2, starts.1, starts.2])
    rw [if_neg (unstarted _ noImport), if_neg (unstarted _ noExport)]
  · rfl

/-- No bracket is open where the tokens end, or the innermost is never closed. -/
theorem settles_ended {dotted : Bool} (inside : ∀ t ∈ opened, t ∈ all) :
    Settles source .declaration Eq (ended source.toList m (opened.map spanOf))
      (Interface.statements (byteLength source.toList) m opened dotted []) := by
  rw [Interface.statements.eq_def]
  cases opened with
  | nil => exact .pure rfl
  | cons opener opened =>
    have lies := cut.lies opener (inside opener List.mem_cons_self)
    exact .look lies.token? (.refuse lies.boundary _)

/-- Read by index, the declarations of a module are those of the tokens that are left. -/
theorem settles_statements {dotted : Bool} (here : all.drop pos = ts)
    (inside : ∀ t ∈ opened, t ∈ all)
    (behind : afterDot source.toList (all.map spanOf) pos = pure dotted)
    (enough : ts.length < fuel) :
    Settles source .declaration Eq
      (statements source.toList (all.map spanOf) fuel m (opened.map spanOf) pos)
      (Interface.statements (byteLength source.toList) m opened dotted ts) := by
  have nowhere : ∀ t ∈ ([] : List Token), t ∈ all := List.forall_mem_nil _
  -- on the fuel: behind a declaration there is less to read by more than one token
  induction fuel generalizing m opened dotted ts pos with
  | zero => exact absurd enough (Nat.not_lt_zero _)
  | succ fuel ih =>
  cases ts with
  | nil =>
    rw [statements, cut.peek_eq here]
    exact cut.settles_ended inside
  | cons t ts =>
    obtain ⟨rest, before⟩ := rest_cons here
    have fewer : ts.length < fuel := Nat.lt_of_succ_lt_succ enough
    by_cases kind : t.kind = .punctuator
    · rw [cut.statements_punctuator here kind, Interface.statements.eq_def]
      simp only [kind, if_true]
      split
      · -- an opening bracket
        rename_i opens
        exact ih rest (List.forall_mem_cons.2 ⟨before.mem, inside⟩)
          (cut.afterDot_false before (bracket_ne_dot (Or.inl opens))) fewer
      split
      · -- a closing bracket
        rename_i closes
        cases opened with
        | nil => exact .refuse_bind (cut.boundary before) _ _
        | cons opener opened =>
          obtain ⟨mem, inside⟩ := List.forall_mem_cons.1 inside
          rw [List.map_cons, closed, bind_assoc]
          refine .look (cut.lies opener mem).token? ?_
          dsimp only
          split
          · exact ih rest inside (cut.afterDot_false before (bracket_ne_dot (Or.inr closes))) fewer
          · exact .refuse_bind (cut.boundary before) _ _
      · exact ih rest inside (cut.afterDot_eq before) fewer
    by_cases imports : (t.isWord "import" && opened.isEmpty && !dotted) = true
    · obtain ⟨word, rfl, rfl⟩ := Interface.starts_eq imports
      rw [List.map_nil, cut.statements_import here word behind, Interface.statements_import _ _ _ word]
      apply Settles.bind_ok (cut.settles_importDeclaration (Interface.isWord_eq word).1 here fewer)
      rintro ⟨_, pos⟩ ⟨_, ts'⟩ call ⟨⟨rfl, rest⟩, last, before, plain⟩
      exact ih rest nowhere (cut.afterDot_false before plain)
        (Nat.lt_of_le_of_lt (Interface.importDeclaration_length call) fewer)
    by_cases exports : (t.isWord "export" && opened.isEmpty && !dotted) = true
    · obtain ⟨word, rfl, rfl⟩ := Interface.starts_eq exports
      rw [List.map_nil, cut.statements_export here word behind, Interface.statements_export _ _ _ word]
      apply Settles.bind_ok (cut.settles_exportDeclaration here fewer)
      rintro ⟨_, pos⟩ ⟨_, ts'⟩ call ⟨⟨rfl, rest⟩, last, before, plain⟩
      exact ih rest nowhere (cut.afterDot_false before plain)
        (Nat.lt_of_le_of_lt (Interface.exportDeclaration_length call) fewer)
    · rw [cut.statements_pass here behind kind imports exports, Interface.statements.eq_def]
      simp only [kind, imports, exports, if_false, Bool.false_eq_true]
      exact ih rest inside (cut.afterDot_eq before) fewer

end Cut

-- ---------------------------------------------------------------------------
-- Compiling
-- ---------------------------------------------------------------------------

/-- Compile a source under a name, by index and offset. Nothing comes of it if any look at the source
or at the tokens, or any count, goes out of range, or if it takes more calls than there is fuel for:
calls may nest three deep for each character, and the declarations are read in one step for each
token. -/
def compile (source name : String) : Option (Except SyntaxError Module) := ExceptT.run do
  let spans ← tokens source.toList (3 * source.toList.length + 2) (cursorOf (Scanner.ofSource source))
  let interface ← statements source.toList spans (spans.length + 1) .empty [] 0
  let tokens ← look (spans.mapM (token? source.toList))
  pure ⟨name, interface, Code.ofTokens tokens⟩

theorem mapM_token? {source : List Char} {ts : List Token} (lie : ∀ t ∈ ts, Lies source t) :
    (ts.map spanOf).mapM (token? source) = some ts := by
  induction ts with
  | nil => rfl
  | cons t ts ih =>
    obtain ⟨lies, lie⟩ := List.forall_mem_cons.1 lie
    rw [List.map_cons, List.mapM_cons, lies.token?, ih lie]
    rfl

variable {source : String}

/-- The spans of the tokens of a source are found by offset. -/
theorem settles_tokenize (source : String) :
    Settles source .lexical (fun spans ts => spans = ts.map spanOf ∧ ∀ t ∈ ts, Lies source.toList t)
      (tokens source.toList (3 * source.toList.length + 2) (cursorOf (Scanner.ofSource source)))
      (tokenize source) := by
  obtain ⟨line, whole, -⟩ := Scanner.hashbang_ofSource source
  have left : (Scanner.ofSource source).rest.length ≤ source.toList.length :=
    Lexeme.length_le_of_append_eq whole
  exact settles_tokens (within_ofSource source) (by omega)

/-- The interface is read off these spans by index. -/
theorem settles_ofTokens {ts : List Token} (call : tokenize source = .ok ts)
    (lie : ∀ t ∈ ts, Lies source.toList t) :
    Settles source .declaration Eq
      (statements source.toList (ts.map spanOf) ((ts.map spanOf).length + 1) .empty [] 0)
      (Interface.ofTokens source.utf8ByteSize ts) := by
  have cut : Cut source.toList ts := ⟨lie, (Scanner.tokens_tile call).shape⟩
  have enough : ts.length < (ts.map spanOf).length + 1 := by simp
  have settles : Settles source .declaration Eq
      (statements source.toList (ts.map spanOf) _ .empty (([] : List Token).map spanOf) 0)
      (Interface.statements (byteLength source.toList) .empty [] false ts) :=
    cut.settles_statements rfl (List.forall_mem_nil _) rfl enough
  rw [byteLength_toList] at settles
  exact settles

/-- For every source whatsoever compiling it by index and offset ends, and comes to what compiling it
comes to: a module or a syntax error. -/
theorem compile_eq_some (source name : String) :
    Offsets.compile source name = some (Module.compile source name) := by
  have scanned := settles_tokenize source
  unfold Offsets.compile
  cases call : tokenize source with
  | error failure =>
    rw [call] at scanned
    obtain ⟨refused, -⟩ := scanned.error
    rw [refused, Module.compile_eq_lexical call]
    rfl
  | ok ts =>
    rw [call] at scanned
    obtain ⟨_, yielded, rfl, lie⟩ := scanned.ok
    have declared := settles_ofTokens call lie
    rw [yielded]
    cases call' : Interface.ofTokens source.utf8ByteSize ts with
    | error failure =>
      rw [call'] at declared
      obtain ⟨refused, -⟩ := declared.error
      simp only [pure_bind, refused]
      rw [Module.compile_eq_declaration call call']
      rfl
    | ok interface =>
      rw [call'] at declared
      obtain ⟨_, read, rfl⟩ := declared.ok
      simp only [pure_bind, read, mapM_token? lie]
      rw [Module.compile_eq_ok.2 ⟨ts, _, call, call', rfl⟩]
      rfl

/-- A source is refused at a boundary. -/
theorem refused_at_boundary {name : String} {e : SyntaxError}
    (refused : Module.compile source name = .error e) :
    ∃ offset, IsBoundary source.toList offset ∧ Position.ofOffset source offset = e.position := by
  have scanned := settles_tokenize source
  cases call : tokenize source with
  | error failure =>
    rw [call] at scanned
    rw [Module.compile_eq_lexical call] at refused
    cases refused
    exact ⟨failure.offset, scanned.error.2, rfl⟩
  | ok ts =>
    rw [call] at scanned
    obtain ⟨_, -, rfl, lie⟩ := scanned.ok
    have declared := settles_ofTokens call lie
    cases call' : Interface.ofTokens source.utf8ByteSize ts with
    | error failure =>
      rw [call'] at declared
      rw [Module.compile_eq_declaration call call'] at refused
      cases refused
      exact ⟨failure.offset, declared.error.2, rfl⟩
    | ok interface =>
      rw [Module.compile_eq_ok.2 ⟨ts, interface, call, call', rfl⟩] at refused
      cases refused

end Esm.Offsets
