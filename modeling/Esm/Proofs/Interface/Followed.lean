-- SUMMARY: What tokens say of an interface does not depend on their places, nor on what precedes and follows.
import Esm.Proofs.Interface.Names
import Esm.Proofs.Token.Followed

/-!
# Tokens that follow one another

Tokens that can be read to their end say the same when others follow them behind a semicolon: where
a reader looks ahead past the end of a declaration, a semicolon there is like the end of the input.
They also say the same when others precede them: what they say is added to the interface there is,
except that no name is exported twice. Where the tokens stand matters to the places of faults only.
-/

namespace Esm

namespace Token.Alike

variable {t t' : Token}

theorem isWord (alike : t.Alike t') (word : String) : t'.isWord word = t.isWord word := by
  simp only [Token.isWord, alike.kind, alike.text]

theorem isPunctuator (alike : t.Alike t') (text : String) :
    t'.isPunctuator text = t.isPunctuator text := by
  simp only [Token.isPunctuator, alike.kind, alike.text]

theorem stringValue (alike : t.Alike t') : t'.stringValue = t.stringValue := by
  simp only [Token.stringValue, alike.text]

end Token.Alike

namespace Interface

-- ---------------------------------------------------------------------------
-- Joined interfaces
-- ---------------------------------------------------------------------------

/-- What two modules request, export and pass on, one after the other. What is requested twice is
requested once. -/
def join (a m : Interface) : Interface :=
  ⟨a.requests ++ m.requests.filter (· ∉ a.requests), a.exports ++ m.exports,
    a.starExports ++ m.starExports⟩

theorem join_empty (a : Interface) : a.join empty = a := by
  simp [join, empty]

theorem empty_join (m : Interface) : empty.join m = m := by
  simp [join, empty]

theorem join_assoc (a b c : Interface) : (a.join b).join c = a.join (b.join c) := by
  have later : c.requests.filter (· ∉ a.requests ++ b.requests.filter (· ∉ a.requests)) =
      (c.requests.filter (· ∉ b.requests)).filter (· ∉ a.requests) := by
    rw [List.filter_filter]
    apply List.filter_congr
    intro name _
    by_cases before : name ∈ a.requests <;> simp [before]
  unfold join
  dsimp only
  rw [List.filter_append, later, List.append_assoc, List.append_assoc, List.append_assoc]

theorem addRequest_eq_join (m : Interface) (specifier : String) :
    m.addRequest specifier = m.join ⟨[specifier], [], []⟩ := by
  by_cases requested : specifier ∈ m.requests <;> simp [addRequest, join, requested]

theorem addStar_eq_join (m : Interface) (specifier : String) :
    m.addStar specifier = m.join ⟨[specifier], [], [specifier]⟩ := by
  unfold addStar
  rw [addRequest_eq_join]
  simp [join]

theorem join_addRequest (a m : Interface) (specifier : String) :
    (a.join m).addRequest specifier = a.join (m.addRequest specifier) := by
  rw [addRequest_eq_join, addRequest_eq_join, join_assoc]

theorem join_addStar (a m : Interface) (specifier : String) :
    (a.join m).addStar specifier = a.join (m.addStar specifier) := by
  rw [addStar_eq_join, addStar_eq_join, join_assoc]

/-- A name that one module exports behind another, is exported by both, unless the first one exports
it already. -/
theorem join_addExport {a m m' : Interface} {t t' : Token} {name : String}
    (added : m.addExport t name = .ok m') :
    (a.join m).addExport t' name =
      if name ∈ a.exports then .error ⟨.duplicateExport name, t'.start⟩ else .ok (a.join m') := by
  unfold addExport at added ⊢
  split at added
  · cases added
  · rename_i fresh
    cases added
    by_cases before : name ∈ a.exports
    · simp [join, before]
    · simp [join, before, fresh]

-- ---------------------------------------------------------------------------
-- Single tokens
-- ---------------------------------------------------------------------------

/-- Nothing, or tokens that start with a semicolon. -/
def StartsBehind (us : List Token) : Prop := ∀ u ∈ us.head?, u.isPunctuator ";" = true

/-- Tokens that differ in their places at most. -/
abbrev AllAlike (ts ts' : List Token) : Prop := List.Forall₂ Token.Alike ts ts'

variable {stop stop' : Nat} {ts ts' rest us : List Token}

/-- A test that a semicolon fails says the same of the next token. -/
theorem nextIs_followed {test : Token → Bool} (same : ∀ {t t'}, t.Alike t' → test t' = test t)
    (fails : test ⟨.punctuator, 0, ";"⟩ = false) (alike : AllAlike ts ts')
    (behind : StartsBehind us) : nextIs test (ts' ++ us) = nextIs test ts := by
  cases alike with
  | cons first _ => exact same first
  | nil =>
    cases us with
    | nil => rfl
    | cons u us =>
      have semicolon : u.kind = .punctuator ∧ u.text = ";" := by
        simpa [Token.isPunctuator] using behind u rfl
      have first : Token.Alike ⟨.punctuator, 0, ";"⟩ u := ⟨semicolon.1, semicolon.2⟩
      exact (same first).trans fails

theorem nextIs_isWord (word : String) (alike : AllAlike ts ts') (behind : StartsBehind us) :
    nextIs (Token.isWord · word) (ts' ++ us) = nextIs (Token.isWord · word) ts :=
  nextIs_followed (fun first => first.isWord word) rfl alike behind

theorem nextIs_isPunctuator {text : String} (other : (";" == text) = false)
    (alike : AllAlike ts ts') (behind : StartsBehind us) :
    nextIs (Token.isPunctuator · text) (ts' ++ us) = nextIs (Token.isPunctuator · text) ts :=
  nextIs_followed (fun first => first.isPunctuator text) other alike behind

theorem AllAlike.tail (alike : AllAlike ts ts') : AllAlike ts.tail ts'.tail := by
  cases alike with
  | nil => exact .nil
  | cons _ others => exact others

/-- Behind a token that is there, the tail goes on. -/
theorem AllAlike.tail_append (alike : AllAlike ts ts') {test : Token → Bool}
    (next : nextIs test ts = true) : (ts' ++ us).tail = ts'.tail ++ us := by
  cases alike with
  | nil => cases next
  | cons _ _ => rfl

theorem anyToken_followed {t : Token} (alike : AllAlike ts ts')
    (read : anyToken stop ts = .ok (t, rest)) : ∃ t' rest',
      anyToken stop' (ts' ++ us) = .ok (t', rest' ++ us) ∧ t.Alike t' ∧ AllAlike rest rest' := by
  cases alike with
  | nil => cases read
  | cons first others =>
    cases read
    exact ⟨_, _, rfl, first, others⟩

theorem tokenOf_followed {kind : TokenKind} {t : Token} (alike : AllAlike ts ts')
    (read : tokenOf stop kind ts = .ok (t, rest)) : ∃ t' rest',
      tokenOf stop' kind (ts' ++ us) = .ok (t', rest' ++ us) ∧ t.Alike t' ∧
        AllAlike rest rest' := by
  cases alike with
  | nil => cases read
  | @cons u u' _ _ first others =>
    simp only [tokenOf] at read
    split at read
    · rename_i proper
      cases read
      refine ⟨u', _, ?_, first, others⟩
      simp only [List.cons_append, tokenOf, first.kind, proper, if_true]
    · cases read

theorem word_followed {text : String} {t : Token} (alike : AllAlike ts ts')
    (read : word stop text ts = .ok (t, rest)) : ∃ t' rest',
      word stop' text (ts' ++ us) = .ok (t', rest' ++ us) ∧ t.Alike t' ∧ AllAlike rest rest' := by
  cases alike with
  | nil => cases read
  | @cons u u' _ _ first others =>
    simp only [word] at read
    split at read
    · rename_i proper
      cases read
      refine ⟨u', _, ?_, first, others⟩
      simp only [List.cons_append, word, first.isWord, proper, if_true]
    · cases read

theorem bindingName_followed {t t' : Token} {name : String} (alike : t.Alike t')
    (read : bindingName t = .ok name) : bindingName t' = .ok name := by
  unfold bindingName at read ⊢
  rw [alike.kind, alike.text, alike.stringValue]
  cases h : t.kind <;> simp only [h] at read ⊢ <;> cases read <;> rfl

theorem skipImportList_followed {opener opener' : Token} (alike : AllAlike ts ts')
    (read : skipImportList opener ts = .ok rest) :
    ∃ rest', skipImportList opener' (ts' ++ us) = .ok (rest' ++ us) ∧ AllAlike rest rest' := by
  induction alike with
  | nil => cases read
  | cons first others ih =>
    simp only [List.cons_append, skipImportList, first.text] at read ⊢
    split at read
    · rename_i closing
      cases read
      exact ⟨_, if_pos closing, others⟩
    · rename_i inside
      rw [if_neg inside]
      exact ih read

theorem exportSeparator_followed {more : Bool} (alike : AllAlike ts ts')
    (read : exportSeparator stop ts = .ok (more, rest)) : ∃ rest',
      exportSeparator stop' (ts' ++ us) = .ok (more, rest' ++ us) ∧ AllAlike rest rest' := by
  cases alike with
  | nil => cases read
  | cons first others =>
    simp only [List.cons_append, exportSeparator, first.text] at read ⊢
    split at read
    · rename_i comma
      cases read
      exact ⟨_, if_pos comma, others⟩
    · rename_i noComma
      rw [if_neg noComma]
      split at read
      · rename_i closing
        cases read
        exact ⟨_, if_pos closing, others⟩
      · cases read

-- ---------------------------------------------------------------------------
-- Readers
-- ---------------------------------------------------------------------------

/-- What a reader that leads to the interface `m` makes of alike tokens with `us` behind them, from
an interface that has `a` before: the same, behind `a`, unless a name would be exported twice. -/
inductive Follows (a : Interface) (us : List Token) (m : Interface) (rest : List Token) :
    Except Failure (Interface × List Token) → Prop where
  | read {rest' : List Token} : AllAlike rest rest' →
    Follows a us m rest (.ok (a.join m, rest' ++ us))
  | clash {name : String} {offset : Nat} : name ∈ a.exports → name ∈ m.exports →
    Follows a us m rest (.error ⟨.duplicateExport name, offset⟩)

variable {a m m₁ m' : Interface}

/-- What a reader goes on with does not take exports back. -/
theorem Follows.bind {rest₁ : List Token} {result : Except Failure (Interface × List Token)}
    {next : Interface × List Token → Except Failure (Interface × List Token)}
    (first : Follows a us m₁ rest₁ result) (grows : m₁.exports ⊆ m'.exports)
    (second : ∀ {rest'}, AllAlike rest₁ rest' →
      Follows a us m' rest (next (a.join m₁, rest' ++ us))) :
    Follows a us m' rest (result >>= next) := by
  cases first with
  | read alike => exact second alike
  | clash before behind => exact .clash before (grows behind)

theorem follows_addExport {t t' : Token} {name : String}
    {next : Interface → Except Failure (Interface × List Token)}
    (added : m.addExport t name = .ok m₁) (grows : m₁.exports ⊆ m'.exports)
    (second : Follows a us m' rest (next (a.join m₁))) :
    Follows a us m' rest ((a.join m).addExport t' name >>= next) := by
  rw [join_addExport added]
  split
  · rename_i before
    exact .clash before (grows (mem_exports_addExport added))
  · exact second

/-- A choice that does not depend on places is made alike. -/
theorem follows_ite {p : Prop} [Decidable p]
    {x y x' y' : Except Failure (Interface × List Token)}
    (call : (if p then x else y) = .ok (m', rest))
    (yes : p → x = .ok (m', rest) → Follows a us m' rest x')
    (no : ¬ p → y = .ok (m', rest) → Follows a us m' rest y') :
    Follows a us m' rest (if p then x' else y') := by
  by_cases h : p
  · rw [if_pos h] at call ⊢
    exact yes h call
  · rw [if_neg h] at call ⊢
    exact no h call

theorem fromClause_followed {keyword keyword' : Token} {add : Interface → String → Interface}
    (joins : ∀ specifier, add (a.join m) specifier = a.join (add m specifier))
    (alike : AllAlike ts ts') (behind : StartsBehind us)
    (call : fromClause stop keyword (add m) ts = .ok (m', rest)) :
    Follows a us m' rest (fromClause stop' keyword' (add (a.join m)) (ts' ++ us)) := by
  unfold fromClause at call ⊢
  rw [nextIs_isWord "from" alike behind]
  refine follows_ite call (fun next call => ?_) (fun _ call => by cases call)
  obtain ⟨⟨t, left⟩, read, h⟩ := bind_eq_ok.1 call
  cases h
  obtain ⟨t', rest', read', first, others⟩ := tokenOf_followed alike.tail read
  rw [alike.tail_append next, read']
  dsimp only [bind, Except.bind]
  rw [joins, first.stringValue]
  exact .read others

theorem importBindings_followed {keyword keyword' : Token} (alike : AllAlike ts ts')
    (behind : StartsBehind us) (call : importBindings stop keyword m ts = .ok (m', rest)) :
    Follows a us m' rest (importBindings stop' keyword' (a.join m) (ts' ++ us)) := by
  cases alike with
  | nil => cases call
  | cons first others =>
    simp only [List.cons_append, importBindings, first.isPunctuator] at call ⊢
    refine follows_ite call (fun _ call => ?_) (fun _ call => ?_)
    · -- a namespace
      obtain ⟨⟨as, left⟩, read, call⟩ := bind_eq_ok.1 call
      obtain ⟨⟨name, left'⟩, read', call⟩ := bind_eq_ok.1 call
      obtain ⟨_, _, followed, -, others⟩ := word_followed others read
      obtain ⟨_, _, followed', -, others⟩ := tokenOf_followed others read'
      rw [followed]
      dsimp only [bind, Except.bind]
      rw [followed']
      exact fromClause_followed (join_addRequest a m) others behind call
    · -- a list
      refine follows_ite call (fun _ call => ?_) (fun _ call => by cases call)
      obtain ⟨left, read, call⟩ := bind_eq_ok.1 call
      obtain ⟨_, followed, others⟩ := skipImportList_followed others read
      rw [followed]
      exact fromClause_followed (join_addRequest a m) others behind call

theorem importDeclaration_followed {keyword keyword' : Token} (alike : AllAlike ts ts')
    (behind : StartsBehind us) (call : importDeclaration stop keyword m ts = .ok (m', rest)) :
    Follows a us m' rest (importDeclaration stop' keyword' (a.join m) (ts' ++ us)) := by
  cases alike with
  | nil => cases call
  | @cons t t' ts ts' first others =>
    have whole : AllAlike (t :: ts) (t' :: ts') := .cons first others
    have isString : nextIs (fun next => next.kind == .string) (ts' ++ us) =
        nextIs (fun next => next.kind == .string) ts :=
      nextIs_followed (fun same => by rw [same.kind]) rfl others behind
    have isComma : nextIs (Token.isPunctuator · ",") (ts' ++ us) =
        nextIs (Token.isPunctuator · ",") ts :=
      nextIs_isPunctuator (by decide) others behind
    simp only [List.cons_append, importDeclaration, first.isPunctuator, first.kind, first.text,
      first.stringValue, isString, isComma] at call ⊢
    refine follows_ite call (fun _ call => ?_) (fun _ call => ?_)
    · -- an expression
      cases call
      exact .read whole
    · split at call
      · -- a bare specifier
        cases call
        rw [join_addRequest]
        exact .read others
      · -- a default binding
        refine follows_ite call (fun _ call => by cases call) (fun _ call => ?_)
        refine follows_ite call (fun comma call => ?_) (fun _ call => ?_)
        · rw [AllAlike.tail_append others comma]
          exact importBindings_followed (AllAlike.tail others) behind call
        · exact fromClause_followed (join_addRequest a m) others behind call
      · exact importBindings_followed whole behind call

theorem exportItem_followed {t t' : Token} (first : t.Alike t') (alike : AllAlike ts ts')
    (behind : StartsBehind us) (call : exportItem stop m t ts = .ok (m', rest)) :
    Follows a us m' rest (exportItem stop' (a.join m) t' (ts' ++ us)) := by
  unfold exportItem at call ⊢
  obtain ⟨name, named, call⟩ := bind_eq_ok.1 call
  rw [bindingName_followed first named, nextIs_isWord "as" alike behind]
  dsimp only [bind, Except.bind] at call ⊢
  refine follows_ite call (fun next call => ?_) (fun _ call => ?_)
  · obtain ⟨⟨exported, left⟩, read, call⟩ := bind_eq_ok.1 call
    obtain ⟨alias_, named', call⟩ := bind_eq_ok.1 call
    obtain ⟨m₁, added, call⟩ := bind_eq_ok.1 call
    cases call
    obtain ⟨_, _, followed, same, others⟩ := anyToken_followed alike.tail read
    rw [alike.tail_append next, followed]
    dsimp only
    rw [bindingName_followed same named']
    exact follows_addExport added (fun _ mem => mem) (.read others)
  · obtain ⟨m₁, added, call⟩ := bind_eq_ok.1 call
    cases call
    exact follows_addExport added (fun _ mem => mem) (.read alike)

theorem exportList_followed (alike : AllAlike ts ts') (behind : StartsBehind us)
    (call : exportList stop m ts = .ok (m', rest)) :
    Follows a us m' rest (exportList stop' (a.join m) (ts' ++ us)) := by
  fun_induction exportList stop m ts generalizing ts' with
  | case1 => cases call
  | case2 m t ts closing =>
    cases call
    cases alike with
    | cons first others =>
      rw [List.cons_append, exportList_cons, if_pos (first.text ▸ closing)]
      exact .read others
  | case3 => cases call
  | case4 => cases call
  | case5 m t ts open_ m₁ left item left' separator ih =>
    cases alike with
    | cons first others =>
      have grows := (reads_exportList call).exports_subset
      rw [List.cons_append, exportList_cons, if_neg (first.text ▸ open_)]
      refine (exportItem_followed first others behind item).bind grows fun others => ?_
      obtain ⟨_, followed, others⟩ := exportSeparator_followed others separator
      dsimp only
      rw [followed]
      exact ih others call
  | case6 m t ts open_ m₁ left item left' separator =>
    cases call
    cases alike with
    | cons first others =>
      rw [List.cons_append, exportList_cons, if_neg (first.text ▸ open_)]
      refine (exportItem_followed first others behind item).bind (fun _ mem => mem) fun others => ?_
      obtain ⟨_, followed, others⟩ := exportSeparator_followed others separator
      dsimp only
      rw [followed]
      exact .read others

theorem bindingPattern_followed {depth : Nat} {inDefault : Bool} (alike : AllAlike ts ts')
    (behind : StartsBehind us) (call : bindingPattern stop m depth inDefault ts = .ok (m', rest)) :
    Follows a us m' rest (bindingPattern stop' (a.join m) depth inDefault (ts' ++ us)) := by
  induction alike generalizing m depth inDefault with
  | nil => cases call
  | @cons t t' ts ts' first others ih =>
    have ends : nextIs (fun next => [",", "\x7d", "]", "="].contains next.text) (ts' ++ us) =
        nextIs (fun next => [",", "\x7d", "]", "="].contains next.text) ts :=
      nextIs_followed (fun same => by rw [same.text]) (by decide) others behind
    simp only [List.cons_append, bindingPattern, first.kind, first.text, ends] at call ⊢
    split at call
    · -- punctuation
      refine follows_ite call (fun _ => ih) (fun _ call => ?_)
      refine follows_ite call (fun _ call => ?_) (fun _ call => ?_)
      · refine follows_ite call (fun _ call => ?_) (fun _ => ih)
        cases call
        exact .read others
      · exact follows_ite call (fun _ => ih) fun _ call => follows_ite call (fun _ => ih) fun _ => ih
    · -- a word
      refine follows_ite call (fun _ call => ?_) (fun _ => ih)
      split at call
      · cases call
      · rename_i m₁ added
        have grows := (reads_bindingPattern call).exports_subset
        rw [join_addExport added]
        by_cases before : t.text ∈ a.exports
        · rw [if_pos before]
          exact .clash before (grows (mem_exports_addExport added))
        · rw [if_neg before]
          exact ih call
    · exact ih call

theorem exportedName_followed (alike : AllAlike ts ts')
    (call : exportedName stop m ts = .ok (m', rest)) :
    Follows a us m' rest (exportedName stop' (a.join m) (ts' ++ us)) := by
  unfold exportedName at call ⊢
  obtain ⟨⟨t, left⟩, read, call⟩ := bind_eq_ok.1 call
  obtain ⟨m₁, added, call⟩ := bind_eq_ok.1 call
  cases call
  obtain ⟨_, _, followed, first, others⟩ := tokenOf_followed alike read
  rw [followed]
  dsimp only [bind, Except.bind]
  rw [first.text]
  exact follows_addExport added (fun _ mem => mem) (.read others)

theorem exportedFunction_followed (alike : AllAlike ts ts') (behind : StartsBehind us)
    (call : exportedFunction stop m ts = .ok (m', rest)) :
    Follows a us m' rest (exportedFunction stop' (a.join m) (ts' ++ us)) := by
  unfold exportedFunction at call ⊢
  rw [nextIs_isPunctuator (by decide) alike behind]
  split at call
  · rename_i star
    rw [if_pos star, alike.tail_append star]
    exact exportedName_followed alike.tail call
  · rename_i noStar
    rw [if_neg noStar]
    exact exportedName_followed alike call

theorem exportedBinding_followed {keyword keyword' : Token} (alike : AllAlike ts ts')
    (behind : StartsBehind us) (call : exportedBinding stop keyword m ts = .ok (m', rest)) :
    Follows a us m' rest (exportedBinding stop' keyword' (a.join m) (ts' ++ us)) := by
  cases alike with
  | nil => cases call
  | cons first others =>
    have whole := List.Forall₂.cons first others
    simp only [List.cons_append, exportedBinding, first.kind, first.text, first.isPunctuator]
      at call ⊢
    refine follows_ite call (fun _ call => ?_) (fun _ call => ?_)
    · obtain ⟨m₁, added, call⟩ := bind_eq_ok.1 call
      cases call
      exact follows_addExport added (fun _ mem => mem) (.read others)
    · exact follows_ite call (fun _ => bindingPattern_followed whole behind)
        (fun _ call => by cases call)

theorem exportedStar_followed {keyword keyword' : Token} (alike : AllAlike ts ts')
    (behind : StartsBehind us) (call : exportedStar stop keyword m ts = .ok (m', rest)) :
    Follows a us m' rest (exportedStar stop' keyword' (a.join m) (ts' ++ us)) := by
  unfold exportedStar at call ⊢
  rw [nextIs_isWord "as" alike behind]
  refine follows_ite call (fun next call => ?_)
    (fun _ => fromClause_followed (join_addStar a m) alike behind)
  obtain ⟨⟨exported, left⟩, read, call⟩ := bind_eq_ok.1 call
  obtain ⟨name, named, call⟩ := bind_eq_ok.1 call
  obtain ⟨m₁, added, call⟩ := bind_eq_ok.1 call
  obtain ⟨_, _, followed, first, others⟩ := anyToken_followed alike.tail read
  have grows := (reads_fromClause_addRequest call).exports_subset
  rw [alike.tail_append next, followed]
  dsimp only [bind, Except.bind]
  rw [bindingName_followed first named]
  exact follows_addExport added grows
    (fromClause_followed (join_addRequest a m₁) others behind call)

theorem exportDeclaration_followed {keyword keyword' : Token} (alike : AllAlike ts ts')
    (behind : StartsBehind us) (call : exportDeclaration stop keyword m ts = .ok (m', rest)) :
    Follows a us m' rest (exportDeclaration stop' keyword' (a.join m) (ts' ++ us)) := by
  cases alike with
  | nil => cases call
  | cons first others =>
    simp only [List.cons_append, exportDeclaration, first.isPunctuator, first.isWord] at call ⊢
    refine follows_ite call (fun _ call => ?_) (fun _ call => ?_)
    · -- `default` is a name of its own
      obtain ⟨m₁, added, call⟩ := bind_eq_ok.1 call
      cases call
      exact follows_addExport added (fun _ mem => mem) (.read others)
    refine follows_ite call (fun _ => exportedStar_followed others behind) (fun _ call => ?_)
    refine follows_ite call (fun _ call => ?_) (fun _ call => ?_)
    · -- a list
      obtain ⟨⟨m₁, left⟩, read, call⟩ := bind_eq_ok.1 call
      dsimp only at call
      split at call
      · rename_i from_
        have grows := (reads_fromClause_addRequest call).exports_subset
        refine (exportList_followed others behind read).bind grows fun others => ?_
        dsimp only
        rw [nextIs_isWord "from" others behind, if_pos from_]
        exact fromClause_followed (join_addRequest a m₁) others behind call
      · rename_i noFrom
        cases call
        refine (exportList_followed others behind read).bind (fun _ mem => mem) fun others => ?_
        dsimp only
        rw [nextIs_isWord "from" others behind, if_neg noFrom]
        exact .read others
    refine follows_ite call (fun _ => exportedBinding_followed others behind) (fun _ call => ?_)
    refine follows_ite call (fun _ call => ?_) (fun _ call => ?_)
    · -- `async` has `function` behind it
      obtain ⟨⟨function, left⟩, read, call⟩ := bind_eq_ok.1 call
      obtain ⟨_, _, followed, -, others⟩ := word_followed others read
      rw [followed]
      exact exportedFunction_followed others behind call
    refine follows_ite call (fun _ => exportedFunction_followed others behind) (fun _ call => ?_)
    exact follows_ite call (fun _ => exportedName_followed others) (fun _ call => by cases call)

-- ---------------------------------------------------------------------------
-- Statements
-- ---------------------------------------------------------------------------

theorem alike_isDelimiter {t t' : Token} (alike : t.Alike t') : isDelimiter t' = isDelimiter t := by
  simp only [isDelimiter, alike.kind, alike.text]

/-- What becomes of tokens that lead to the interface `m` and of `us` behind them, if `a` is there
before: `us` are read as they are by themselves, unless a name would be exported twice. -/
inductive GoesOn (stop : Nat) (a : Interface) (us : List Token) (m : Interface) :
    Except Failure Interface → Prop where
  | read (afterDot : Bool) : GoesOn stop a us m (statements stop (a.join m) [] afterDot us)
  | clash {name : String} {offset : Nat} : name ∈ a.exports → name ∈ m.exports →
    GoesOn stop a us m (.error ⟨.duplicateExport name, offset⟩)

theorem Follows.goesOn {rest₁ : List Token} {result : Except Failure (Interface × List Token)}
    (first : Follows a us m₁ rest₁ result) (grows : m₁.exports ⊆ m'.exports)
    (second : ∀ {rest'}, AllAlike rest₁ rest' →
      GoesOn stop a us m' (statements stop (a.join m₁) [] false (rest' ++ us))) :
    GoesOn stop a us m' (do
      let (m, ts) ← result
      statements stop m [] false ts) := by
  cases first with
  | read alike => exact second alike
  | clash before behind => exact .clash before (grows behind)

/-- Tokens that can be read to their end are read alike with others behind them. -/
theorem statements_followed {opened opened' : List Token} {afterDot : Bool}
    (alike : AllAlike ts ts') (open_ : AllAlike opened opened') (behind : StartsBehind us)
    (call : statements stop m opened afterDot ts = .ok m') :
    GoesOn stop' a us m' (statements stop' (a.join m) opened' afterDot (ts' ++ us)) := by
  fun_induction statements stop m opened afterDot ts generalizing ts' opened' with
  | case1 m afterDot =>
    cases call
    cases alike
    cases open_
    exact .read afterDot
  | case2 | case5 | case6 | case8 | case10 => cases call
  | case3 m opened afterDot t ts kind opens ih =>
    cases alike with
    | cons first others =>
      rw [List.cons_append,
        statements_opener _ _ _ _ _ (first.kind.trans kind) (first.text ▸ opens)]
      exact ih others (.cons first open_) call
  | case4 m afterDot t ts kind opens closer opener opened closes ih =>
    cases alike with
    | cons first others =>
      cases open_ with
      | cons same open_ =>
        have closes' := closes
        rw [← first.text, ← same.text] at closes'
        rw [List.cons_append, statements_closer _ _ _ _ _ (first.kind.trans kind) closes']
        exact ih others open_ call
  | case7 m opened afterDot t ts kind opens closer ih =>
    cases alike with
    | cons first others =>
      have plain : isDelimiter t = false := by
        simp [isDelimiter, kind, opens, closer]
      have noWord : ∀ word, t.isWord word = false := by
        simp [Token.isWord, kind]
      rw [List.cons_append, statements_plain _ _ _ _ _ ((alike_isDelimiter first).trans plain)
        fun _ _ => ⟨(first.isWord _).trans (noWord _), (first.isWord _).trans (noWord _)⟩, first.text]
      exact ih others open_ call
  | case9 m opened afterDot t ts kind word m₁ left declaration ih =>
    cases alike with
    | cons first others =>
      simp only [Bool.and_eq_true, Bool.not_eq_true', List.isEmpty_iff] at word
      obtain ⟨⟨word, rfl⟩, rfl⟩ := word
      cases open_
      rw [List.cons_append, statements_import _ _ _ ((first.isWord _).trans word)]
      exact (importDeclaration_followed others behind declaration).goesOn
        (reads_statements call).exports_subset fun others => ih others .nil call
  | case11 m opened afterDot t ts kind noImport word m₁ left declaration ih =>
    cases alike with
    | cons first others =>
      simp only [Bool.and_eq_true, Bool.not_eq_true', List.isEmpty_iff] at word
      obtain ⟨⟨word, rfl⟩, rfl⟩ := word
      cases open_
      rw [List.cons_append, statements_export _ _ _ ((first.isWord _).trans word)]
      exact (exportDeclaration_followed others behind declaration).goesOn
        (reads_statements call).exports_subset fun others => ih others .nil call
  | case12 m opened afterDot t ts kind noImport noExport ih =>
    cases alike with
    | cons first others =>
      have plain : isDelimiter t = false := by
        simp [isDelimiter, kind]
      have noWord : opened' = [] → afterDot = false →
          t.isWord "import" = false ∧ t.isWord "export" = false := by
        rintro rfl rfl
        cases open_
        simpa using And.intro noImport noExport
      rw [List.cons_append, statements_plain _ _ _ _ _ ((alike_isDelimiter first).trans plain)
        fun outside free => ⟨(first.isWord _).trans (noWord outside free).1,
          (first.isWord _).trans (noWord outside free).2⟩, first.text]
      exact ih others open_ call

/-- What tokens say of an interface does not depend on their places. -/
theorem ofTokens_alike (alike : AllAlike ts ts') (call : ofTokens stop ts = .ok m) :
    ofTokens stop' ts' = .ok m := by
  have none : StartsBehind [] := nofun
  have goes : GoesOn stop' empty [] m (statements stop' (empty.join empty) [] false (ts' ++ [])) :=
    statements_followed alike .nil none call
  rw [List.append_nil, join_empty] at goes
  unfold ofTokens
  generalize statements stop' empty [] false ts' = result at goes ⊢
  cases goes with
  | read afterDot => rw [statements_nil, empty_join]
  | clash before _ => cases before

end Interface

end Esm
