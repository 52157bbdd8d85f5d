-- SUMMARY: Where the names of an interface come from: each is given by a token of its own.
import Esm.Interface.Analysis

/-!
# Names of an interface

Reading declarations goes through the tokens in order. A token is passed over, or it gives the
interface one name: a specifier that is requested or passed on, which only a string gives, or a name
that is exported.
-/

namespace Esm

/-- The name that a token gives in an export: a word, or the value of a string. -/
def Token.name? (t : Token) : Option String :=
  match t.kind with
  | .identifier => some t.text
  | .string => some t.stringValue
  | _ => none

/-- The specifier that a token gives: the value of a string. -/
def Token.specifier? (t : Token) : Option String :=
  if t.kind = .string then some t.stringValue else none

namespace Interface

/-- Tokens are read from the head of a list, and the interface gains the names that they give. -/
inductive Reads : Interface → List Token → Interface → List Token → Prop where
  | stop {m : Interface} {ts : List Token} : Reads m ts m ts
  | pass {m m' : Interface} {t : Token} {ts rest : List Token} : Reads m ts m' rest →
    Reads m (t :: ts) m' rest
  | request {m m' : Interface} {t : Token} {specifier : String} {ts rest : List Token} :
    t.specifier? = some specifier → Reads (m.addRequest specifier) ts m' rest →
    Reads m (t :: ts) m' rest
  | star {m m' : Interface} {t : Token} {specifier : String} {ts rest : List Token} :
    t.specifier? = some specifier → Reads (m.addStar specifier) ts m' rest →
    Reads m (t :: ts) m' rest
  | export_ {m m' m'' : Interface} {t : Token} {name : String} {ts rest : List Token} :
    t.name? = some name → m.addExport t name = .ok m' → Reads m' ts m'' rest →
    Reads m (t :: ts) m'' rest

theorem Reads.trans {m m' m'' : Interface} {ts ts' ts'' : List Token} (first : Reads m ts m' ts')
    (second : Reads m' ts' m'' ts'') : Reads m ts m'' ts'' := by
  induction first with
  | stop => exact second
  | pass _ ih => exact .pass (ih second)
  | request specifier _ ih => exact .request specifier (ih second)
  | star specifier _ ih => exact .star specifier (ih second)
  | export_ name added _ ih => exact .export_ name added (ih second)

-- ---------------------------------------------------------------------------
-- Single tokens
-- ---------------------------------------------------------------------------

theorem anyToken_ok {stop : Nat} {ts rest : List Token} {t : Token}
    (read : anyToken stop ts = .ok (t, rest)) : ts = t :: rest := by
  cases ts with
  | nil => cases read
  | cons u us =>
    cases read
    rfl

theorem tokenOf_ok {stop : Nat} {kind : TokenKind} {ts rest : List Token} {t : Token}
    (read : tokenOf stop kind ts = .ok (t, rest)) : ts = t :: rest ∧ t.kind = kind := by
  cases ts with
  | nil => cases read
  | cons u us =>
    simp only [tokenOf] at read
    split at read
    · rename_i same
      cases read
      exact ⟨rfl, same⟩
    · cases read

theorem word_ok {stop : Nat} {text : String} {ts rest : List Token} {t : Token}
    (read : word stop text ts = .ok (t, rest)) : ts = t :: rest := by
  cases ts with
  | nil => cases read
  | cons u us =>
    simp only [word] at read
    split at read
    · cases read
      rfl
    · cases read

theorem name?_identifier {t : Token} (kind : t.kind = .identifier) : t.name? = some t.text := by
  simp only [Token.name?, kind]

theorem name?_string {t : Token} (kind : t.kind = .string) : t.name? = some t.stringValue := by
  simp only [Token.name?, kind]

theorem bindingName_ok {t : Token} {name : String} (read : bindingName t = .ok name) :
    t.name? = some name := by
  unfold bindingName at read
  split at read
  · rename_i kind
    cases read
    exact name?_identifier kind
  · rename_i kind
    cases read
    exact name?_string kind
  · cases read

theorem specifier?_string {t : Token} (kind : t.kind = .string) :
    t.specifier? = some t.stringValue := if_pos kind

theorem string_of_specifier? {t : Token} {specifier : String}
    (given : t.specifier? = some specifier) : t.kind = .string ∧ t.stringValue = specifier := by
  unfold Token.specifier? at given
  split at given
  · rename_i kind
    exact ⟨kind, Option.some.inj given⟩
  · cases given

theorem label_of_name? {t : Token} {name : String} (given : t.name? = some name) :
    t.kind = .identifier ∧ t.text = name ∨ t.kind = .string ∧ t.stringValue = name := by
  unfold Token.name? at given
  split at given
  · rename_i kind
    exact Or.inl ⟨kind, Option.some.inj given⟩
  · rename_i kind
    exact Or.inr ⟨kind, Option.some.inj given⟩
  · cases given

/-- A token that passes a test is there. -/
theorem eq_cons_of_nextIs {test : Token → Bool} {ts : List Token} (h : nextIs test ts = true) :
    ∃ t, ts = t :: ts.tail ∧ test t = true := by
  cases ts with
  | nil => cases h
  | cons t ts => exact ⟨t, rfl, h⟩

/-- A word that starts a declaration stands outside brackets, and behind no dot. -/
theorem starts_eq {t : Token} {opened : List Token} {afterDot : Bool} {word : String}
    (starts : (t.isWord word && opened.isEmpty && !afterDot) = true) :
    t.isWord word = true ∧ opened = [] ∧ afterDot = false := by
  simpa [and_assoc] using starts

theorem Reads.tail {m m' : Interface} {ts rest : List Token} {test : Token → Bool}
    (next : nextIs test ts = true) (reads : Reads m ts.tail m' rest) : Reads m ts m' rest := by
  obtain ⟨t, cons, -⟩ := eq_cons_of_nextIs next
  rw [cons]
  exact .pass reads

-- ---------------------------------------------------------------------------
-- Declarations
-- ---------------------------------------------------------------------------

variable {stop : Nat} {m m' : Interface} {ts rest : List Token}

theorem reads_fromClause {keyword : Token} {add : String → Interface}
    (gives : ∀ {t specifier ts}, Token.specifier? t = some specifier →
      Reads m (t :: ts) (add specifier) ts)
    (call : fromClause stop keyword add ts = .ok (m', rest)) : Reads m ts m' rest := by
  unfold fromClause at call
  split at call
  · rename_i next
    obtain ⟨⟨t, left⟩, read, h⟩ := bind_eq_ok.1 call
    obtain ⟨tail, kind⟩ := tokenOf_ok read
    cases h
    apply Reads.tail next
    rw [tail]
    exact gives (specifier?_string kind)
  · cases call

theorem reads_fromClause_addRequest {keyword : Token}
    (call : fromClause stop keyword m.addRequest ts = .ok (m', rest)) : Reads m ts m' rest :=
  reads_fromClause (fun given => .request given .stop) call

theorem reads_skipImportList {opener : Token} (call : skipImportList opener ts = .ok rest) :
    Reads m ts m rest := by
  induction ts with
  | nil => cases call
  | cons t ts ih =>
    simp only [skipImportList] at call
    split at call
    · cases call
      exact .pass .stop
    · exact .pass (ih call)

theorem reads_importBindings {keyword : Token}
    (call : importBindings stop keyword m ts = .ok (m', rest)) : Reads m ts m' rest := by
  cases ts with
  | nil => cases call
  | cons t ts =>
    simp only [importBindings] at call
    split at call
    · obtain ⟨⟨as, left⟩, read, call⟩ := bind_eq_ok.1 call
      obtain ⟨⟨name, left'⟩, read', call⟩ := bind_eq_ok.1 call
      have tail : left = name :: left' := (tokenOf_ok read').1
      rw [word_ok read, tail]
      exact .pass (.pass (.pass (reads_fromClause_addRequest call)))
    · split at call
      · obtain ⟨left, read, call⟩ := bind_eq_ok.1 call
        exact .pass ((reads_skipImportList read).trans (reads_fromClause_addRequest call))
      · cases call

theorem reads_importDeclaration {keyword : Token}
    (call : importDeclaration stop keyword m ts = .ok (m', rest)) : Reads m ts m' rest := by
  cases ts with
  | nil => cases call
  | cons t ts =>
    simp only [importDeclaration] at call
    split at call
    · cases call
      exact .stop
    · split at call
      · rename_i kind
        cases call
        exact .request (specifier?_string kind) .stop
      · split at call
        · cases call
        · split at call
          · rename_i next
            exact .pass (.tail next (reads_importBindings call))
          · exact .pass (reads_fromClause_addRequest call)
      · exact reads_importBindings call

theorem reads_exportItem {t : Token} (call : exportItem stop m t ts = .ok (m', rest)) :
    Reads m (t :: ts) m' rest := by
  obtain ⟨name, named, call⟩ := bind_eq_ok.1 call
  split at call
  · rename_i next
    obtain ⟨⟨exported, left⟩, read, call⟩ := bind_eq_ok.1 call
    obtain ⟨alias_, named', call⟩ := bind_eq_ok.1 call
    obtain ⟨m₁, added, call⟩ := bind_eq_ok.1 call
    cases call
    apply Reads.pass
    apply Reads.tail next
    rw [anyToken_ok read]
    exact .export_ (bindingName_ok named') added .stop
  · obtain ⟨m₁, added, call⟩ := bind_eq_ok.1 call
    cases call
    exact .export_ (bindingName_ok named) added .stop

theorem reads_exportSeparator {more : Bool} (call : exportSeparator stop ts = .ok (more, rest)) :
    Reads m ts m rest := by
  cases ts with
  | nil => cases call
  | cons t ts =>
    simp only [exportSeparator] at call
    split at call
    · cases call
      exact .pass .stop
    · split at call
      · cases call
        exact .pass .stop
      · cases call

theorem reads_exportList (call : exportList stop m ts = .ok (m', rest)) : Reads m ts m' rest := by
  fun_induction exportList stop m ts with
  | case1 => cases call
  | case2 =>
    cases call
    exact .pass .stop
  | case3 => cases call
  | case4 => cases call
  | case5 m t ts _ m₁ ts' item ts'' separator ih =>
    exact (reads_exportItem item).trans ((reads_exportSeparator separator).trans (ih call))
  | case6 m t ts _ m₁ ts' item ts'' separator =>
    cases call
    exact (reads_exportItem item).trans (reads_exportSeparator separator)

theorem reads_bindingPattern {depth : Nat} {inDefault : Bool}
    (call : bindingPattern stop m depth inDefault ts = .ok (m', rest)) : Reads m ts m' rest := by
  induction ts generalizing m depth inDefault with
  | nil => cases call
  | cons t ts ih =>
    simp only [bindingPattern] at call
    split at call
    · -- punctuation
      split at call
      · exact .pass (ih call)
      · split at call
        · split at call
          · cases call
            exact .pass .stop
          · exact .pass (ih call)
        · split at call
          · exact .pass (ih call)
          · split at call
            · exact .pass (ih call)
            · exact .pass (ih call)
    · -- a word
      rename_i kind
      split at call
      · split at call
        · cases call
        · rename_i m₁ added
          exact .export_ (name?_identifier kind) added (ih call)
      · exact .pass (ih call)
    · exact .pass (ih call)

theorem reads_exportedName (call : exportedName stop m ts = .ok (m', rest)) :
    Reads m ts m' rest := by
  obtain ⟨⟨t, left⟩, read, call⟩ := bind_eq_ok.1 call
  obtain ⟨m₁, added, call⟩ := bind_eq_ok.1 call
  obtain ⟨tail, kind⟩ := tokenOf_ok read
  cases call
  rw [tail]
  exact .export_ (name?_identifier kind) added .stop

theorem reads_exportedFunction (call : exportedFunction stop m ts = .ok (m', rest)) :
    Reads m ts m' rest := by
  have named := reads_exportedName call
  split at named
  · rename_i next
    exact .tail next named
  · exact named

theorem reads_exportedBinding {keyword : Token}
    (call : exportedBinding stop keyword m ts = .ok (m', rest)) : Reads m ts m' rest := by
  cases ts with
  | nil => cases call
  | cons t ts =>
    simp only [exportedBinding] at call
    split at call
    · rename_i kind
      obtain ⟨m₁, added, call⟩ := bind_eq_ok.1 call
      cases call
      exact .export_ (name?_identifier kind) added .stop
    · split at call
      · exact reads_bindingPattern call
      · cases call

theorem reads_exportedStar {keyword : Token}
    (call : exportedStar stop keyword m ts = .ok (m', rest)) : Reads m ts m' rest := by
  unfold exportedStar at call
  split at call
  · rename_i next
    obtain ⟨⟨exported, left⟩, read, call⟩ := bind_eq_ok.1 call
    obtain ⟨name, named, call⟩ := bind_eq_ok.1 call
    obtain ⟨m₁, added, call⟩ := bind_eq_ok.1 call
    apply Reads.tail next
    rw [anyToken_ok read]
    exact .export_ (bindingName_ok named) added (reads_fromClause_addRequest call)
  · exact reads_fromClause (fun given => .star given .stop) call

theorem reads_exportDeclaration {keyword : Token}
    (call : exportDeclaration stop keyword m ts = .ok (m', rest)) : Reads m ts m' rest := by
  cases ts with
  | nil => cases call
  | cons t ts =>
    simp only [exportDeclaration] at call
    split at call
    · -- `default` gives its own name
      rename_i word
      obtain ⟨kind, text⟩ := isWord_eq word
      obtain ⟨m₁, added, call⟩ := bind_eq_ok.1 call
      cases call
      exact .export_ (text ▸ name?_identifier kind) added .stop
    split at call
    · exact .pass (reads_exportedStar call)
    split at call
    · obtain ⟨⟨m₁, left⟩, read, call⟩ := bind_eq_ok.1 call
      apply Reads.pass
      apply (reads_exportList read).trans
      dsimp only at call
      split at call
      · exact reads_fromClause_addRequest call
      · cases call
        exact .stop
    split at call
    · exact .pass (reads_exportedBinding call)
    split at call
    · obtain ⟨⟨function, left⟩, read, call⟩ := bind_eq_ok.1 call
      rw [word_ok read]
      exact .pass (.pass (reads_exportedFunction call))
    split at call
    · exact .pass (reads_exportedFunction call)
    split at call
    · exact .pass (reads_exportedName call)
    · cases call

theorem reads_statements {opened : List Token} {afterDot : Bool}
    (call : statements stop m opened afterDot ts = .ok m') : Reads m ts m' [] := by
  fun_induction statements stop m opened afterDot ts with
  | case1 =>
    cases call
    exact .stop
  | case2 | case5 | case6 | case8 | case10 => cases call
  | case3 =>
    rename_i ih
    exact .pass (ih call)
  | case4 =>
    rename_i ih
    exact .pass (ih call)
  | case7 =>
    rename_i ih
    exact .pass (ih call)
  | case9 =>
    rename_i declaration ih
    exact .pass ((reads_importDeclaration declaration).trans (ih call))
  | case11 =>
    rename_i declaration ih
    exact .pass ((reads_exportDeclaration declaration).trans (ih call))
  | case12 =>
    rename_i ih
    exact .pass (ih call)

/-- The interface of a module is read off its tokens. -/
theorem reads_ofTokens (call : ofTokens stop ts = .ok m) : Reads .empty ts m [] :=
  reads_statements call

-- ---------------------------------------------------------------------------
-- Lists of names
-- ---------------------------------------------------------------------------

/-- A list of names stays as it is or gains the name that the token gives. -/
def Gains (gives : Token → Option String) (t : Token) (names names' : List String) : Prop :=
  names' = names ∨ ∃ name, gives t = some name ∧ names' = names ++ [name]

/-- A list that gains names from tokens only gains them in the order of the tokens. -/
theorem Reads.sublist (names : Interface → List String) (gives : Token → Option String)
    (request : ∀ {m t specifier}, Token.specifier? t = some specifier →
      Gains gives t (names m) (names (m.addRequest specifier)))
    (star : ∀ {m t specifier}, Token.specifier? t = some specifier →
      Gains gives t (names m) (names (m.addStar specifier)))
    (export_ : ∀ {m m' t name}, Token.name? t = some name → m.addExport t name = .ok m' →
      Gains gives t (names m) (names m'))
    (reads : Reads m ts m' rest) :
    ∃ new, names m' = names m ++ new ∧ new.Sublist (ts.filterMap gives) := by
  have passed : ∀ {new t ts}, List.Sublist new (List.filterMap gives ts) →
      List.Sublist new (List.filterMap gives (t :: ts)) := by
    intro new t ts sub
    exact sub.trans ((List.sublist_cons_self t ts).filterMap gives)
  have gained : ∀ {m m' : Interface} {t ts new names'}, Gains gives t (names m) (names m') →
      names' = names m' ++ new → List.Sublist new (List.filterMap gives ts) →
      ∃ new, names' = names m ++ new ∧ List.Sublist new (List.filterMap gives (t :: ts)) := by
    intro m m' t ts new names' gains whole sub
    obtain same | ⟨name, given, more⟩ := gains
    · exact ⟨new, by rw [whole, same], passed sub⟩
    · refine ⟨name :: new, by rw [whole, more, List.append_assoc, List.singleton_append], ?_⟩
      rw [List.filterMap_cons_some given]
      exact sub.cons_cons name
  induction reads with
  | stop => exact ⟨[], (List.append_nil _).symm, List.nil_sublist _⟩
  | pass _ ih =>
    obtain ⟨new, whole, sub⟩ := ih
    exact ⟨new, whole, passed sub⟩
  | request given _ ih =>
    obtain ⟨new, whole, sub⟩ := ih
    exact gained (request given) whole sub
  | star given _ ih =>
    obtain ⟨new, whole, sub⟩ := ih
    exact gained (star given) whole sub
  | export_ given added _ ih =>
    obtain ⟨new, whole, sub⟩ := ih
    exact gained (export_ given added) whole sub

theorem gains_addRequest {t : Token} {specifier : String} (given : t.specifier? = some specifier)
    (m : Interface) : Gains Token.specifier? t m.requests (m.addRequest specifier).requests := by
  unfold addRequest
  split
  · exact Or.inl rfl
  · exact Or.inr ⟨specifier, given, rfl⟩

theorem starExports_addRequest (m : Interface) (specifier : String) :
    (m.addRequest specifier).starExports = m.starExports := by
  unfold addRequest
  split <;> rfl

theorem exports_addRequest (m : Interface) (specifier : String) :
    (m.addRequest specifier).exports = m.exports := by
  unfold addRequest
  split <;> rfl

theorem mem_exports_addExport {t : Token} {name : String} (added : m.addExport t name = .ok m') :
    name ∈ m'.exports := by
  rw [exports_addExport added]
  exact List.mem_append_right _ (List.mem_singleton_self name)

theorem exports_addStar (m : Interface) (specifier : String) :
    (m.addStar specifier).exports = m.exports :=
  exports_addRequest _ specifier

/-- What is exported stays exported. -/
theorem Reads.exports_subset (reads : Reads m ts m' rest) : m.exports ⊆ m'.exports := by
  induction reads with
  | stop => exact fun _ mem => mem
  | pass _ ih => exact ih
  | request _ _ ih => exact exports_addRequest _ _ ▸ ih
  | star _ _ ih => exact exports_addStar _ _ ▸ ih
  | export_ _ added _ ih =>
    intro name mem
    apply ih
    rw [exports_addExport added]
    exact List.mem_append_left _ mem

/-- No name is exported twice. -/
theorem Reads.nodup (reads : Reads m ts m' rest) (before : m.exports.Nodup) :
    m'.exports.Nodup := by
  induction reads with
  | stop => exact before
  | pass _ ih => exact ih before
  | request _ _ ih => exact ih ((exports_addRequest _ _).symm ▸ before)
  | star _ _ ih => exact ih ((exports_addStar _ _).symm ▸ before)
  | export_ _ added _ ih =>
    apply ih
    rw [exports_addExport added]
    unfold addExport at added
    split at added
    · cases added
    · rename_i fresh
      rw [List.nodup_append]
      refine ⟨before, by simp, ?_⟩
      rintro x mem y last rfl
      cases List.mem_singleton.1 last
      exact fresh mem

theorem exports_nodup (call : ofTokens stop ts = .ok m) : m.exports.Nodup :=
  (reads_ofTokens call).nodup List.nodup_nil

/-- The requests of a module are specifiers that its tokens give, in their order. -/
theorem requests_sublist (call : ofTokens stop ts = .ok m) :
    m.requests.Sublist (ts.filterMap Token.specifier?) := by
  obtain ⟨new, whole, sub⟩ := Reads.sublist Interface.requests Token.specifier?
    (fun given => gains_addRequest given _) (fun given => gains_addRequest given _)
    (fun _ added => Or.inl (requests_addExport added).1) (reads_ofTokens call)
  exact whole ▸ sub

/-- The star exports of a module are specifiers that its tokens give, in their order. -/
theorem starExports_sublist (call : ofTokens stop ts = .ok m) :
    m.starExports.Sublist (ts.filterMap Token.specifier?) := by
  obtain ⟨new, whole, sub⟩ := Reads.sublist Interface.starExports Token.specifier?
    (fun _ => Or.inl (starExports_addRequest _ _))
    (fun given => Or.inr ⟨_, given, starExports_addRequest _ _⟩)
    (fun _ added => Or.inl (requests_addExport added).2) (reads_ofTokens call)
  exact whole ▸ sub

/-- The exports of a module are names that its tokens give, in their order. -/
theorem exports_sublist (call : ofTokens stop ts = .ok m) :
    m.exports.Sublist (ts.filterMap Token.name?) := by
  obtain ⟨new, whole, sub⟩ := Reads.sublist Interface.exports Token.name?
    (fun _ => Or.inl (exports_addRequest _ _)) (fun _ => Or.inl (exports_addRequest _ _))
    (fun named added => Or.inr ⟨_, named, exports_addExport added⟩) (reads_ofTokens call)
  exact whole ▸ sub

end Interface

end Esm
