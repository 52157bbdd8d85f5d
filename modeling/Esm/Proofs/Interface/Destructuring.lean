-- SUMMARY: A module that exports one pattern exports the names it binds, unless a word of an expression is mistaken for one.
import Esm.Proofs.Interface.Bound
import Esm.Proofs.Module.Concatenation
import Mathlib.Data.List.Perm.Subperm

/-!
# Exported patterns

In a module that exports nothing else, an exported pattern gives the names of the interface. They
are the names that the pattern binds exactly if these are distinct and no word of a default value or
of a key is mistaken for one. A name that is bound twice is always refused.
-/

namespace Esm.Interface

-- ---------------------------------------------------------------------------
-- Reading up to a declaration
-- ---------------------------------------------------------------------------

/-- Reading comes to the tokens `us` where a declaration can start, outside brackets and not behind
a dot. The interface is `a` by then. -/
inductive Comes (stop : Nat) (us : List Token) (a : Interface) :
    Interface → List Token → Bool → List Token → Prop where
  | here : Comes stop us a a [] false us
  | opener {m : Interface} {opened ts : List Token} {afterDot : Bool} {t : Token} :
    t.kind = .punctuator → (closerOf t.text).isSome = true →
    Comes stop us a m (t :: opened) false ts → Comes stop us a m opened afterDot (t :: ts)
  | closer {m : Interface} {opened ts : List Token} {afterDot : Bool} {t opener : Token} :
    t.kind = .punctuator → closerOf opener.text = some t.text →
    Comes stop us a m opened false ts → Comes stop us a m (opener :: opened) afterDot (t :: ts)
  | plain {m : Interface} {opened ts : List Token} {afterDot : Bool} {t : Token} :
    isDelimiter t = false →
    (opened = [] → afterDot = false → t.isWord "import" = false ∧ t.isWord "export" = false) →
    Comes stop us a m opened (t.text = ".") ts → Comes stop us a m opened afterDot (t :: ts)
  | import_ {m m' : Interface} {ts rest : List Token} {t : Token} : t.isWord "import" = true →
    importDeclaration stop t m ts = .ok (m', rest) → Comes stop us a m' [] false rest →
    Comes stop us a m [] false (t :: ts)
  | export_ {m m' : Interface} {ts rest : List Token} {t : Token} : t.isWord "export" = true →
    exportDeclaration stop t m ts = .ok (m', rest) → Comes stop us a m' [] false rest →
    Comes stop us a m [] false (t :: ts)

theorem Comes.statements_eq {stop : Nat} {us opened ts : List Token} {a m : Interface}
    {afterDot : Bool} (comes : Comes stop us a m opened afterDot ts) :
    statements stop m opened afterDot ts = statements stop a [] false us := by
  induction comes with
  | here => rfl
  | opener kind opens _ ih => rw [statements_opener _ _ _ _ _ kind opens, ih]
  | closer kind closes _ ih => rw [statements_closer _ _ _ _ _ kind closes, ih]
  | plain plain word _ ih => rw [statements_plain _ _ _ _ _ plain word, ih]
  | import_ word read _ ih =>
    rw [statements_import _ _ _ word, read]
    exact ih
  | export_ word read _ ih =>
    rw [statements_export _ _ _ word, read]
    exact ih

/-- Code that says nothing does so at any place. -/
theorem Silent.alike {afterDot : Bool} {ts ts' : List Token} (silent : Silent afterDot ts)
    (alike : AllAlike ts ts') : Silent afterDot ts' := by
  induction silent generalizing ts' with
  | nil =>
    cases alike
    exact .nil
  | cons plain word _ ih =>
    cases alike with
    | cons first others =>
      refine .cons ((alike_isDelimiter first).trans plain) (fun free => ?_) ?_
      · exact ⟨(first.isWord _).trans (word free).1, (first.isWord _).trans (word free).2⟩
      · rw [first.text]
        exact ih others
  | access word access _ ih =>
    cases alike with
    | cons first others =>
      cases others with
      | cons next others =>
        refine .access ((first.isWord _).trans word) ?_ (ih (.cons next others))
        rw [next.isPunctuator, next.isPunctuator, access]
  | bracket kind kind' closes inner _ ih =>
    cases alike with
    | cons opener others =>
      obtain ⟨inner', rest', rfl, within, rest⟩ := AllAlike.of_append others
      cases rest with
      | cons closer rest =>
        refine .bracket (opener.kind.trans kind) (closer.kind.trans kind') ?_ (inner.alike within)
          (ih rest)
        rw [opener.text, closer.text, closes]

theorem AllAlike.map_text {ts ts' : List Token} (alike : AllAlike ts ts') :
    ts'.map Token.text = ts.map Token.text := by
  induction alike with
  | nil => rfl
  | cons first _ ih => rw [List.map_cons, List.map_cons, first.text, ih]

/-- What comes behind a semicolon adds what it says by itself, if it exports nothing. -/
theorem statements_join {stop stop' : Nat} {us : List Token} {b : Interface} (m : Interface)
    (read : ofTokens stop' us = .ok b) (silent : b.exports = []) :
    statements stop m [] false us = .ok (m.join b) := by
  have same : AllAlike us us := List.forall₂_same.2 fun _ _ => ⟨rfl, rfl⟩
  have none : StartsBehind [] := nofun
  have goes : GoesOn stop m [] b (statements stop (m.join empty) [] false (us ++ [])) :=
    statements_followed same .nil none read
  rw [List.append_nil, join_empty] at goes
  generalize statements stop m [] false us = result at goes ⊢
  cases goes with
  | read afterDot => exact statements_nil _ _ _
  | clash _ behind =>
    rw [silent] at behind
    cases behind

-- ---------------------------------------------------------------------------
-- Exporting words
-- ---------------------------------------------------------------------------

/-- Words are exported if all names are distinct then; else one of them is refused as a name that is
there twice. -/
theorem exportWords_cases (m : Interface) (distinct : m.exports.Nodup) (ws : List Token) :
    ((m.exports ++ ws.map Token.text).Nodup ∧
        exportWords m ws = .ok { m with exports := m.exports ++ ws.map Token.text }) ∨
      (¬ (m.exports ++ ws.map Token.text).Nodup ∧ ∃ t ∈ ws,
        2 ≤ (m.exports ++ ws.map Token.text).count t.text ∧
          exportWords m ws = .error ⟨.duplicateExport t.text, t.start⟩) := by
  induction ws generalizing m with
  | nil =>
    left
    rw [List.map_nil, List.append_nil]
    exact ⟨distinct, rfl⟩
  | cons t ws ih =>
    by_cases there : t.text ∈ m.exports
    · right
      have first : 1 ≤ m.exports.count t.text := List.one_le_count_iff.2 there
      have twice : 2 ≤ (m.exports ++ (t :: ws).map Token.text).count t.text := by
        rw [List.map_cons, List.count_append, List.count_cons_self]
        omega
      refine ⟨fun nodup => ?_, t, List.mem_cons_self, twice, ?_⟩
      · have := List.nodup_iff_count_le_one.1 nodup t.text
        omega
      · have refused : m.addExport t t.text = .error ⟨.duplicateExport t.text, t.start⟩ :=
          if_pos there
        rw [exportWords, List.foldlM_cons, refused]
        rfl
    · let m' : Interface := { m with exports := m.exports ++ [t.text] }
      have added : m.addExport t t.text = .ok m' := if_neg there
      have step : exportWords m (t :: ws) = exportWords m' ws := by
        rw [exportWords, List.foldlM_cons, added]
        rfl
      have names : m.exports ++ (t :: ws).map Token.text = m'.exports ++ ws.map Token.text := by
        simp [m']
      have distinct' : m'.exports.Nodup := by
        refine List.nodup_append_comm.1 ?_
        exact List.nodup_cons.2 ⟨there, distinct⟩
      rw [step, names]
      refine (ih m' distinct').imp id ?_
      rintro ⟨repeated, u, mem, twice, refused⟩
      exact ⟨repeated, u, List.mem_cons_of_mem t mem, twice, refused⟩

end Esm.Interface

namespace Esm.Grammar

open Interface

/-- The tokens of `export const pattern = code`, or with another declarator. -/
def destructuring (declarator : Declarator) (p : Pattern) (code : Passage) : List Token :=
  keyword "export" :: declarator.keyword :: (p.tokens ++ mark "=" :: code.tokens)

theorem exportDeclaration_opener (stop : Nat) (m : Interface) (e : Token) {d opener : Token}
    {declarator : Declarator} {group : Group} (declares : declarator.keyword.Alike d)
    (opening : group.opener.Alike opener) (ts : List Token) :
    exportDeclaration stop e m (d :: opener :: ts) =
      bindingPattern stop m 0 false (opener :: ts) := by
  obtain ⟨_, i, _⟩ := d
  obtain ⟨_, j, _⟩ := opener
  obtain ⟨rfl, rfl⟩ := declares
  obtain ⟨rfl, rfl⟩ := opening
  cases declarator with
  | const_ => cases group <;> rfl
  | let_ => cases group <;> rfl
  | var_ => cases group <;> rfl

/-- Behind a declarator, a pattern exports the words that count as names between its brackets. -/
theorem exportDeclaration_pattern (stop : Nat) (m : Interface) (e : Token)
    {d opener closer : Token} {inner : List Token} {declarator : Declarator} {group : Group}
    {parts : List Part} (declares : declarator.keyword.Alike d)
    (opening : group.opener.Alike opener)
    (within : AllAlike (separated (Part.eachTokens parts)) inner)
    (closing : group.closer.Alike closer) (rest : List Token) :
    exportDeclaration stop e m (d :: opener :: (inner ++ closer :: rest)) = (do
      let m ← exportWords m (namesIn false inner [closer])
      .ok (m, rest)) := by
  have kind : opener.kind = .punctuator := opening.kind.trans group.opener_kind
  have kind' : closer.kind = .punctuator := closing.kind.trans group.closer_kind
  have closes : closerOf opener.text = some closer.text := by
    rw [opening.text, closing.text, group.closes]
  have nested : Nested inner := (Part.nested_separated parts).alike within
  -- the closing bracket hides what comes behind it
  have same : namesIn false inner (closer :: rest) = namesIn false inner [closer] := by
    apply namesIn_congr
    rfl
  rw [exportDeclaration_opener stop m e declares opening,
    bindingPattern_enclosed stop m kind kind' closes nested, same]

/-- What a pattern is bound to is passed over. -/
theorem statements_value (stop : Nat) (m : Interface) {sign : Token} (equals : (mark "=").Alike sign)
    {value : List Token} (silent : Silent false value) (i : Nat) (us : List Token) :
    statements stop m [] false (sign :: (value ++ ⟨.punctuator, i, ";"⟩ :: us)) =
      statements stop m [] false us := by
  have plain : isDelimiter sign = false := (alike_isDelimiter equals).trans rfl
  have noWord : ∀ word, sign.isWord word = false := fun word => (equals.isWord word).trans rfl
  rw [statements_plain _ _ _ _ _ plain fun _ _ => ⟨noWord _, noWord _⟩, equals.text]
  exact statements_silent stop m false silent i us

/-- An exported pattern exports the words that count as names in it; what comes behind its semicolon
is read next. -/
theorem statements_destructuring (stop : Nat) (declarator : Declarator) (group : Group)
    (parts : List Part) (code : Passage) {ds : List Token}
    (alike : AllAlike (destructuring declarator (.enclosed group parts) code ++ [mark ";"]) ds)
    (us : List Token) : ∃ ws, AllAlike (Pattern.enclosed group parts).words ws ∧ ws ⊆ ds ∧
      ∀ m, statements stop m [] false (ds ++ us) = (do
        let m ← exportWords m ws
        statements stop m [] false us) := by
  have shape : destructuring declarator (.enclosed group parts) code ++ [mark ";"] =
      keyword "export" :: declarator.keyword :: group.opener ::
        (separated (Part.eachTokens parts) ++ group.closer :: mark "=" ::
          (code.tokens ++ [mark ";"])) := by
    simp [destructuring, Pattern.tokens]
  rw [shape] at alike
  rcases alike with _ | @⟨_, e, _, _, export_, _ | @⟨_, d, _, _, declares,
    _ | @⟨_, opener, _, _, opening, others⟩⟩⟩
  obtain ⟨inner, _, rfl, within, behind⟩ := AllAlike.of_append others
  rcases behind with _ | @⟨_, closer, _, _, closing, _ | @⟨_, sign, _, _, equals, bound⟩⟩
  obtain ⟨value, _, rfl, said, last⟩ := AllAlike.of_append bound
  rcases last with _ | @⟨_, semicolon, _, _, ends, _ | _⟩
  obtain ⟨_, i, _⟩ := semicolon
  obtain ⟨rfl, rfl⟩ := ends
  refine ⟨namesIn false inner [closer], ?_, ?_, fun m => ?_⟩
  · have words := Part.namesIn_separated parts group.endsPart []
    rw [Pattern.words, Pattern.leaves, ← words]
    exact namesIn_alike within (.cons closing .nil) false
  · intro t mem
    obtain ⟨before, after, rfl, -⟩ := mem_namesIn.1 mem
    simp
  · let rest := sign :: (value ++ ⟨.punctuator, i, ";"⟩ :: us)
    have whole : e :: d :: opener :: (inner ++ closer :: sign ::
        (value ++ [⟨.punctuator, i, ";"⟩])) ++ us =
          e :: d :: opener :: (inner ++ closer :: rest) := by
      simp [rest]
    show statements stop m [] false (e :: d :: opener :: (inner ++ closer :: sign ::
        (value ++ [⟨.punctuator, i, ";"⟩])) ++ us) = _
    rw [whole, statements_export _ _ _ ((export_.isWord "export").trans rfl),
      exportDeclaration_pattern stop m e declares opening within closing, bind_assoc]
    exact bind_congr fun m' => statements_value stop m' equals (code.silent.alike said) i us

variable {stop stop' : Nat} {ts ds us : List Token} {a b : Interface}

/-- A module that exports nothing but a pattern exports the words that count as names in it. -/
theorem ofTokens_words (declarator : Declarator) (group : Group) (parts : List Part)
    (code : Passage)
    (alike : AllAlike (destructuring declarator (.enclosed group parts) code ++ [mark ";"]) ds)
    (comes : Comes stop (ds ++ us) a empty [] false ts) (read : ofTokens stop' us = .ok b)
    (behind : b.exports = []) :
    ∃ ws, ws.map Token.text = (Pattern.enclosed group parts).words.map Token.text ∧ ws ⊆ ds ∧
      ofTokens stop ts = (do
        let m ← exportWords a ws
        .ok (m.join b)) := by
  obtain ⟨ws, words, within, step⟩ :=
    statements_destructuring stop declarator group parts code alike us
  refine ⟨ws, words.map_text, within, ?_⟩
  unfold ofTokens
  rw [comes.statements_eq, step a]
  exact bind_congr fun m => statements_join m read behind

/-- A module that exports nothing but a pattern exports exactly the names that the pattern binds if
and only if these are distinct and no word of an expression is mistaken for one. If a name is bound
twice the module is refused, and unless a word is mistaken, it is for such a name. If the module is
accepted, all its exports are names that are bound just if no word is mistaken. -/
theorem ofTokens_destructuring (declarator : Declarator) (group : Group) (parts : List Part)
    (code : Passage)
    (alike : AllAlike (destructuring declarator (.enclosed group parts) code ++ [mark ";"]) ds)
    (comes : Comes stop (ds ++ us) a empty [] false ts) (before : a.exports = [])
    (read : ofTokens stop' us = .ok b) (behind : b.exports = []) :
    let p := Pattern.enclosed group parts
    (ofTokens stop ts = .ok { a.join b with exports := p.bound } ↔
        p.bound.Nodup ∧ p.Unmistakable) ∧
      (¬ p.bound.Nodup → ∃ t ∈ ds,
        ofTokens stop ts = .error ⟨.duplicateExport t.text, t.start⟩ ∧
          (p.Unmistakable → 2 ≤ p.bound.count t.text)) ∧
      ∀ m, ofTokens stop ts = .ok m → (m.exports ⊆ p.bound ↔ p.Unmistakable) := by
  intro p
  obtain ⟨ws, names, within, run⟩ :=
    ofTokens_words declarator group parts code alike comes read behind
  have found : p.bound.Sublist (ws.map Token.text) := names ▸ p.bound_sublist
  have exact_ : ws.map Token.text = p.bound ↔ p.Unmistakable := names ▸ p.words_eq_bound
  have cases_ := exportWords_cases a (before ▸ List.nodup_nil) ws
  rw [before, List.nil_append] at cases_
  obtain ⟨distinct, exported⟩ | ⟨repeated, t, mem, twice, refused⟩ := cases_
  · have accepted : ofTokens stop ts = .ok { a.join b with exports := ws.map Token.text } := by
      rw [run, exported]
      simp [bind, Except.bind, join, behind]
    rw [accepted]
    refine ⟨?_, fun repeated => absurd (distinct.sublist found) repeated, ?_⟩
    · constructor
      · intro same
        have same : ws.map Token.text = p.bound := by
          injection same with same
          injection same
        exact ⟨same ▸ distinct, exact_.1 same⟩
      · rintro ⟨-, unmistakable⟩
        rw [exact_.2 unmistakable]
    · rintro m ⟨⟩
      refine ⟨fun subset => exact_.1 ?_, fun unmistakable => ?_⟩
      · have fewer := (distinct.subperm subset).length_le
        exact (found.eq_of_length_le fewer).symm
      · show ws.map Token.text ⊆ p.bound
        rw [exact_.2 unmistakable]
        exact List.Subset.refl _
  · have rejected : ofTokens stop ts = .error ⟨.duplicateExport t.text, t.start⟩ := by
      rw [run, refused]
      rfl
    rw [rejected]
    refine ⟨⟨?_, ?_⟩, fun _ => ⟨t, within mem, rfl, fun unmistakable => ?_⟩, ?_⟩
    · intro accepted
      cases accepted
    · rintro ⟨distinct, unmistakable⟩
      exact absurd (exact_.2 unmistakable ▸ distinct) repeated
    · exact exact_.2 unmistakable ▸ twice
    · intro m accepted
      cases accepted

/-- Defaults, keys and patterns within patterns, between an import and exports passed on. -/
theorem ofTokens_destructuring_nested : ∃ ts,
    tokenize "import'm'\nexport const \x7ba = f(x), [k()]: [b, , ...c]\x7d = o;export*from'n'" =
        .ok ts ∧
      ofTokens 72 ts = .ok ⟨["m", "n"], ["a", "b", "c"], ["n"]⟩ := by
  let a : Token := ⟨.identifier, 24, "a"⟩
  let b : Token := ⟨.identifier, 42, "b"⟩
  let c : Token := ⟨.identifier, 50, "c"⟩
  let call : List Token := [⟨.identifier, 28, "f"⟩, ⟨.punctuator, 29, "("⟩, ⟨.identifier, 30, "x"⟩,
    ⟨.punctuator, 31, ")"⟩]
  let key : List Token := [⟨.identifier, 35, "k"⟩, ⟨.punctuator, 36, "("⟩, ⟨.punctuator, 37, ")"⟩]
  let ds : List Token := [⟨.identifier, 10, "export"⟩, ⟨.identifier, 17, "const"⟩,
    ⟨.punctuator, 23, "\x7b"⟩, a, ⟨.punctuator, 26, "="⟩] ++ call ++ [⟨.punctuator, 32, ","⟩,
    ⟨.punctuator, 34, "["⟩] ++ key ++ [⟨.punctuator, 38, "]"⟩, ⟨.punctuator, 39, ":"⟩,
    ⟨.punctuator, 41, "["⟩, b, ⟨.punctuator, 43, ","⟩, ⟨.punctuator, 45, ","⟩,
    ⟨.punctuator, 47, "."⟩, ⟨.punctuator, 48, "."⟩, ⟨.punctuator, 49, "."⟩, c,
    ⟨.punctuator, 51, "]"⟩, ⟨.punctuator, 52, "\x7d"⟩, ⟨.punctuator, 54, "="⟩,
    ⟨.identifier, 56, "o"⟩, ⟨.punctuator, 57, ";"⟩]
  let us : List Token := [⟨.identifier, 58, "export"⟩, ⟨.punctuator, 64, "*"⟩,
    ⟨.identifier, 65, "from"⟩, ⟨.string, 69, "'n'"⟩]
  let ts : List Token := ⟨.identifier, 0, "import"⟩ :: ⟨.string, 6, "'m'"⟩ :: (ds ++ us)
  have scanned : tokenize
      "import'm'\nexport const \x7ba = f(x), [k()]: [b, , ...c]\x7d = o;export*from'n'" = .ok ts :=
    eq_ok_of_toOption (by decide +kernel)
  have each : ∀ t ∈ ts, t.Scanned := Scanner.scanned_of_mem_tokens scanned
  have called : Undivided call := .cons rfl rfl (.bracket rfl rfl rfl (.cons rfl .nil) .nil)
  have keyed : Undivided key := .cons rfl rfl (.bracket rfl rfl rfl .nil .nil)
  let name (t : Token) (kind : t.kind = .identifier) (mem : t ∈ ts) : Name := ⟨t, kind, each t mem⟩
  let parts : List Part := [
    .item none (.name (name a rfl (by decide))) (some ⟨call, called⟩),
    .item (some (.computed ⟨key, keyed⟩)) (.enclosed .array [
      .item none (.name (name b rfl (by decide))) none, .hole,
      .rest (.name (name c rfl (by decide)))]) none]
  let value : Passage := ⟨[⟨.identifier, 56, "o"⟩], .cons rfl (fun _ => ⟨rfl, rfl⟩) .nil⟩
  have alike : AllAlike (destructuring .const_ (.enclosed .object parts) value ++ [mark ";"]) ds := by
    repeat refine .cons ⟨rfl, rfl⟩ ?_
    exact .nil
  let specifier : Literal := ⟨⟨.string, 6, "'m'"⟩, rfl, each _ (by decide)⟩
  have requested : specifier.token.stringValue = "m" :=
    show Token.stringValue ⟨.string, 6, "'m'"⟩ = "m" by decide
  have imported : importDeclaration 72 ⟨.identifier, 0, "import"⟩ empty
      (specifier.token :: (ds ++ us)) = .ok (⟨["m"], [], []⟩, ds ++ us) := by
    rw [importDeclaration_literal, requested]
    rfl
  have read : ofTokens 72 us = .ok ⟨["n"], [], ["n"]⟩ := eq_ok_of_toOption (by decide +kernel)
  have bound : (Pattern.enclosed .object parts).bound = ["a", "b", "c"] := rfl
  have words : (Pattern.enclosed .object parts).words.map Token.text = ["a", "b", "c"] := rfl
  obtain ⟨exported, -, -⟩ := ofTokens_destructuring .const_ .object parts value alike
    (.import_ rfl imported .here) rfl read rfl
  rw [bound] at exported
  have unmistakable := (Pattern.words_eq_bound (.enclosed .object parts)).1 (words.trans bound.symm)
  exact ⟨ts, scanned, exported.2 ⟨by decide, unmistakable⟩⟩

/-- A comma in a default value: the pattern binds one name, and a second one is exported. -/
theorem ofTokens_destructuring_mistaken : ∃ parts code ts,
    tokenize "export const \x7ba = f(1, b, c)\x7d = o;" = .ok ts ∧
      AllAlike (destructuring .const_ (.enclosed .object parts) code ++ [mark ";"]) ts ∧
      (Pattern.enclosed .object parts).bound = ["a"] ∧
      ofTokens 34 ts = .ok ⟨[], ["a", "b"], []⟩ := by
  let a : Token := ⟨.identifier, 14, "a"⟩
  let inner : List Token := [⟨.number, 20, "1"⟩, ⟨.punctuator, 21, ","⟩, ⟨.identifier, 23, "b"⟩,
    ⟨.punctuator, 24, ","⟩, ⟨.identifier, 26, "c"⟩]
  let call : List Token := ⟨.identifier, 18, "f"⟩ :: ⟨.punctuator, 19, "("⟩ ::
    (inner ++ [⟨.punctuator, 27, ")"⟩])
  let ts : List Token := [⟨.identifier, 0, "export"⟩, ⟨.identifier, 7, "const"⟩,
    ⟨.punctuator, 13, "\x7b"⟩, a, ⟨.punctuator, 16, "="⟩] ++ call ++ [⟨.punctuator, 28, "\x7d"⟩,
    ⟨.punctuator, 30, "="⟩, ⟨.identifier, 32, "o"⟩, ⟨.punctuator, 33, ";"⟩]
  have scanned : tokenize "export const \x7ba = f(1, b, c)\x7d = o;" = .ok ts :=
    eq_ok_of_toOption (by decide +kernel)
  have nested : Nested inner := Plain.nested (show ∀ t ∈ inner, isDelimiter t = false by decide)
  have called : Undivided call := .cons rfl rfl (.bracket rfl rfl rfl nested .nil)
  let name : Name := ⟨a, rfl, Scanner.scanned_of_mem_tokens scanned a (by decide)⟩
  let value : Passage := ⟨[⟨.identifier, 32, "o"⟩], .cons rfl (fun _ => ⟨rfl, rfl⟩) .nil⟩
  have read : ofTokens 34 ts = .ok ⟨[], ["a", "b"], []⟩ := eq_ok_of_toOption (by decide +kernel)
  refine ⟨[.item none (.name name) (some ⟨call, called⟩)], value, ts, scanned, ?_, rfl, read⟩
  repeat refine .cons ⟨rfl, rfl⟩ ?_
  exact .nil

end Esm.Grammar
