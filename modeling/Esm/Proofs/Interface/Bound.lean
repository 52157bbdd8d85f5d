-- SUMMARY: The words of a pattern that are exported: the names it binds, and words that are mistaken for such.
import Esm.Proofs.Interface.Patterns

/-!
# Words taken for names

A pattern is read without a tree: a word counts as a name that is bound if one of the tokens that
can stand behind a name stands behind it, and no default value seems to go on. A default value seems
to end at every comma and closing bracket, also at those inside it; and no default value seems to go
on in a key. So every name that a pattern binds is exported, and besides these the words of
expressions that look alike.
-/

namespace Esm.Interface

-- ---------------------------------------------------------------------------
-- The scan
-- ---------------------------------------------------------------------------

/-- Whether a name can end before the token. -/
def endsName (t : Token) : Bool := [",", "\x7d", "]", "="].contains t.text

/-- Whether a default value seems to go on behind the token. -/
def defaultBehind (inDefault : Bool) (t : Token) : Bool :=
  if t.kind = .punctuator then
    if t.text = "=" then true
    else if t.text = "," || isCloser t.text then false
    else inDefault
  else inDefault

/-- Whether the token is a word that counts as a name, with the tokens `us` behind it. -/
def countsAsName (inDefault : Bool) (t : Token) (us : List Token) : Bool :=
  t.kind == .identifier && !inDefault && nextIs endsName us

/-- The words that count as names, with the tokens `rest` behind all. -/
def namesIn (inDefault : Bool) : List Token → List Token → List Token
  | [], _ => []
  | t :: ts, rest =>
    if countsAsName inDefault t (ts ++ rest) then t :: namesIn (defaultBehind inDefault t) ts rest
    else namesIn (defaultBehind inDefault t) ts rest

variable {inDefault : Bool} {t : Token} {ts us rest rest' : List Token}

theorem namesIn_append (inDefault : Bool) (ts us rest : List Token) :
    namesIn inDefault (ts ++ us) rest =
      namesIn inDefault ts (us ++ rest) ++ namesIn (ts.foldl defaultBehind inDefault) us rest := by
  induction ts generalizing inDefault with
  | nil => rfl
  | cons t ts ih =>
    simp only [List.cons_append, namesIn, List.append_assoc, List.foldl_cons, ih]
    split <;> rfl

/-- What comes behind matters to the last token only. -/
theorem namesIn_congr (same : nextIs endsName rest = nextIs endsName rest') (inDefault : Bool)
    (ts : List Token) : namesIn inDefault ts rest = namesIn inDefault ts rest' := by
  induction ts generalizing inDefault with
  | nil => rfl
  | cons t ts ih =>
    have next : nextIs endsName (ts ++ rest) = nextIs endsName (ts ++ rest') := by
      cases ts with
      | nil => exact same
      | cons => rfl
    have counts : countsAsName inDefault t (ts ++ rest) = countsAsName inDefault t (ts ++ rest') := by
      simp only [countsAsName, next]
    simp only [namesIn, counts, ih]

theorem namesIn_cons_other (other : t.kind ≠ .identifier) :
    namesIn inDefault (t :: ts) rest = namesIn (defaultBehind inDefault t) ts rest := by
  have passed : countsAsName inDefault t (ts ++ rest) = false := by
    simp [countsAsName, other]
  rw [namesIn, passed]
  rfl

theorem nextIs_endsName {ts ts' : List Token} (alike : AllAlike ts ts') :
    nextIs endsName ts' = nextIs endsName ts := by
  cases alike with
  | nil => rfl
  | cons same _ => simp [nextIs, endsName, same.text]

theorem namesIn_alike {ts ts' : List Token} (alike : AllAlike ts ts')
    (behind : AllAlike rest rest') (inDefault : Bool) :
    AllAlike (namesIn inDefault ts rest) (namesIn inDefault ts' rest') := by
  induction alike generalizing inDefault with
  | nil => exact .nil
  | @cons t t' ts ts' first others ih =>
    have next : nextIs endsName (ts' ++ rest') = nextIs endsName (ts ++ rest) :=
      nextIs_endsName (List.rel_append others behind)
    have counts : countsAsName inDefault t' (ts' ++ rest') =
        countsAsName inDefault t (ts ++ rest) := by
      simp only [countsAsName, first.kind, next]
    have flag : defaultBehind inDefault t' = defaultBehind inDefault t := by
      simp only [defaultBehind, first.kind, first.text]
    simp only [namesIn, counts, flag]
    split
    · exact .cons first (ih _)
    · exact ih _

-- ---------------------------------------------------------------------------
-- Reading a pattern
-- ---------------------------------------------------------------------------

/-- Export words one after the other. -/
def exportWords (m : Interface) (ts : List Token) : Except Failure Interface :=
  ts.foldlM (fun m t => m.addExport t t.text) m

theorem isCloser_eq (text : String) : ["\x7d", "]", ")"].contains text = isCloser text := by
  simp only [isCloser, List.contains_cons, List.contains_nil, Bool.or_false]
  cases text == "\x7d" <;> cases text == "]" <;> cases text == ")" <;> rfl

theorem isOpener_eq (text : String) :
    ["\x7b", "[", "("].contains text = (closerOf text).isSome := by
  unfold closerOf
  simp only [List.contains_cons, List.contains_nil, Bool.or_false]
  split
  · simp_all
  split
  · simp_all
  split
  · simp_all
  · simp_all

variable (stop : Nat) (m : Interface) (depth : Nat) (inDefault)

/-- A token that is no bracket is exported if it counts as a name. -/
theorem bindingPattern_plain (plain : isDelimiter t = false) (us : List Token) :
    bindingPattern stop m depth inDefault (t :: us) = (do
      let m ← exportWords m (if countsAsName inDefault t us then [t] else [])
      bindingPattern stop m depth (defaultBehind inDefault t) us) := by
  by_cases kind : t.kind = .punctuator
  · have noName : countsAsName inDefault t us = false := by
      simp [countsAsName, kind]
    simp only [isDelimiter, kind, BEq.rfl, Bool.true_and, Bool.or_eq_false_iff] at plain
    rw [noName, bindingPattern]
    simp only [kind, isOpener_eq, isCloser_eq, plain, defaultBehind, Bool.false_eq_true, if_false,
      if_true, Bool.or_false, decide_eq_true_eq]
    show _ = (pure m >>= _)
    rw [pure_bind]
    by_cases comma : t.text = ","
    · simp [comma]
    · by_cases equals : t.text = "=" <;> simp [comma, equals]
  · have same : defaultBehind inDefault t = inDefault := if_neg kind
    rw [same, bindingPattern]
    by_cases word : t.kind = .identifier
    · have next : nextIs (fun next => [",", "\x7d", "]", "="].contains next.text) us =
          nextIs endsName us := rfl
      have counts : countsAsName inDefault t us = (!inDefault && nextIs endsName us) := by
        simp [countsAsName, word]
      simp only [word, next, counts]
      split
      · show _ = (exportWords m [t] >>= _)
        have single : exportWords m [t] = m.addExport t t.text := bind_pure _
        rw [single]
        cases m.addExport t t.text <;> rfl
      · rfl
    · have noName : countsAsName inDefault t us = false := by
        simp [countsAsName, word]
      rw [noName]
      show _ = (pure m >>= _)
      rw [pure_bind]
      split <;> simp_all

theorem bindingPattern_opener (kind : t.kind = .punctuator)
    (opens : (closerOf t.text).isSome = true) (us : List Token) :
    bindingPattern stop m depth inDefault (t :: us) =
      bindingPattern stop m (depth + 1) inDefault us := by
  rw [bindingPattern]
  simp only [kind, isOpener_eq, opens, if_true]

theorem bindingPattern_closer (kind : t.kind = .punctuator)
    (shuts : (closerOf t.text).isSome = false) (closer : isCloser t.text = true)
    (us : List Token) :
    bindingPattern stop m depth inDefault (t :: us) =
      if depth ≤ 1 then .ok (m, us) else bindingPattern stop m (depth - 1) false us := by
  rw [bindingPattern]
  simp only [kind, isOpener_eq, isCloser_eq, shuts, closer, if_true, Bool.false_eq_true, if_false]

theorem exportWords_append (ts us : List Token) :
    exportWords m (ts ++ us) = (do exportWords (← exportWords m ts) us) :=
  List.foldlM_append

/-- An opening bracket leaves the flag as it is. -/
theorem defaultBehind_opener (opens : (closerOf t.text).isSome = true) :
    defaultBehind inDefault t = inDefault := by
  unfold defaultBehind
  unfold closerOf at opens
  split
  · split at opens
    · rename_i same
      simp [same, isCloser]
    split at opens
    · rename_i same
      simp [same, isCloser]
    split at opens
    · rename_i same
      simp [same, isCloser]
    · cases opens
  · rfl

theorem defaultBehind_closer (kind : t.kind = .punctuator) (closer : isCloser t.text = true) :
    defaultBehind inDefault t = false := by
  have other : t.text ≠ "=" := by
    intro same
    rw [same] at closer
    cases closer
  simp [defaultBehind, kind, closer, other]

/-- Inside brackets, tokens in which brackets nest are exported as far as they count as names. -/
theorem bindingPattern_nested {depth : Nat} (inside : 1 ≤ depth) (nested : Nested ts)
    (rest : List Token) :
    bindingPattern stop m depth inDefault (ts ++ rest) = (do
      let m ← exportWords m (namesIn inDefault ts rest)
      bindingPattern stop m depth (ts.foldl defaultBehind inDefault) rest) := by
  induction nested generalizing m depth inDefault rest with
  | nil => rfl
  | @cons t ts plain _ ih =>
    have first : namesIn inDefault (t :: ts) rest =
        (if countsAsName inDefault t (ts ++ rest) then [t] else []) ++
          namesIn (defaultBehind inDefault t) ts rest := by
      rw [namesIn]
      split <;> rfl
    rw [List.cons_append, bindingPattern_plain _ _ _ _ plain, first, exportWords_append, bind_assoc]
    exact bind_congr fun m' => ih _ m' inside rest
  | @bracket opener closer inner ts kind kind' closes _ _ ihInner ih =>
    have opens : (closerOf opener.text).isSome = true := by
      rw [closes]
      rfl
    obtain ⟨shuts, closer_⟩ := closerOf_closer closes
    have noName : ∀ {t : Token}, t.kind = .punctuator → t.kind ≠ .identifier :=
      fun kind => kind ▸ by decide
    have deeper : ¬ depth + 1 ≤ 1 := by omega
    rw [List.cons_append, List.append_assoc, List.cons_append,
      bindingPattern_opener _ _ _ _ kind opens, ihInner _ _ (by omega),
      namesIn_cons_other (noName kind), defaultBehind_opener _ opens, namesIn_append,
      exportWords_append, bind_assoc, List.foldl_cons, defaultBehind_opener _ opens,
      List.foldl_append, List.foldl_cons, defaultBehind_closer _ kind' closer_]
    refine bind_congr fun m' => ?_
    rw [bindingPattern_closer _ _ _ _ kind' (by rw [shuts]; rfl) closer_, if_neg deeper,
      namesIn_cons_other (noName kind'), defaultBehind_closer _ kind' closer_]
    exact ih false m' inside rest

/-- A whole pattern exports what counts as a name between its brackets. -/
theorem bindingPattern_enclosed {opener closer : Token} {inner : List Token}
    (kind : opener.kind = .punctuator) (kind' : closer.kind = .punctuator)
    (closes : closerOf opener.text = some closer.text) (nested : Nested inner)
    (rest : List Token) :
    bindingPattern stop m 0 false (opener :: (inner ++ closer :: rest)) = (do
      let m ← exportWords m (namesIn false inner (closer :: rest))
      .ok (m, rest)) := by
  obtain ⟨shuts, closer_⟩ := closerOf_closer closes
  rw [bindingPattern_opener _ _ _ _ kind (by rw [closes]; rfl),
    bindingPattern_nested _ _ _ (Nat.le_refl 1) nested]
  refine bind_congr fun m' => ?_
  rw [bindingPattern_closer _ _ _ _ kind' (by rw [shuts]; rfl) closer_, if_pos (Nat.le_refl 1)]

-- ---------------------------------------------------------------------------
-- Words that are mistaken for names
-- ---------------------------------------------------------------------------

variable {inDefault}

theorem mem_namesIn : t ∈ namesIn inDefault ts rest ↔ ∃ before after, ts = before ++ t :: after ∧
    countsAsName (before.foldl defaultBehind inDefault) t (after ++ rest) = true := by
  induction ts generalizing inDefault with
  | nil => simp [namesIn]
  | cons u ts ih =>
    have split_ : t ∈ namesIn inDefault (u :: ts) rest ↔
        (t = u ∧ countsAsName inDefault u (ts ++ rest) = true) ∨
          t ∈ namesIn (defaultBehind inDefault u) ts rest := by
      rw [namesIn]
      split <;> simp_all
    rw [split_, ih]
    constructor
    · rintro (⟨rfl, counts⟩ | ⟨before, after, rfl, counts⟩)
      · exact ⟨[], ts, rfl, counts⟩
      · exact ⟨u :: before, after, rfl, counts⟩
    · rintro ⟨before, after, whole, counts⟩
      cases before with
      | nil =>
        cases whole
        exact Or.inl ⟨rfl, counts⟩
      | cons v before =>
        cases whole
        exact Or.inr ⟨before, after, rfl, counts⟩

/-- Some word of an expression is mistaken for a name that is bound: it is the last token, or has a
token behind it that can stand behind a name, and by then no default value seems to go on. The
expression is in a default value or, if not `inDefault`, in a key. -/
def Mistaken (inDefault : Bool) (ts : List Token) : Prop :=
  ∃ before t after, ts = before ++ t :: after ∧ t.kind = .identifier ∧
    (∀ u ∈ after.head?, endsName u = true) ∧ before.foldl defaultBehind inDefault = false

theorem namesIn_eq_nil (ends : nextIs endsName rest = true) :
    namesIn inDefault ts rest = [] ↔ ¬ Mistaken inDefault ts := by
  have next : ∀ after : List Token, nextIs endsName (after ++ rest) = true ↔
      ∀ u ∈ after.head?, endsName u = true := by
    intro after
    cases after with
    | nil => simpa using ends
    | cons u after => simp [nextIs]
  rw [List.eq_nil_iff_forall_not_mem]
  simp only [mem_namesIn, countsAsName, Bool.and_eq_true, beq_iff_eq, Bool.not_eq_true', next]
  constructor
  · rintro none ⟨before, t, after, whole, word, behind, flag⟩
    exact none t ⟨before, after, whole, ⟨word, flag⟩, behind⟩
  · rintro none t ⟨before, after, whole, ⟨word, flag⟩, behind⟩
    exact none ⟨before, t, after, whole, word, behind, flag⟩

end Esm.Interface

namespace Esm.Grammar

open Interface

-- ---------------------------------------------------------------------------
-- Names of a pattern
-- ---------------------------------------------------------------------------

/-- The words at a leaf that count as names. -/
def Leaf.words : Leaf → List Token
  | .name bound => [bound.token]
  | .key expression => namesIn false expression.tokens [mark "]"]
  | .default_ expression => namesIn true expression.tokens [mark ","]

/-- A comma, or the closing bracket of a pattern. -/
def EndsPart (t : Token) : Prop := t.kind = .punctuator ∧ t.text ∈ [",", "\x7d", "]"]

theorem Group.endsPart (group : Group) : EndsPart group.closer := by
  cases group <;> exact ⟨rfl, by decide⟩

theorem endsPart_comma : EndsPart (mark ",") := ⟨rfl, by decide⟩

theorem endsPart_square : EndsPart (mark "]") := ⟨rfl, by decide⟩

namespace EndsPart

variable {c : Token} (ends : EndsPart c)

include ends

theorem nextIs_cons (rest : List Token) : nextIs endsName (c :: rest) = true := by
  have among := ends.2
  simp only [List.mem_cons, List.not_mem_nil, or_false] at among
  show endsName c = true
  obtain same | same | same := among <;> simp [endsName, same]

theorem defaultBehind_eq (inDefault : Bool) : defaultBehind inDefault c = false := by
  have among := ends.2
  simp only [List.mem_cons, List.not_mem_nil, or_false] at among
  obtain same | same | same := among <;> simp [defaultBehind, ends.1, same, isCloser]

theorem namesIn_cons (inDefault : Bool) (ts rest : List Token) :
    namesIn inDefault (c :: ts) rest = namesIn false ts rest := by
  have other : c.kind ≠ .identifier := by
    rw [ends.1]
    decide
  rw [namesIn_cons_other other, ends.defaultBehind_eq]

end EndsPart

theorem namesIn_keyTokens (key : Option Key) (rest : List Token) :
    namesIn false (keyTokens key) rest = (keyLeaves key).flatMap Leaf.words ∧
      (keyTokens key).foldl defaultBehind false = false := by
  cases key with
  | none => exact ⟨rfl, rfl⟩
  | some key =>
    cases key with
    | label name =>
      -- a colon stands behind the label
      have passed : countsAsName false name.token (mark ":" :: rest) = false := by
        simp [countsAsName, nextIs, endsName, mark]
      have flag : defaultBehind false name.token = false := if_neg name.kind_ne
      have alone : namesIn false [name.token, mark ":"] rest = [] := by
        rw [namesIn, List.singleton_append, passed, flag]
        rfl
      refine ⟨alone, ?_⟩
      show defaultBehind (defaultBehind false name.token) (mark ":") = false
      rw [flag]
      rfl
    | computed expression =>
      have behind := endsPart_square.nextIs_cons (mark ":" :: rest)
      have same := namesIn_congr (behind.trans (endsPart_square.nextIs_cons []).symm) false
        expression.tokens
      have whole : keyTokens (some (.computed expression)) =
          mark "[" :: (expression.tokens ++ mark "]" :: [mark ":"]) := by
        simp [keyTokens, Key.tokens]
      rw [whole]
      constructor
      · show namesIn false (expression.tokens ++ mark "]" :: [mark ":"]) rest = _
        rw [namesIn_append, endsPart_square.namesIn_cons]
        show namesIn false expression.tokens (mark "]" :: mark ":" :: rest) ++ [] = _
        rw [same]
        rfl
      · rw [List.foldl_cons, List.foldl_append, List.foldl_cons, endsPart_square.defaultBehind_eq]
        rfl

theorem Pattern.foldl_tokens (p : Pattern) : p.tokens.foldl defaultBehind false = false := by
  cases p with
  | name name => simp [Pattern.tokens, defaultBehind, name.kind_eq]
  | enclosed group parts =>
    rw [Pattern.tokens, List.foldl_cons, List.foldl_append]
    exact group.endsPart.defaultBehind_eq _

theorem namesIn_defaultTokens (default_ : Option Expression) {c : Token} (ends : EndsPart c)
    (rest : List Token) : namesIn false (defaultTokens default_) (c :: rest) =
      (defaultLeaves default_).flatMap Leaf.words := by
  cases default_ with
  | none => rfl
  | some expression =>
    have same := namesIn_congr ((ends.nextIs_cons rest).trans (endsPart_comma.nextIs_cons []).symm)
      true expression.tokens
    show namesIn true expression.tokens (c :: rest) = _
    rw [same]
    exact (List.append_nil _).symm

theorem nextIs_defaultTokens (default_ : Option Expression) {c : Token} (ends : EndsPart c)
    (rest : List Token) : nextIs endsName (defaultTokens default_ ++ c :: rest) = true := by
  cases default_ with
  | none => exact ends.nextIs_cons rest
  | some expression => rfl

mutual

/-- The scan of a pattern finds the names that the pattern binds and what it finds in expressions. -/
theorem Pattern.namesIn_tokens : (p : Pattern) → (rest : List Token) →
    nextIs endsName rest = true → namesIn false p.tokens rest = p.leaves.flatMap Leaf.words
  | .name name, rest, ends => by
    have counts : countsAsName false name.token rest = true := by
      simp [countsAsName, name.kind_eq, ends]
    simp [Pattern.tokens, Pattern.leaves, Leaf.words, namesIn, counts]
  | .enclosed group parts, rest, _ => by
    have inner := Part.namesIn_separated parts group.endsPart rest
    have opener : namesIn false [group.opener] (separated (Part.eachTokens parts) ++
        group.closer :: rest) = [] := by
      cases group <;> rfl
    have flag : [group.opener].foldl defaultBehind false = false := by
      cases group <;> rfl
    rw [Pattern.tokens, Pattern.leaves, ← List.singleton_append, namesIn_append, List.append_assoc,
      List.singleton_append, opener, flag, namesIn_append, List.singleton_append, inner,
      group.endsPart.namesIn_cons, namesIn]
    simp

theorem Part.namesIn_tokens : (part : Part) → {c : Token} → EndsPart c → (rest : List Token) →
    namesIn false part.tokens (c :: rest) = part.leaves.flatMap Leaf.words
  | .hole, _, _, _ => rfl
  | .item key target default_, c, ends, rest => by
    obtain ⟨keyed, flag⟩ := namesIn_keyTokens key (target.tokens ++ defaultTokens default_ ++ c :: rest)
    have next := nextIs_defaultTokens default_ ends rest
    have target_ := Pattern.namesIn_tokens target _ next
    rw [Part.tokens, Part.leaves, namesIn_append, keyed, flag, namesIn_append, target_,
      target.foldl_tokens, namesIn_defaultTokens default_ ends, List.flatMap_append,
      List.flatMap_append]
  | .rest target, c, ends, rest => Pattern.namesIn_tokens target _ (ends.nextIs_cons rest)

theorem Part.namesIn_separated : (parts : List Part) → {c : Token} → EndsPart c →
    (rest : List Token) → namesIn false (separated (Part.eachTokens parts)) (c :: rest) =
      (Part.allLeaves parts).flatMap Leaf.words
  | [], _, _, _ => rfl
  | [part], c, ends, rest => by
    have single : separated (Part.eachTokens [part]) = part.tokens := List.intercalate_singleton
    rw [single, Part.namesIn_tokens part ends, Part.allLeaves, Part.allLeaves, List.append_nil]
  | part :: part' :: parts, c, ends, rest => by
    have whole : separated (Part.eachTokens (part :: part' :: parts)) = part.tokens ++ mark "," ::
        separated (Part.eachTokens (part' :: parts)) := separated_cons_cons _ _ _
    rw [whole, namesIn_append, endsPart_comma.namesIn_cons, List.cons_append,
      Part.namesIn_tokens part endsPart_comma, Part.namesIn_separated (part' :: parts) ends,
      Part.allLeaves.eq_2 part (part' :: parts), List.flatMap_append]

end

-- ---------------------------------------------------------------------------
-- Names that are bound
-- ---------------------------------------------------------------------------

/-- Some word of the leaf is mistaken for a name that is bound. -/
def Leaf.Mistaken : Leaf → Prop
  | .name _ => False
  | .key expression => Interface.Mistaken false expression.tokens
  | .default_ expression => Interface.Mistaken true expression.tokens

/-- No word of a default value or of a key is mistaken for a name that is bound. -/
def Pattern.Unmistakable (p : Pattern) : Prop := ∀ leaf ∈ p.leaves, ¬ leaf.Mistaken

/-- The words of a pattern that count as names. -/
def Pattern.words (p : Pattern) : List Token := p.leaves.flatMap Leaf.words

theorem Leaf.bound_sublist (leaf : Leaf) : (leaf.bound.map Lexed.token).Sublist leaf.words := by
  cases leaf with
  | name bound => exact List.Sublist.refl _
  | key expression => exact List.nil_sublist _
  | default_ expression => exact List.nil_sublist _

theorem Leaf.words_eq_bound (leaf : Leaf) :
    leaf.words = leaf.bound.map Lexed.token ↔ ¬ leaf.Mistaken := by
  cases leaf with
  | name bound => exact ⟨fun _ => id, fun _ => rfl⟩
  | key expression => exact namesIn_eq_nil rfl
  | default_ expression => exact namesIn_eq_nil rfl

theorem flatMap_bound_sublist (leaves : List Leaf) :
    ((leaves.flatMap Leaf.bound).map Lexed.token).Sublist (leaves.flatMap Leaf.words) := by
  induction leaves with
  | nil => exact List.Sublist.refl _
  | cons leaf leaves ih =>
    rw [List.flatMap_cons, List.flatMap_cons, List.map_append]
    exact leaf.bound_sublist.append ih

theorem flatMap_words_eq (leaves : List Leaf) :
    leaves.flatMap Leaf.words = (leaves.flatMap Leaf.bound).map Lexed.token ↔
      ∀ leaf ∈ leaves, ¬ leaf.Mistaken := by
  induction leaves with
  | nil => simp
  | cons leaf leaves ih =>
    rw [List.flatMap_cons, List.flatMap_cons, List.map_append, List.forall_mem_cons, ← ih,
      ← leaf.words_eq_bound]
    refine ⟨fun same => ?_, fun ⟨first, others⟩ => by rw [first, others]⟩
    -- neither of the two parts is longer than what it is compared with
    have lengths := congrArg List.length same
    simp only [List.length_append] at lengths
    have first := leaf.bound_sublist.length_le
    have others := (flatMap_bound_sublist leaves).length_le
    exact List.append_inj same (by omega)

/-- Whatever a pattern binds counts as a name. -/
theorem Pattern.bound_sublist (p : Pattern) : p.bound.Sublist (p.words.map Token.text) := by
  have names := (flatMap_bound_sublist p.leaves).map Token.text
  rwa [List.map_map] at names

/-- What counts as a name is what the pattern binds, unless a word is mistaken. -/
theorem Pattern.words_eq_bound (p : Pattern) :
    p.words.map Token.text = p.bound ↔ p.Unmistakable := by
  have bound : p.bound = ((p.leaves.flatMap Leaf.bound).map Lexed.token).map Token.text := by
    rw [List.map_map]
    rfl
  rw [Pattern.Unmistakable, ← flatMap_words_eq, bound]
  refine ⟨fun same => ?_, fun same => by rw [Pattern.words, same]⟩
  have lengths := congrArg List.length same
  rw [List.length_map, List.length_map] at lengths
  exact ((flatMap_bound_sublist p.leaves).eq_of_length lengths.symm).symm

end Esm.Grammar
