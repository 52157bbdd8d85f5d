-- SUMMARY: Destructuring patterns as syntax trees, with their tokens and the names that they bind.
import Esm.Proofs.Interface.Brackets
import Esm.Proofs.Interface.Statements

/-!
# Patterns

A pattern binds names: it is a name, or brackets around parts that are patterns again, perhaps with
a key before and a default value behind. What matters of a tree to its names are its leaves. Most of
them are names; the others are expressions, in default values and in keys, and bind nothing.
-/

namespace Esm.Grammar

open Interface

-- ---------------------------------------------------------------------------
-- Expressions
-- ---------------------------------------------------------------------------

/-- Tokens in which brackets nest and no comma stands outside them. -/
inductive Undivided : List Token → Prop where
  | nil : Undivided []
  | cons {t : Token} {ts : List Token} : isDelimiter t = false → t.isPunctuator "," = false →
    Undivided ts → Undivided (t :: ts)
  | bracket {opener closer : Token} {inner ts : List Token} : opener.kind = .punctuator →
    closer.kind = .punctuator → closerOf opener.text = some closer.text → Nested inner →
    Undivided ts → Undivided (opener :: (inner ++ closer :: ts))

theorem Undivided.nested {ts : List Token} (undivided : Undivided ts) : Nested ts := by
  induction undivided with
  | nil => exact .nil
  | cons plain _ _ ih => exact .cons plain ih
  | bracket kind kind' closes inner _ ih => exact .bracket kind kind' closes inner ih

/-- An expression as it stands in a list: a comma outside its brackets would end it. -/
structure Expression where
  tokens : List Token
  undivided : Undivided tokens

-- ---------------------------------------------------------------------------
-- Patterns
-- ---------------------------------------------------------------------------

/-- The key of a property: a word, a string or an expression in brackets. -/
inductive Key where
  | label (name : Label)
  | computed (expression : Expression)

/-- What brackets take apart. -/
inductive Group where
  | object
  | array

mutual

/-- What a value is bound to. -/
inductive Pattern where
  | name (name : Name)
  | enclosed (group : Group) (parts : List Part)

/-- A part of a pattern: a property, which has a key unless it is a single name, or an element. No
part at all is a hole, or it is what a comma behind the last part leaves. -/
inductive Part where
  | hole
  | item (key : Option Key) (target : Pattern) (default_ : Option Expression)
  | rest (target : Pattern)

end

def Group.opener : Group → Token
  | .object => mark "\x7b"
  | .array => mark "["

def Group.closer : Group → Token
  | .object => mark "\x7d"
  | .array => mark "]"

def Key.tokens : Key → List Token
  | .label name => [name.token]
  | .computed expression => mark "[" :: (expression.tokens ++ [mark "]"])

/-- A key, with the colon behind it. -/
def keyTokens (key : Option Key) : List Token := key.elim [] fun key => key.tokens ++ [mark ":"]

/-- A default value, with the sign before it. -/
def defaultTokens (default_ : Option Expression) : List Token :=
  default_.elim [] fun expression => mark "=" :: expression.tokens

mutual

def Pattern.tokens : Pattern → List Token
  | .name name => [name.token]
  | .enclosed group parts => group.opener :: (separated (Part.eachTokens parts) ++ [group.closer])

def Part.tokens : Part → List Token
  | .hole => []
  | .item key target default_ => keyTokens key ++ (target.tokens ++ defaultTokens default_)
  | .rest target => mark "." :: mark "." :: mark "." :: target.tokens

def Part.eachTokens : List Part → List (List Token)
  | [] => []
  | part :: parts => part.tokens :: Part.eachTokens parts

end

-- ---------------------------------------------------------------------------
-- Leaves
-- ---------------------------------------------------------------------------

/-- A name that is bound, or an expression: a key or a default value. -/
inductive Leaf where
  | name (name : Name)
  | key (expression : Expression)
  | default_ (expression : Expression)

def keyLeaves : Option Key → List Leaf
  | some (.computed expression) => [.key expression]
  | _ => []

def defaultLeaves (default_ : Option Expression) : List Leaf := default_.toList.map .default_

mutual

/-- The leaves of a pattern, in the order of the source. -/
def Pattern.leaves : Pattern → List Leaf
  | .name name => [.name name]
  | .enclosed _ parts => Part.allLeaves parts

def Part.leaves : Part → List Leaf
  | .hole => []
  | .item key target default_ => keyLeaves key ++ (target.leaves ++ defaultLeaves default_)
  | .rest target => target.leaves

def Part.allLeaves : List Part → List Leaf
  | [] => []
  | part :: parts => part.leaves ++ Part.allLeaves parts

end

/-- The name that a leaf binds. -/
def Leaf.bound : Leaf → List Name
  | .name bound => [bound]
  | _ => []

/-- The names that a pattern binds, in the order of the source. -/
def Pattern.bound (p : Pattern) : List String :=
  (p.leaves.flatMap Leaf.bound).map fun name => name.token.text

-- ---------------------------------------------------------------------------
-- Nesting
-- ---------------------------------------------------------------------------

theorem Label.kind_ne (label : Label) : label.token.kind ≠ .punctuator := by
  cases label with
  | word name =>
    rw [Label.token, name.kind_eq]
    decide
  | string literal =>
    rw [Label.token, literal.kind_eq]
    decide

theorem nested_append {ts us : List Token} (nested : Nested ts) (nested' : Nested us) :
    Nested (ts ++ us) := by
  rw [nested_iff, brackets_append, brackets_nested nested]
  exact brackets_nested nested' []

theorem nested_keyTokens (key : Option Key) : Nested (keyTokens key) := by
  have colon : Nested [mark ":"] := .cons rfl .nil
  cases key with
  | none => exact .nil
  | some key =>
    cases key with
    | label name => exact .cons (isDelimiter_of_kind rfl name.kind_ne) colon
    | computed expression =>
      have brackets : Nested (mark "[" :: (expression.tokens ++ [mark "]"])) :=
        .bracket rfl rfl rfl expression.undivided.nested .nil
      exact nested_append brackets colon

theorem nested_defaultTokens (default_ : Option Expression) : Nested (defaultTokens default_) := by
  cases default_ with
  | none => exact .nil
  | some expression => exact .cons rfl expression.undivided.nested

theorem Group.opener_kind (group : Group) : group.opener.kind = .punctuator := by
  cases group <;> rfl

theorem Group.closer_kind (group : Group) : group.closer.kind = .punctuator := by
  cases group <;> rfl

theorem Group.closes (group : Group) :
    closerOf group.opener.text = some group.closer.text := by
  cases group <;> rfl

mutual

theorem Pattern.nested : (p : Pattern) → Nested p.tokens
  | .name name => .cons (isDelimiter_of_kind name.kind_eq (by decide)) .nil
  | .enclosed group parts =>
    .bracket group.opener_kind group.closer_kind group.closes (Part.nested_separated parts) .nil

theorem Part.nested : (part : Part) → Nested part.tokens
  | .hole => .nil
  | .item key target default_ =>
    nested_append (nested_keyTokens key) (nested_append target.nested (nested_defaultTokens default_))
  | .rest target => .cons rfl (.cons rfl (.cons rfl target.nested))

theorem Part.nested_separated : (parts : List Part) → Nested (separated (Part.eachTokens parts))
  | [] => .nil
  | [part] => by
    have single : separated (Part.eachTokens [part]) = part.tokens := List.intercalate_singleton
    rw [single]
    exact part.nested
  | part :: part' :: parts => by
    have whole : separated (Part.eachTokens (part :: part' :: parts)) = part.tokens ++ mark "," ::
        separated (Part.eachTokens (part' :: parts)) := separated_cons_cons _ _ _
    rw [whole]
    exact nested_append part.nested (.cons rfl (Part.nested_separated (part' :: parts)))

end

end Esm.Grammar
