-- SUMMARY: Tokens of module text and their kinds, with the tag of each kind.

/-!
# Tokens

A token is a piece of module text with its kind and the byte offset at which it starts. Each kind
has a tag, the number that stands for it in compiled code.
-/

namespace Esm

/-- The class of a token. Keywords and private names are identifiers; a punctuator is one
character. -/
inductive TokenKind where
  | identifier
  | string
  | template
  | number
  | regExp
  | punctuator
  | endOfInput
deriving DecidableEq, Repr

namespace TokenKind

def tag : TokenKind → UInt8
  | .identifier => 0
  | .string => 1
  | .template => 2
  | .number => 3
  | .regExp => 4
  | .punctuator => 5
  | .endOfInput => 6

def ofTag? (tag : UInt8) : Option TokenKind :=
  if tag = 0 then some .identifier
  else if tag = 1 then some .string
  else if tag = 2 then some .template
  else if tag = 3 then some .number
  else if tag = 4 then some .regExp
  else if tag = 5 then some .punctuator
  else if tag = 6 then some .endOfInput
  else none

@[simp] theorem ofTag?_tag (kind : TokenKind) : ofTag? kind.tag = some kind := by
  cases kind <;> rfl

theorem tag_of_ofTag?_eq_some {t : UInt8} {kind : TokenKind} (h : ofTag? t = some kind) :
    kind.tag = t := by
  simp only [ofTag?] at h
  repeat' split at h
  all_goals first | (cases h; simp_all [tag]) | simp at h

end TokenKind

/-- A token: its kind, the byte offset of its first character and its text. -/
structure Token where
  kind : TokenKind
  start : Nat
  text : String
deriving DecidableEq, Repr

namespace Token

/-- Whether the token is this punctuation character. -/
def isPunctuator (t : Token) (text : String) : Bool := t.kind == .punctuator && t.text == text

/-- Whether the token is this word. -/
def isWord (t : Token) (word : String) : Bool := t.kind == .identifier && t.text == word

end Token

end Esm
