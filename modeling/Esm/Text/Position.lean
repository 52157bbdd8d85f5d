-- SUMMARY: Byte offsets in a text and the line and column a reader sees there.

/-!
# Positions

Offsets count UTF-8 bytes from zero. Lines and columns count from one, a column counts characters,
and only a line feed starts a new line.
-/

namespace Esm.Text

/-- The number of bytes that a piece of text takes in UTF-8. -/
def byteLength : List Char → Nat
  | [] => 0
  | c :: text => c.utf8Size + byteLength text

@[simp] theorem byteLength_nil : byteLength [] = 0 := rfl

@[simp] theorem byteLength_cons (c : Char) (text : List Char) :
    byteLength (c :: text) = c.utf8Size + byteLength text := rfl

@[simp] theorem byteLength_append (text more : List Char) :
    byteLength (text ++ more) = byteLength text + byteLength more := by
  induction text with
  | nil => simp
  | cons c text ih => simp [ih, Nat.add_assoc]

/-- A place in a text as a reader counts it. -/
structure Position where
  line : Nat
  column : Nat
deriving DecidableEq, Repr

namespace Position

/-- The place of the first character. -/
def start : Position := ⟨1, 1⟩

/-- The place after one more character. -/
def advance (p : Position) (c : Char) : Position :=
  if c = '\n' then ⟨p.line + 1, 1⟩ else ⟨p.line, p.column + 1⟩

/-- The place right after a piece of text. -/
def after (text : List Char) : Position := text.foldl advance start

end Position

/-- The characters that end at or before a byte offset. An offset past the end takes them all. -/
def charsBefore : List Char → Nat → List Char
  | [], _ => []
  | c :: rest, offset =>
    if c.utf8Size ≤ offset then c :: charsBefore rest (offset - c.utf8Size) else []

theorem charsBefore_byteLength (text rest : List Char) :
    charsBefore (text ++ rest) (byteLength text) = text := by
  induction text with
  | nil =>
    cases rest with
    | nil => rfl
    | cons c rest =>
      simp only [List.nil_append, byteLength_nil, charsBefore]
      have := c.utf8Size_pos
      split <;> simp_all
  | cons c text ih => simp [charsBefore, ih]

/-- The place of the character that starts at a byte offset. -/
def Position.ofOffset (source : String) (offset : Nat) : Position :=
  Position.after (charsBefore source.toList offset)

/-- A finding and the byte offset that it is about. -/
structure Located (α : Type) where
  cause : α
  offset : Nat
deriving DecidableEq, Repr

end Esm.Text
