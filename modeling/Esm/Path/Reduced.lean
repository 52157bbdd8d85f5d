-- SUMMARY: Paths in lexical normal form.
import Esm.Path.Basic

/-!
# Reduced paths

Reducing a path takes out its dots and lets each `..` cancel the name before it, without looking at
any file. What is left is an absolute path of names, or a relative one that first goes up a number
of times; a relative path that does not go up is written with a leading `./`.
-/

namespace Esm.Path

/-- A path in normal form. -/
inductive Reduced where
  | absolute (names : List String)
  | relative (ups : Nat) (names : List String)
deriving DecidableEq, Repr

namespace Reduced

/-- The current directory. -/
def here : Reduced := .relative 0 []

/-- Go on by one part. `..` takes the last name away; at the root it does nothing, and where no name
is left it goes up. -/
def push : Reduced → Part → Reduced
  | _, .root => .absolute []
  | r, .here => r
  | .absolute names, .up => .absolute names.dropLast
  | .relative ups [], .up => .relative (ups + 1) []
  | .relative ups (name :: names), .up => .relative ups (name :: names).dropLast
  | .absolute names, .name text => .absolute (names ++ [text])
  | .relative ups names, .name text => .relative ups (names ++ [text])

/-- Reduce a sequence of parts. -/
def ofParts (parts : List Part) : Reduced := parts.foldl push here

/-- The text of a reduced path. -/
def text : Reduced → String
  | .absolute names => "/" ++ "/".intercalate names
  | .relative 0 names => "./" ++ "/".intercalate names
  | .relative (ups + 1) names => "/".intercalate (List.replicate (ups + 1) ".." ++ names)

/-- Going on by parts one after the other. -/
theorem ofParts_append (ps qs : List Part) : ofParts (ps ++ qs) = qs.foldl push (ofParts ps) := by
  simp [ofParts]

end Reduced

end Esm.Path
