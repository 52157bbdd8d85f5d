-- SUMMARY: Reading command lines: flags, options with values and positional arguments.
import Esm.FileTree.Basic

/-!
# Arguments

Options may stand anywhere and are long. The value of an option follows it, or is attached with an
equals sign; only an attached value may start with a dash, a single dash apart. Behind `--` every
argument is positional. An option is given at most once.
-/

namespace Esm.Command

/-- The options that a command knows. -/
structure Grammar where
  flags : List String
  options : List String

/-- One thing that a command line says. -/
inductive Item where
  | flag (name : String)
  | option (name value : String)
  | positional (text : String)
deriving DecidableEq, Repr

/-- Whether an argument cannot be a value. -/
def looksLikeOption (arg : String) : Bool := "-".isPrefixOf arg && arg != "-"

/-- An argument split at its first equals sign. -/
def splitAttached (arg : String) : String × Option String :=
  let cs := arg.toList
  match cs.dropWhile (· != '=') with
  | '=' :: value => (String.ofList (cs.takeWhile (· != '=')), some (String.ofList value))
  | _ => (arg, none)

/-- What the argument `arg`, which is not `--`, says with those behind it, and the arguments
left. -/
def nextItem (g : Grammar) (arg : String) (rest : List String) : Option (Item × List String) :=
  if !looksLikeOption arg then some (.positional arg, rest)
  else
    let (name, attached) := splitAttached arg
    if g.flags.contains name then
      match attached with
      | none => some (.flag name, rest)
      | some _ => none
    else if g.options.contains name then
      match attached with
      | some value => some (.option name value, rest)
      | none =>
        match rest with
        | value :: rest => if looksLikeOption value then none else some (.option name value, rest)
        | [] => none
    else none

theorem nextItem_length {g : Grammar} {arg : String} {rest left : List String} {item : Item}
    (h : nextItem g arg rest = some (item, left)) : left.length ≤ rest.length := by
  simp only [nextItem] at h
  split at h
  · cases h; exact Nat.le_refl _
  · split at h
    · split at h <;> cases h
      exact Nat.le_refl _
    · split at h
      · split at h
        · cases h; exact Nat.le_refl _
        · split at h
          · split at h <;> cases h
            simp
          · cases h
      · cases h

/-- Everything that arguments say. -/
def items (g : Grammar) : List String → Option (List Item)
  | [] => some []
  | arg :: rest =>
    if arg = "--" then some (rest.map .positional)
    else
      match _ : nextItem g arg rest with
      | none => none
      | some (item, left) => (items g left).map (item :: ·)
termination_by args => args.length
decreasing_by exact Nat.lt_succ_of_le (nextItem_length (by assumption))

/-- Everything said before the first positional argument, that argument, and the arguments behind
it. -/
def itemsBeforeCommand (g : Grammar) : List String → Option (List Item × String × List String)
  | [] => none
  | arg :: rest =>
    if arg = "--" then none
    else
      match _ : nextItem g arg rest with
      | none => none
      | some (.positional command, left) => some ([], command, left)
      | some (item, left) =>
        (itemsBeforeCommand g left).map fun (items, command, left) => (item :: items, command, left)
termination_by args => args.length
decreasing_by exact Nat.lt_succ_of_le (nextItem_length (by assumption))

/-- The positional arguments. -/
def positionals (items : List Item) : List String :=
  items.filterMap fun
    | .positional text => some text
    | _ => none

/-- The value of an option, if it is given. -/
def optionValue (items : List Item) (name : String) : Option String :=
  items.findSome? fun
    | .option n value => if n = name then some value else none
    | _ => none

/-- Whether no option is given twice. -/
def eachOnce (items : List Item) : Bool :=
  let names := items.filterMap fun
    | .flag name => some name
    | .option name _ => some name
    | .positional _ => none
  decide names.Nodup

/-- What a program leaves behind: its status, its output and the files. -/
structure Result where
  status : Nat
  stdout : String
  stderr : String
  files : FileTree

end Esm.Command
