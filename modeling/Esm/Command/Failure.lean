-- SUMMARY: How the programs report failures.

/-!
# Failures

A failure is one line: the word `Error` in bold red, and the text.
-/

namespace Esm.Command

def bold (text : String) : String := "\x1b[1m" ++ text ++ "\x1b[0m"
def red (text : String) : String := "\x1b[31m" ++ text ++ "\x1b[39m"
def dimmed (text : String) : String := "\x1b[2m" ++ text ++ "\x1b[0m"

/-- The line that reports a failure. -/
def failureLine (text : String) : String := bold (red "Error") ++ ": " ++ text ++ "\n"

/-- A failure and the chain of its causes, the outermost first. -/
def failureChain (texts : List String) : String := failureLine (": ".intercalate texts)

end Esm.Command
