-- SUMMARY: A JSON document as the source of a module.

/-!
# JSON modules

A JSON document becomes a module whose default export is the parsed document. The document is put
into a template literal; backslashes, backticks and the openings of substitutions are escaped, so
that the literal's value is the document again.
-/

namespace Esm.JsonModule

def opening : String := "export default JSON.parse(`"
def closing : String := "`);"

/-- Escape what a template literal would not take as itself. -/
def escape : List Char → List Char
  | [] => []
  | c :: rest =>
    if c = '\\' || c = '\x60' || (c = '$' && rest.head? == some '\x7b') then
      '\\' :: c :: escape rest
    else c :: escape rest

/-- The source of the module for a document. -/
def wrap (document : String) : String :=
  opening ++ String.ofList (escape document.toList) ++ closing

end Esm.JsonModule
