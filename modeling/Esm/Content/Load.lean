-- SUMMARY: The source text behind a module location.
import Esm.Content.JsonModule
import Esm.Content.Kind
import Esm.Content.SourceText
import Esm.Content.Transport
import Esm.FileTree.Walk

/-!
# Content

A location's kind tells how its source text is come by: a file is read, a resource on the web is
fetched, a JSON document is wrapped, and of a native addon only the presence is checked.
-/

namespace Esm

/-- The source text of a location. That of a native addon is empty. -/
structure Content where
  source : SourceText
  kind : ContentKind

namespace Content

/-- The text of a file. -/
def readText (files : FileTree) (path : String) : Except LoadError String := do
  let bytes ← (files.read path).mapError (LoadError.ofFile path)
  match Encoding.ofUtf8? bytes with
  | some text => .ok text
  | none => .error (.invalidSource path "file is not valid UTF-8")

/-- The text of a resource on the web. -/
def fetchText (transport : Transport) (url : String) : Except LoadError String := do
  let (status, body) ← (transport.fetch url).mapError (LoadError.fetch url)
  if status ≠ 200 then .error (.fetch url (.status status))
  else
    match Encoding.ofUtf8? body with
    | some text => .ok text
    | none => .error (.invalidSource url "response body is not valid UTF-8")

/-- The text to compile for a location of a kind. -/
def textOf (files : FileTree) (transport : Transport) (location : String) :
    ContentKind → Except LoadError String
  | .remoteScript => fetchText transport location
  | .nativeAddon => do
    (files.check location).mapError (LoadError.ofFile location)
    .ok ""
  | .json => (readText files location).map JsonModule.wrap
  | .script => readText files location

/-- The content of a location. -/
def load (files : FileTree) (transport : Transport) (location : String) :
    Except LoadError Content := do
  let kind := ContentKind.ofLocation location
  let text ← textOf files transport location kind
  match SourceText.ofString? text with
  | some source => .ok ⟨source, kind⟩
  | none => .error (.invalidSource location "contains a NUL byte")

/-- The addresses requested to load a location. -/
def requests (location : String) : List String :=
  if Specifier.isUrl location then [location] else []

end Content

end Esm
