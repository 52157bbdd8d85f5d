-- SUMMARY: Web addresses: reading them, joining a relative path, and their text.
import Esm.Url.Host

/-!
# Web addresses

An address of the schemes `http` and `https` is read as browsers read it: white space at its ends
and line ends within are dropped, backslashes count as slashes, dot segments of the path are
resolved, the default port is left out, and each part is percent-encoded. The text of an address is
its normal form.
-/

namespace Esm

open Text Url

/-- A web address. The path is the list of its folders, each followed by a slash, and what comes
last. -/
structure Url where
  secure : Bool
  userinfo : String
  host : Url.Host
  port : Option Nat
  folders : List String
  last : String
  query : Option String
  fragment : Option String
deriving DecidableEq, Repr

namespace Url

/-! ## Parts -/

/-- Drop the controls and spaces at both ends, and every tab and line end. -/
def clean (text : String) : List Char :=
  let isEdge (c : Char) : Bool := c.toNat ≤ 0x20
  ((text.toList.dropWhile isEdge).reverse.dropWhile isEdge).reverse.filter fun c =>
    c != '\t' && c != '\n' && c != '\r'

def isSlash (c : Char) : Bool := c == '/' || c == '\\'

/-- Whether a character ends the part that names user, host and port. -/
def endsAuthority (c : Char) : Bool := isSlash c || c == '?' || c == '#'

/-- Whether a segment stands for the folder it is in. -/
def isSingleDot (segment : String) : Bool := [".", "%2e", "%2E"].contains segment

/-- Whether a segment stands for the folder above. -/
def isDoubleDot (segment : String) : Bool :=
  ["..", "%2e%2e", "%2e%2E", "%2E%2e", "%2E%2E", "%2e.", "%2E.", ".%2e", ".%2E"].contains segment

/-- Whether a folder is a drive letter, which is never left upwards. -/
def isDrive (folder : String) : Bool :=
  match folder.toList with
  | [letter, mark] => letter.isAlpha && (mark == ':' || mark == '|')
  | _ => false

/-- The folder above. -/
def leave (folders : List String) : List String :=
  if folders.getLast?.any isDrive then folders else folders.dropLast

/-- Follow the segments of a path from a folder. -/
def follow (folders : List String) : List String → List String × String
  | [] => (folders, "")
  | [s] =>
    if isDoubleDot s then (leave folders, "")
    else if isSingleDot s then (folders, "")
    else (folders, s)
  | s :: rest =>
    if isDoubleDot s then follow (leave folders) rest
    else if isSingleDot s then follow folders rest
    else follow (folders ++ [s]) rest

/-- The encoded segments of a path, which slashes of both kinds separate. -/
def pathSegments (path : List Char) : List String :=
  (segments '/' (path.map fun c => if c = '\\' then '/' else c)).map fun s =>
    String.ofList (encode encodedInPath s)

/-- Split behind the path: the path, the query and the fragment, the last two encoded. -/
def splitPath (cs : List Char) : List Char × Option String × Option String :=
  let path := cs.takeWhile fun c => c != '?' && c != '#'
  let rest := cs.dropWhile fun c => c != '?' && c != '#'
  let fragmentOf (cs : List Char) : Option String :=
    match cs with
    | '#' :: fragment => some (String.ofList (encode encodedInFragment fragment))
    | _ => none
  match rest with
  | '?' :: rest =>
    let query := rest.takeWhile (· != '#')
    (path, some (String.ofList (encode encodedInQuery query)),
      fragmentOf (rest.dropWhile (· != '#')))
  | rest => (path, none, fragmentOf rest)

/-- The text of a user name and password, with the sign that follows them. -/
def userinfoText (cs : List Char) : String :=
  let name := cs.takeWhile (· != ':')
  let password := (cs.dropWhile (· != ':')).drop 1
  let text := encode encodedInUserinfo name
    ++ (if password.isEmpty then [] else ':' :: encode encodedInUserinfo password)
  if text.isEmpty then "" else String.ofList (text ++ ['@'])

/-- Split a host from the port behind it. A colon within brackets belongs to the host. -/
def splitHost : (inBrackets : Bool) → List Char → List Char × Option (List Char)
  | _, [] => ([], none)
  | inBrackets, c :: rest =>
    if c = ':' && !inBrackets then ([], some rest)
    else
      let (host, port) := splitHost (c = '[' || (inBrackets && c != ']')) rest
      (c :: host, port)

/-- The port, unless it is the default one of the scheme. -/
def portOf (secure : Bool) (digits : List Char) : Except Error (Option Nat) :=
  if digits.isEmpty then .ok none
  else if !digits.all Char.isDigit then .error .invalidPort
  else
    match digitsValue? 10 digits with
    | none => .error .invalidPort
    | some n =>
      if n > 65535 then .error .invalidPort
      else if n = (if secure then 443 else 80) then .ok none
      else .ok (some n)

/-! ## Addresses -/

/-- Read what follows the scheme and its slashes. -/
def ofAuthority (secure : Bool) (cs : List Char) : Except Error Url := do
  let authority := cs.takeWhile fun c => !endsAuthority c
  let rest := cs.dropWhile fun c => !endsAuthority c
  let (user, hostPort) := (splitLast '@' authority).getD ([], authority)
  let (hostText, portText) := splitHost false hostPort
  let host ← Host.ofText hostText
  let port ← portOf secure (portText.getD [])
  let (path, query, fragment) := splitPath rest
  let path := match path with
    | c :: more => if isSlash c then more else path
    | [] => []
  let (folders, last) := follow [] (pathSegments path)
  .ok ⟨secure, userinfoText user, host, port, folders, last, query, fragment⟩

/-- Read an address. -/
def ofText (text : String) : Except Error Url :=
  let behind (scheme : String) (cs : List Char) : Option (List Char) :=
    if scheme.toList.isPrefixOf cs then some ((cs.drop scheme.length).dropWhile isSlash) else none
  let cs := clean text
  match behind "https:" cs with
  | some rest => ofAuthority true rest
  | none =>
    match behind "http:" cs with
    | some rest => ofAuthority false rest
    | none => .error .relative

/-- Go from an address to a relative path, with its query and fragment. -/
def join (base : Url) (relative : String) : Url :=
  let (path, query, fragment) := splitPath (clean relative)
  let (folders, last) := follow base.folders (pathSegments path)
  { base with folders := folders, last := last, query := query, fragment := fragment }

/-- The text of an address. -/
def text (u : Url) : String :=
  let scheme := if u.secure then "https://" else "http://"
  let port := (u.port.map fun n => ":" ++ toString n).getD ""
  let path := "/" ++ String.join (u.folders.map (· ++ "/")) ++ u.last
  let query := (u.query.map ("?" ++ ·)).getD ""
  let fragment := (u.fragment.map ("#" ++ ·)).getD ""
  scheme ++ u.userinfo ++ u.host.text ++ port ++ path ++ query ++ fragment

end Url

end Esm
