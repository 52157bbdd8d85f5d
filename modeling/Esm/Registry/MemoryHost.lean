-- SUMMARY: A host whose modules are kept in memory.
import Esm.Registry.Link

/-!
# Memory hosts

A memory host holds an entry for each name it can load: a source, a serialized module, or a module
registered already. It may be told what an import means; otherwise a name is the specifier without
any leading `./`. It keeps a log of the names it was asked for.
-/

namespace Esm

namespace MemoryHost

/-- Where the module of a name comes from. -/
inductive Origin where
  /-- A source, compiled under the name asked for or under one of its own. -/
  | source (text : String) (name : Option String)
  | serialized (order : ByteOrder) (bytes : List UInt8)
  | registered (h : Handle)
deriving DecidableEq, Repr

/-- An entry, which may be set to fail once its module is there. -/
structure Entry where
  origin : Origin
  failure : Option String
deriving DecidableEq, Repr

/-- Why a name cannot be loaded. -/
inductive Error where
  | missing (name : String)
  | syntaxError (e : SyntaxError)
  | malformed (fault : Encoding.Fault)
  | failed (text : String)
deriving DecidableEq, Repr

end MemoryHost

/-- A host whose modules are kept in memory. -/
structure MemoryHost where
  entries : List (String × MemoryHost.Entry)
  /-- Base, specifier and the name meant. -/
  aliases : List (String × String × String)
  log : List String
deriving DecidableEq, Repr

namespace MemoryHost

/-- A specifier without any leading `./`. -/
def stripped : List Char → List Char
  | '.' :: '/' :: rest => stripped rest
  | specifier => specifier

def normalize (host : MemoryHost) (base specifier : String) : String :=
  match host.aliases.find? fun a => a.1 = base && a.2.1 = specifier with
  | some (_, _, name) => name
  | none => String.ofList (stripped specifier.toList)

/-- Register the module of an origin. -/
def produce (name : String) (r : Registry) : Origin → Except Error (Registry × Handle)
  | .source text own => (r.compile text (own.getD name)).mapError .syntaxError
  | .serialized order bytes => (r.read order bytes).mapError .malformed
  | .registered h => .ok (r, h)

def load (name : String) (r : Registry) (host : MemoryHost) :
    Except Error Handle × Registry × MemoryHost :=
  let host := { host with log := host.log ++ [name] }
  match host.entries.lookup name with
  | none => (.error (.missing name), r, host)
  | some entry =>
    match produce name r entry.origin with
    | .error e => (.error e, r, host)
    | .ok (r, h) =>
      match entry.failure with
      | some text => (.error (.failed text), r, host)
      | none => (.ok h, r, host)

def host : Host MemoryHost Error where
  ask host base specifier := (host.normalize base specifier, host)
  load := load

/-- Put an entry under a name, in place of any other. -/
def set (host : MemoryHost) (name : String) (entry : Entry) : MemoryHost :=
  { host with entries := (name, entry) :: host.entries.filter fun e => e.1 != name }

/-- Take the entry of a name away. -/
def remove (host : MemoryHost) (name : String) : MemoryHost :=
  { host with entries := host.entries.filter fun e => e.1 != name }

end MemoryHost

end Esm
