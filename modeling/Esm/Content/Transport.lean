-- SUMMARY: Where resources on the web come from.
import Esm.LoadError
import Esm.Url.Basic

/-!
# Transports

A transport answers a request for an address with a status and a body, or says why there is no
answer. One transport answers from a table; the other stands for a machine without a network, which
still refuses what is no address for a reason of its own.
-/

namespace Esm

/-- What a table of answers holds for an address. -/
inductive Response where
  | answer (status : Nat) (body : List UInt8)
  | failure (text : String)
deriving DecidableEq, Repr

/-- Where resources on the web come from. -/
inductive Transport where
  | table (responses : List (String × Response))
  | offline
deriving DecidableEq, Repr

namespace Transport

/-- The answer to a request: a status and a body. In a table the first entry of an address
counts. -/
def fetch (transport : Transport) (url : String) : Except FetchFailure (Nat × List UInt8) :=
  match transport with
  | .table responses =>
    match responses.lookup url with
    | some (.answer status body) => .ok (status, body)
    | some (.failure text) => .error (.transport text)
    | none => .error (.transport "connection refused")
  | .offline =>
    match Url.ofText url with
    | .ok _ => .error (.transport "connection refused")
    | .error e => .error (.transport e.message)

end Transport

end Esm
