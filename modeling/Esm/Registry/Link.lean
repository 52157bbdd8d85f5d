-- SUMMARY: Linking a module's imports through a host, depth first.
import Esm.Registry.Basic

/-!
# Linking

A host says which name an import means and produces the module of a name that is not registered yet.
Linking a module links each of its requests in turn: it takes the registered module of that name, or
has it loaded, and links that one first. A module is marked while it is being linked, so that a
cycle ends there; if a request fails, the module is compiled again and nothing more.

Hosts may register modules without end, so the depth of linking is bounded. Answers tell a bound
that was too small (`none`) from an error.
-/

namespace Esm

/-- What linking asks of its surroundings. The host has a state of its own, which any question may
change. -/
structure Host (σ ε : Type) where
  /-- The name under which the module that `base` requests as `specifier` is registered. -/
  ask : σ → (base specifier : String) → String × σ
  /-- Produce and register the module of a name. -/
  load : (name : String) → Registry → σ → Except ε Handle × Registry × σ

/-- What an import means to a host. -/
def Host.normalize {σ ε : Type} (host : Host σ ε) (state : σ) (base specifier : String) : String :=
  (host.ask state base specifier).1

/-- Why a module cannot be linked. -/
inductive LinkError (ε : Type) where
  | unknownHandle (h : Handle)
  | host (cause : ε)
deriving DecidableEq, Repr

/-- A registry and the state of the host that modules are loaded from. -/
structure Linking (σ : Type) where
  registry : Registry
  host : σ

/-- What a linking operation comes to, if the depth allowed suffices. -/
abbrev Outcome (σ ε α : Type) := Option (Except (LinkError ε) α × Linking σ)

namespace Linking

variable {σ ε : Type}

/-- Change the registry. -/
def mapRegistry (s : Linking σ) (change : Registry → Registry) : Linking σ :=
  { s with registry := change s.registry }

/-- The registered module of the name that a request means, or else the one that the host loads. -/
def require (host : Host σ ε) (base request : String) (s : Linking σ) :
    Except ε Handle × Linking σ :=
  let (name, state) := host.ask s.host base request
  match s.registry.find? name with
  | some h => (.ok h, { s with host := state })
  | none =>
    let (result, registry, state) := host.load name s.registry state
    (result, ⟨registry, state⟩)

/-- Link requests in turn. `visit` links the module that a request leads to. -/
def linkRequests (host : Host σ ε) (visit : Handle → Linking σ → Outcome σ ε Unit)
    (base : String) : List String → Linking σ → Outcome σ ε (List Handle)
  | [], s => some (.ok [], s)
  | request :: requests, s =>
    match require host base request s with
    | (.error cause, s) => some (.error (.host cause), s)
    | (.ok h, s) =>
      match visit h s with
      | none => none
      | some (.error e, s) => some (.error e, s)
      | some (.ok (), s) =>
        match linkRequests host visit base requests s with
        | none => none
        | some (.error e, s) => some (.error e, s)
        | some (.ok hs, s) => some (.ok (h :: hs), s)

/-- Link a module and, before it, what it requests, at most so many modules deep. A module that is
not merely compiled is left alone. -/
def link (host : Host σ ε) (depth : Nat) (h : Handle) (s : Linking σ) : Outcome σ ε Unit :=
  match s.registry.get? h with
  | none => some (.error (.unknownHandle h), s)
  | some m =>
    if m.status = .compiled then
      match depth with
      | 0 => none
      | depth + 1 =>
        let marked := s.mapRegistry (·.setStatus h .linking)
        match linkRequests host (link host depth) m.module.name m.module.interface.requests
          marked with
        | none => none
        | some (.error e, s) => some (.error e, s.mapRegistry (·.setStatus h .compiled))
        | some (.ok dependencies, s) =>
          some (.ok (), s.mapRegistry fun r => r.update h fun m =>
            { m with dependencies := dependencies, status := .linked })
    else some (.ok (), s)

end Linking

end Esm
