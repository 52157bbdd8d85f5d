-- SUMMARY: What starting a runtime and running an entry module come to when they succeed.
import Esm.Environment
import Esm.Proofs.Encoding.Accepted
import Esm.Proofs.Loader.Loading

/-!
# Starting and running

A runtime that has started has registered the bundle and evaluated it, and then registered the
library, stamped it, and linked or evaluated it. To run an entry module is to load it and then to
evaluate it.
-/

namespace Esm

-- ---------------------------------------------------------------------------
-- Startup
-- ---------------------------------------------------------------------------

namespace Startup

open Registry

variable {files : FileTree} {loader : Loader} {startup : Startup} {depth : Nat}

theorem readBlob_eq_ok {blob : List UInt8} {name : String} {r r' : Registry} {h : Handle}
    (call : readBlob blob name r = (.ok h, r')) :
    ∃ m, h = r.count ∧ r' = (r.register m).1 := by
  unfold readBlob at call
  split at call
  · cases call
  · rename_i r₁ h₁ read
    obtain ⟨m, -, rfl, rfl⟩ := map_register_eq_ok read
    split at call
    · cases call
    · split at call
      · cases call
        exact ⟨m, rfl, rfl⟩
      · cases call

theorem compileBlob_eq_ok {blob : List UInt8} {name : String} {r r' : Registry} {h : Handle}
    (call : compileBlob blob name r = (.ok h, r')) :
    ∃ m, h = r.count ∧ r' = (r.register m).1 := by
  unfold compileBlob at call
  split at call
  · cases call
  · split at call
    · cases call
    · rename_i r₁ h₁ compiled
      cases call
      obtain ⟨m, -, rfl, rfl⟩ := Loader.compile_eq_ok compiled
      exact ⟨m, rfl, rfl⟩

/-- A text that compiles is brought in as the module that it compiles to. -/
theorem compileBlob_utf8 {text name : String} {m : Module}
    (compiled : Module.compile text name = .ok m) (noNul : '\x00' ∉ text.toList) (r : Registry) :
    compileBlob (Encoding.utf8 text) name r = (.ok r.count, (r.register m).1) := by
  have source : sourceBlob (Encoding.utf8 text) name = .ok ⟨text, noNul⟩ := by
    unfold sourceBlob SourceText.ofString?
    simp only [Encoding.ofUtf8?_utf8, dif_pos noNul]
  unfold compileBlob Loader.compile Registry.compile
  simp only [source, compiled]
  rfl

theorem answering_eq_ok {h h' : Handle} {outcome : Esm.Outcome Loader.Requests LoadError Unit}
    {s : Linking Loader.Requests} (call : answering h outcome = some (.ok h', s)) :
    h' = h ∧ outcome = some (.ok (), s) := by
  unfold answering at call
  split at call
  · cases call
  · cases call
  · cases call
    exact ⟨rfl, rfl⟩

theorem stampLibrary_eq_some {h h' : Handle} {s s' : Linking Loader.Requests}
    {next : Linking Loader.Requests → Outcome Handle}
    (call : stampLibrary files h s next = some (.ok h', s')) :
    ∃ r, s.registry.stamp files h libraryName false false = .ok r ∧
      next { s with registry := r } = some (.ok h', s') := by
  unfold Startup.stampLibrary at call
  split at call
  · cases call
  · rename_i r stamped
    exact ⟨r, stamped, call⟩

/-- The bundle is registered and evaluated. -/
theorem addGlobalsWithin_eq_ok {s s' : Linking Loader.Requests} {h : Handle}
    (call : startup.addGlobalsWithin depth loader files s = some (.ok h, s')) :
    ∃ m, h = s.registry.count ∧
      Linking.evaluate (loader.host files) depth h
        { s with registry := (s.registry.register m).1 } = some (.ok (), s') := by
  unfold addGlobalsWithin at call
  cases mode : startup.mode with
  | bytecode =>
    cases hblob : readBlob startup.bundle bundleName s.registry with
    | mk result r =>
      simp only [mode, hblob] at call
      cases result with
      | error e => cases call
      | ok k =>
        obtain ⟨m, rfl, rfl⟩ := readBlob_eq_ok hblob
        obtain ⟨rfl, run⟩ := answering_eq_ok call
        exact ⟨m, rfl, run⟩
  | source =>
    cases hblob : compileBlob startup.bundle bundleName s.registry with
    | mk result r =>
      simp only [mode, hblob] at call
      cases result with
      | error e => cases call
      | ok k =>
        obtain ⟨m, rfl, rfl⟩ := compileBlob_eq_ok hblob
        obtain ⟨rfl, run⟩ := answering_eq_ok call
        exact ⟨m, rfl, run⟩

/-- The library is registered. It is then linked and stamped if it came serialized, and stamped and
evaluated if it came as source. -/
theorem addLibraryWithin_eq_ok {s s' : Linking Loader.Requests} {h : Handle}
    (call : startup.addLibraryWithin depth loader files s = some (.ok h, s')) :
    ∃ m, h = s.registry.count ∧
      ((∃ t r, Linking.link (loader.host files) depth h
          { s with registry := (s.registry.register m).1 } = some (.ok (), t) ∧
        t.registry.stamp files h libraryName false false = .ok r ∧
        s' = { t with registry := r }) ∨
      ∃ r, (s.registry.register m).1.stamp files h libraryName false false = .ok r ∧
        Linking.evaluate (loader.host files) depth h { s with registry := r } =
          some (.ok (), s')) := by
  unfold addLibraryWithin at call
  cases mode : startup.mode with
  | bytecode =>
    cases hblob : readBlob startup.library libraryName s.registry with
    | mk result r =>
      simp only [mode, hblob] at call
      cases result with
      | error e => cases call
      | ok k =>
        obtain ⟨m, rfl, rfl⟩ := readBlob_eq_ok hblob
        simp only at call
        split at call
        · cases call
        · cases call
        · rename_i t linked
          obtain ⟨r, stamped, next⟩ := stampLibrary_eq_some call
          cases next
          exact ⟨m, rfl, Or.inl ⟨t, r, linked, stamped, rfl⟩⟩
  | source =>
    cases hblob : compileBlob startup.library libraryName s.registry with
    | mk result r =>
      simp only [mode, hblob] at call
      cases result with
      | error e => cases call
      | ok k =>
        obtain ⟨m, rfl, rfl⟩ := compileBlob_eq_ok hblob
        obtain ⟨r, stamped, next⟩ := stampLibrary_eq_some call
        obtain ⟨rfl, run⟩ := answering_eq_ok next
        exact ⟨m, rfl, Or.inr ⟨r, stamped, run⟩⟩

end Startup

-- ---------------------------------------------------------------------------
-- Environments
-- ---------------------------------------------------------------------------

namespace Environment

open Registry

variable {files : FileTree} {loader : Loader} {startup : Startup} {env env' : Environment}
  {depth : Nat}

theorem startWithin_eq_ok (started : startWithin depth loader startup files = some (.ok env)) :
    ∃ bundle library s,
      startup.addGlobalsWithin depth loader files ⟨.empty, []⟩ = some (.ok bundle, s) ∧
      startup.addLibraryWithin depth loader files s = some (.ok library, env.linking) ∧
      env.loader = loader := by
  unfold startWithin at started
  split at started
  · cases started
  · cases started
  · rename_i bundle s globals
    split at started
    · cases started
    · cases started
    · rename_i library t builtin
      cases started
      exact ⟨bundle, library, s, globals, builtin, rfl⟩

/-- However a run ends, the entry module was loaded, and if that succeeded it was evaluated. -/
theorem runMainWithin_eq_some {path : String} {result : Except LoadError Handle}
    (ran : env.runMainWithin depth files path = some (result, env')) :
    ∃ loaded r requests, env.loader.loadModule files (entryLocation files path) true env.registry
        env.linking.host = (loaded, r, requests) ∧ env'.loader = env.loader ∧
      ((∃ e, loaded = .error e ∧ result = .error e ∧ env'.linking = ⟨r, requests⟩) ∨
        ∃ h outcome, loaded = .ok h ∧
          Linking.evaluate (env.loader.host files) depth h ⟨r, requests⟩ =
            some (outcome, env'.linking) ∧
          Startup.answering h (some (outcome, env'.linking)) = some (result, env'.linking)) := by
  unfold runMainWithin at ran
  cases load : env.loader.loadModule files (entryLocation files path) true env.linking.registry
    env.linking.host with
  | mk loaded rest =>
    obtain ⟨r, requests⟩ := rest
    refine ⟨loaded, r, requests, load, ?_⟩
    simp only [load] at ran
    cases loaded with
    | error e =>
      cases ran
      exact ⟨rfl, Or.inl ⟨e, rfl, rfl, rfl⟩⟩
    | ok h =>
      simp only at ran
      cases run : Linking.evaluate (env.loader.host files) depth h ⟨r, requests⟩ with
      | none =>
        rw [run] at ran
        cases ran
      | some outcome =>
        obtain ⟨outcome, s⟩ := outcome
        rw [run] at ran
        cases outcome with
        | error e =>
          cases ran
          exact ⟨rfl, Or.inr ⟨h, .error e, rfl, run, rfl⟩⟩
        | ok =>
          cases ran
          exact ⟨rfl, Or.inr ⟨h, .ok (), rfl, run, rfl⟩⟩

/-- To run an entry module is to load it and then to evaluate it. -/
theorem runMainWithin_eq_ok {path : String} {h : Handle} :
    env.runMainWithin depth files path = some (.ok h, env') ↔
      ∃ r requests s, env.loader.loadModule files (entryLocation files path) true env.registry
          env.linking.host = (.ok h, r, requests) ∧
        Linking.evaluate (env.loader.host files) depth h ⟨r, requests⟩ =
          some (.ok (), s) ∧ env' = { env with linking := s } := by
  unfold runMainWithin
  constructor
  · intro ran
    cases hload : env.loader.loadModule files (entryLocation files path) true env.linking.registry
      env.linking.host with
    | mk result rest =>
      obtain ⟨r, requests⟩ := rest
      simp only [hload] at ran
      cases result with
      | error e => cases ran
      | ok k =>
        simp only at ran
        split at ran
        · cases ran
        · rename_i result s answered
          cases ran
          obtain ⟨rfl, run⟩ := Startup.answering_eq_ok answered
          exact ⟨r, requests, s, hload, run, rfl⟩
  · rintro ⟨r, requests, s, load, run, rfl⟩
    have load' : env.loader.loadModule files (entryLocation files path) true env.linking.registry
        env.linking.host = (.ok h, r, requests) := load
    simp only [load', run]
    rfl

end Environment

end Esm
