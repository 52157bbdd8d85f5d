-- SUMMARY: Registered modules stay what was compiled or read, so each can be written and read back.
import Esm.Proofs.Encoding.Capacity
import Esm.Proofs.Registry.LinkInduction
import Esm.Proofs.Registry.Run

/-!
# Records

Whatever is done with a registry, its index stays in step with its modules, and each module in it was
made by compiling a source or by reading bytes. In both cases its instructions name atoms of its
table. So any registered module that is not too large for the format can be written and read back,
wherever it stands between compiled and evaluated.
-/

namespace Esm

-- ---------------------------------------------------------------------------
-- Lowered code
-- ---------------------------------------------------------------------------

namespace Code

/-- No instruction names an atom that is not there: an index may wrap around, but that makes it
smaller. -/
theorem indexed_lower {atoms : Atoms} (mapped : atoms.Mapped) (ts : List Token) :
    (lower atoms ts).Indexed := by
  induction ts generalizing atoms with
  | nil => exact nofun
  | cons t ts ih =>
    intro i hi
    simp only [lower] at hi ⊢
    rcases List.mem_cons.1 hi with rfl | hi
    · obtain ⟨n, index, there⟩ := Atoms.exists_index mapped t.text
      obtain ⟨new, whole, -⟩ := atoms_lower (atoms.intern t.text).1 ts
      have below := (List.getElem?_eq_some_iff.1 there).1
      have wrap : (UInt32.ofNat n).toNat ≤ n := by
        rw [UInt32.toNat_ofNat']
        exact Nat.mod_le _ _
      rw [index, whole, List.length_append]
      exact Nat.lt_of_le_of_lt wrap (Nat.lt_add_right _ below)
    · exact ih (mapped.intern t.text) i hi

theorem indexed_ofTokens (ts : List Token) : (ofTokens ts).Indexed := indexed_lower .empty ts

end Code

theorem Registry.Made.indexed {m : Module} (made : Made m) : m.code.Indexed := by
  cases made with
  | compiled call =>
    obtain ⟨tokens, interface, -, -, rfl⟩ := Module.compile_eq_ok.1 call
    exact Code.indexed_ofTokens tokens
  | decoded call =>
    obtain ⟨-, -, indexed⟩ := Module.decode_eq_ok.1 call
    exact indexed

-- ---------------------------------------------------------------------------
-- Evolution
-- ---------------------------------------------------------------------------

namespace Registry

/-- One registry comes from another by calls, also those that hosts make while they load, to
whatever depth. Such a host sees the modules that are being linked marked as such. -/
inductive Evolves : Registry → Registry → Prop where
  | refl (r : Registry) : Evolves r r
  | entry {r r' r'' : Registry} : Evolves r r' → Entry r' r'' → Evolves r r''
  | mark {r r' : Registry} {h : Handle} : Evolves r r' → Evolves r (r'.setStatus h .linking)
  | link {r r' : Registry} {σ ε : Type} {host : Host σ ε} {depth : Nat} {h : Handle} {state : σ}
    {result : Except (LinkError ε) Unit} {s : Linking σ} :
    (∀ name r state, Evolves r (host.load name r state).2.1) → Evolves r r' →
    Linking.link host depth h ⟨r', state⟩ = some (result, s) → Evolves r s.registry
  | evaluate {r r' : Registry} {σ ε : Type} {host : Host σ ε} {depth : Nat} {h : Handle}
    {state : σ} {result : Except (LinkError ε) Unit} {s : Linking σ} :
    (∀ name r state, Evolves r (host.load name r state).2.1) → Evolves r r' →
    Linking.evaluate host depth h ⟨r', state⟩ = some (result, s) → Evolves r s.registry

/-- What calls that bring in a module or define a property keep, and changes that leave each module
what it is, is kept whatever is done. -/
theorem Evolves.keeps {P : Registry → Prop} {r r' : Registry} (evolves : Evolves r r')
    (entry : ∀ {r r'}, Entry r r' → P r → P r')
    (update : ∀ {r : Registry} (h : Handle) (change : Registered → Registered),
      (∀ m, (change m).module = m.module) → P r → P (r.update h change)) (before : P r) :
    P r' := by
  have kept : ∀ {σ ε : Type} {host : Host σ ε},
      (∀ name r state, P r → P (host.load name r state).2.1) → Linking.Kept host P := by
    intro σ ε host loads
    refine ⟨fun name r state _ before => loads name r state before, ?_, ?_⟩
    · exact fun r h status before => update h _ (fun _ => rfl) before
    · exact fun r h dependencies before => update h _ (fun _ => rfl) before
  induction evolves with
  | refl => exact before
  | entry _ call ih => exact entry call (ih before)
  | mark _ ih => exact update _ _ (fun _ => rfl) (ih before)
  | link _ _ run loads ih => exact (kept loads).link ⟨_, run⟩ (ih before)
  | evaluate _ _ run loads ih => exact (kept loads).evaluate run (ih before)

/-- Every registered module, taken by itself, has a property. -/
def Records (Q : Module → Prop) (r : Registry) : Prop := ∀ h m, r.get? h = some m → Q m.module

variable {Q : Module → Prop}

theorem Records.update {r : Registry} (records : Records Q r) (h : Handle)
    {change : Registered → Registered} (same : ∀ m, (change m).module = m.module) :
    Records Q (r.update h change) := by
  intro k m found
  rw [get?_update] at found
  split at found
  · obtain ⟨m', found', rfl⟩ := Option.map_eq_some_iff.1 found
    rw [same]
    exact records k m' found'
  · exact records k m found

theorem Records.entry {r r' : Registry} (made : ∀ m, Made m → Q m) (entry : Entry r r')
    (records : Records Q r) : Records Q r' := by
  intro h m found
  cases before : r.get? h with
  | none => exact made _ (entry.added before found).1
  | some m₀ =>
    obtain ⟨properties, kept⟩ := entry.kept before
    have hold := records h m₀ before
    rw [found] at kept
    cases kept
    exact hold

theorem Records.evolves {r r' : Registry} (made : ∀ m, Made m → Q m) (evolves : Evolves r r')
    (records : Records Q r) : Records Q r' :=
  evolves.keeps (fun entry before => .entry made entry before)
    (fun h _ same before => before.update h same) records

theorem Entry.indexed {r r' : Registry} (entry : Entry r r') (indexed : r.Indexed) :
    r'.Indexed := by
  obtain ⟨m, -, rfl⟩ | ⟨h, key, value, rfl⟩ := entry.cases
  · exact indexed.register m
  · exact indexed.update h fun _ => rfl

/-- Whatever is done with a registry, its index stays in step. -/
theorem Evolves.indexed {r r' : Registry} (evolves : Evolves r r') (indexed : r.Indexed) :
    r'.Indexed :=
  evolves.keeps (fun entry before => entry.indexed before)
    (fun h _ same before => before.update h same) indexed

-- ---------------------------------------------------------------------------
-- Writing and reading back
-- ---------------------------------------------------------------------------

/-- What was written for a module is read into a registry as that module. -/
theorem read_written {m : Module} (size : m.Encodable) (indexed : m.code.Indexed)
    (order : ByteOrder) (into : Registry) :
    into.read order (m.encode order) = .ok (into.register m) := by
  unfold Registry.read
  rw [Module.decode_eq_ok.2 ⟨rfl, size, indexed⟩]
  rfl

/-- A registered module that is not too large for the format can be written, and what was written
can be read into any registry, in either byte order. It comes back as it was compiled, neither
linked nor with properties. -/
theorem read_encode {r : Registry} (reached : Evolves .empty r) {h : Handle} {m : Registered}
    (found : r.get? h = some m) (size : m.module.Encodable) (order : ByteOrder) (into : Registry) :
    ∃ r' h', into.read order (m.module.encode order) = .ok (r', h') ∧
      r'.get? h' = some ⟨m.module, .compiled, [], []⟩ := by
  have indexed : m.module.code.Indexed := by
    have none : Records (fun m => m.code.Indexed) .empty := nofun
    exact none.evolves (fun m made => made.indexed) reached h m found
  refine ⟨(into.register m.module).1, into.count, read_written size indexed order into, ?_⟩
  rw [get?_register, if_pos rfl]

/-- A module that imports itself, read with the high byte first and linked. -/
theorem read_encode_self_import :
    let m : Module :=
      ⟨"é", ⟨["é"], ["b"], []⟩, ⟨["b", "'é'"], [⟨.identifier, 0⟩, ⟨.string, 1⟩, ⟨.identifier, 0⟩]⟩⟩
    Evolves .empty ⟨[⟨m, .linked, [0], []⟩], [("é", 0)]⟩ ∧ m.Encodable ∧
      ∃ r' h', Registry.empty.read .native (m.encode .native) = .ok (r', h') ∧
        r'.get? h' = some ⟨m, .compiled, [], []⟩ := by
  intro m
  have size : m.Encodable := by decide
  have read : Registry.empty.read .swapped (m.encode .swapped) =
      .ok (⟨[⟨m, .compiled, [], []⟩], [("é", 0)]⟩, 0) :=
    read_written size (by decide) .swapped .empty
  have link : Linking.link Host.bare 1 0 ⟨⟨[⟨m, .compiled, [], []⟩], [("é", 0)]⟩, ()⟩ =
      some (.ok (), ⟨⟨[⟨m, .linked, [0], []⟩], [("é", 0)]⟩, ()⟩) :=
    rfl
  have reached : Evolves .empty ⟨[⟨m, .linked, [0], []⟩], [("é", 0)]⟩ :=
    .link (fun _ r _ => .refl r) (.entry (.refl _) (.read read)) link
  exact ⟨reached, size, read_encode reached (h := 0) rfl size .native .empty⟩

end Registry

end Esm
