-- SUMMARY: Marking a linked module and everything it depends on as evaluated.
import Esm.Registry.Link

/-!
# Evaluation

Evaluating a module links it and marks it and all it depends on. A module that is evaluated already
is not entered again, so each mark leaves fewer modules to be marked.
-/

namespace Esm

namespace Registry

/-- The number of modules not evaluated. -/
def unevaluated (r : Registry) : Nat := r.modules.countP fun m => m.status != .evaluated

theorem countP_modify_lt {α : Type} {p : α → Bool} {f : α → α} {xs : List α} {i : Nat} {x : α}
    (found : xs[i]? = some x) (before : p x) (after : p (f x) = false) :
    (xs.modify i f).countP p < xs.countP p := by
  induction xs generalizing i with
  | nil => simp at found
  | cons y ys ih =>
    cases i with
    | zero =>
      simp only [List.getElem?_cons_zero, Option.some.injEq] at found
      subst found
      simp [List.modify_zero_cons, before, after]
    | succ i =>
      simp only [List.getElem?_cons_succ] at found
      have := ih found
      simp only [List.modify_succ_cons, List.countP_cons]
      omega

theorem unevaluated_setStatus_lt {r : Registry} {h : Handle} {m : Registered}
    (found : r.get? h = some m) (status : m.status ≠ .evaluated) :
    (r.setStatus h .evaluated).unevaluated < r.unevaluated :=
  countP_modify_lt found (by simpa using status) rfl

/-- Mark modules, and all they depend on, as evaluated. -/
def markEvaluated (r : Registry) : List Handle → Registry
  | [] => r
  | h :: pending =>
    match _ : r.get? h with
    | none => markEvaluated r pending
    | some m =>
      if _ : m.status = .evaluated then markEvaluated r pending
      else markEvaluated (r.setStatus h .evaluated) (m.dependencies ++ pending)
termination_by pending => (r.unevaluated, pending.length)
decreasing_by
  · exact Prod.Lex.right _ (by simp)
  · exact Prod.Lex.right _ (by simp)
  · exact Prod.Lex.left _ _ (unevaluated_setStatus_lt (by assumption) (by assumption))

@[simp] theorem markEvaluated_nil (r : Registry) : r.markEvaluated [] = r := by
  unfold markEvaluated
  rfl

/-- A module is marked, and what it depends on comes next. -/
theorem markEvaluated_enter {r : Registry} {h : Handle} {m : Registered}
    (found : r.get? h = some m) (fresh : m.status ≠ .evaluated) (pending : List Handle) :
    r.markEvaluated (h :: pending) =
      (r.setStatus h .evaluated).markEvaluated (m.dependencies ++ pending) := by
  rw [markEvaluated]
  split
  · rename_i absent
    rw [found] at absent
    cases absent
  · rename_i m' found'
    rw [found] at found'
    cases found'
    rw [dif_neg fresh]

/-- A module that is marked already is passed over. -/
theorem markEvaluated_skip {r : Registry} {h : Handle} {m : Registered}
    (found : r.get? h = some m) (evaluated : m.status = .evaluated) (pending : List Handle) :
    r.markEvaluated (h :: pending) = r.markEvaluated pending := by
  rw [markEvaluated]
  split
  · rfl
  · rename_i m' found'
    rw [found] at found'
    cases found'
    rw [dif_pos evaluated]

end Registry

namespace Linking

variable {σ ε : Type}

/-- Link a module and mark it, with all it depends on, as evaluated. -/
def evaluate (host : Host σ ε) (depth : Nat) (h : Handle) (s : Linking σ) : Outcome σ ε Unit :=
  match link host depth h s with
  | none => none
  | some (.error e, s) => some (.error e, s)
  | some (.ok (), s) => some (.ok (), s.mapRegistry (·.markEvaluated [h]))

end Linking

end Esm
