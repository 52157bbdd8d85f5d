-- SUMMARY: Reading one import declaration off the head of a token list.
import Esm.Interface.Clause

/-!
# Import declarations

Only the specifier of an import is kept. Its names are passed over: a list of them ends at the first
closing brace.
-/

namespace Esm.Interface

/-- Pass over an import list up to its closing brace. -/
def skipImportList (opener : Token) : List Token → Except Failure (List Token)
  | [] => .error ⟨.neverClosed "\x7b", opener.start⟩
  | t :: ts => if t.text = "\x7d" then .ok ts else skipImportList opener ts

/-- The bindings of an import behind any default binding: a namespace or a list, and the clause that
names the module. -/
def importBindings (stop : Nat) (keyword : Token) (m : Interface) :
    List Token → Except Failure (Interface × List Token)
  | [] => .error ⟨.unexpectedInImport, keyword.start⟩
  | t :: ts =>
    if t.isPunctuator "*" then do
      let (_, ts) ← word stop "as" ts
      let (_, ts) ← tokenOf stop .identifier ts
      fromClause stop keyword m.addRequest ts
    else if t.isPunctuator "\x7b" then do
      let ts ← skipImportList t ts
      fromClause stop keyword m.addRequest ts
    else .error ⟨.unexpectedInImport, t.start⟩

/-- The declaration behind the word `import`. A call or a member access behind it makes it an
expression, which says nothing about the interface. -/
def importDeclaration (stop : Nat) (keyword : Token) (m : Interface) (ts : List Token) :
    Except Failure (Interface × List Token) :=
  match ts with
  | [] => .error ⟨.endAfter "import", keyword.start⟩
  | t :: rest =>
    if t.isPunctuator "(" || t.isPunctuator "." then .ok (m, ts)
    else
      match t.kind with
      | .string => .ok (m.addRequest t.stringValue, rest)
      | .identifier =>
        if t.text = "from" && nextIs (fun next => next.kind == .string) rest then
          .error ⟨.unexpectedToken "from", t.start⟩
        else if nextIs (Token.isPunctuator · ",") rest then
          importBindings stop keyword m rest.tail
        else fromClause stop keyword m.addRequest rest
      | _ => importBindings stop keyword m ts

theorem skipImportList_length {opener : Token} {ts rest : List Token}
    (h : skipImportList opener ts = .ok rest) : rest.length < ts.length := by
  induction ts with
  | nil => simp [skipImportList] at h
  | cons t ts ih =>
    simp only [skipImportList] at h
    split at h
    · cases h; simp
    · exact Nat.lt_succ_of_lt (ih h)

theorem importBindings_length {stop : Nat} {keyword : Token} {m m' : Interface}
    {ts rest : List Token} (h : importBindings stop keyword m ts = .ok (m', rest)) :
    rest.length ≤ ts.length := by
  cases ts with
  | nil => simp [importBindings] at h
  | cons t ts =>
    simp only [importBindings] at h
    split at h
    · simp only [bind_eq_ok] at h
      obtain ⟨⟨_, left⟩, read, ⟨_, left'⟩, read', h⟩ := h
      dsimp only at read' h
      have := word_length read
      have := tokenOf_length read'
      have := fromClause_length h
      simp only [List.length_cons]
      omega
    · split at h
      · simp only [bind_eq_ok] at h
        obtain ⟨left, read, h⟩ := h
        have := skipImportList_length read
        have := fromClause_length h
        simp only [List.length_cons]
        omega
      · cases h

theorem importDeclaration_length {stop : Nat} {keyword : Token} {m m' : Interface}
    {ts rest : List Token} (h : importDeclaration stop keyword m ts = .ok (m', rest)) :
    rest.length ≤ ts.length := by
  cases ts with
  | nil => simp [importDeclaration] at h
  | cons t ts =>
    simp only [importDeclaration] at h
    split at h
    · cases h; simp
    · split at h
      · cases h; simp
      · split at h
        · cases h
        · split at h
          · have := importBindings_length h
            simp only [List.length_tail] at this
            simp only [List.length_cons]
            omega
          · have := fromClause_length h
            simp only [List.length_cons]
            omega
      · exact importBindings_length h

end Esm.Interface
