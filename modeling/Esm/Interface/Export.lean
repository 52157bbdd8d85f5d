-- SUMMARY: Reading one export declaration off the head of a token list.
import Esm.Interface.Clause

/-!
# Export declarations

An export is read as far as its names go. The value of a binding, the body of a function or class
and the semicolon are left to be passed over as plain tokens.
-/

namespace Esm.Interface

/-! ## Export lists -/

/-- What goes on behind an item of an export list: the list, or the tokens behind it. -/
def exportSeparator (stop : Nat) : List Token → Except Failure (Bool × List Token)
  | [] => .error ⟨.endOfInput, stop⟩
  | t :: ts =>
    if t.text = "," then .ok (true, ts)
    else if t.text = "\x7d" then .ok (false, ts)
    else .error ⟨.unexpectedInExportList t.text, t.start⟩

/-- One item of an export list, `name` or `name as alias`, whose first token is `t`. -/
def exportItem (stop : Nat) (m : Interface) (t : Token) (ts : List Token) :
    Except Failure (Interface × List Token) := do
  let name ← bindingName t
  if nextIs (Token.isWord · "as") ts then
    let (exported, ts) ← anyToken stop ts.tail
    let name ← bindingName exported
    .ok (← m.addExport exported name, ts)
  else .ok (← m.addExport t name, ts)

theorem exportSeparator_length {stop : Nat} {ts rest : List Token} {more : Bool}
    (h : exportSeparator stop ts = .ok (more, rest)) : rest.length < ts.length := by
  cases ts with
  | nil => simp [exportSeparator] at h
  | cons t ts =>
    simp only [exportSeparator] at h
    split at h
    · cases h; simp
    · split at h <;> cases h; simp

theorem exportItem_length {stop : Nat} {m m' : Interface} {t : Token} {ts rest : List Token}
    (h : exportItem stop m t ts = .ok (m', rest)) : rest.length ≤ ts.length := by
  simp only [exportItem, bind_eq_ok] at h
  obtain ⟨name, _, h⟩ := h
  split at h
  · simp only [bind_eq_ok] at h
    obtain ⟨⟨exported, left⟩, read, _, _, _, _, h⟩ := h
    cases h
    have := anyToken_length read
    simp only [List.length_tail] at this
    dsimp only
    omega
  · simp only [bind_eq_ok] at h
    obtain ⟨_, _, h⟩ := h
    cases h
    exact Nat.le_refl _

/-- `a, b as c, 'd' as e \x7d` behind the opening brace of an export list. -/
def exportList (stop : Nat) (m : Interface) : List Token →
    Except Failure (Interface × List Token)
  | [] => .error ⟨.endOfInput, stop⟩
  | t :: ts =>
    if t.text = "\x7d" then .ok (m, ts)
    else
      match _ : exportItem stop m t ts with
      | .error failure => .error failure
      | .ok (m, ts') =>
        match _ : exportSeparator stop ts' with
        | .error failure => .error failure
        | .ok (true, ts'') => exportList stop m ts''
        | .ok (false, ts'') => .ok (m, ts'')
termination_by ts => ts.length
decreasing_by
  rename_i item separator
  have := exportItem_length item
  have := exportSeparator_length separator
  simp only [List.length_cons]
  omega

theorem exportList_cons (stop : Nat) (m : Interface) (t : Token) (ts : List Token) :
    exportList stop m (t :: ts) =
      if t.text = "\x7d" then .ok (m, ts)
      else (do
        let (m, ts) ← exportItem stop m t ts
        let (more, ts) ← exportSeparator stop ts
        if more then exportList stop m ts else .ok (m, ts)) := by
  rw [exportList]
  split
  · rfl
  · split
    · rename_i item
      rw [item]
      rfl
    · rename_i m ts item
      rw [item]
      dsimp only [bind, Except.bind]
      split
      · rename_i separator
        rw [separator]
      · rename_i separator
        rw [separator]
        rfl
      · rename_i separator
        rw [separator]
        rfl

theorem exportList_length {stop : Nat} {m m' : Interface} {ts rest : List Token}
    (h : exportList stop m ts = .ok (m', rest)) : rest.length < ts.length := by
  fun_induction exportList stop m ts with
  | case1 => cases h
  | case2 => cases h; simp
  | case3 => cases h
  | case4 => cases h
  | case5 m t ts _ m₁ ts' item ts'' separator ih =>
    have := ih h
    have := exportItem_length item
    have := exportSeparator_length separator
    simp only [List.length_cons]
    omega
  | case6 m t ts _ m₁ ts' item ts'' separator =>
    cases h
    have := exportItem_length item
    have := exportSeparator_length separator
    simp only [List.length_cons]
    omega

/-! ## Patterns -/

/-- The names bound by a destructuring pattern. `depth` brackets are open, and in a default value
names are not bound. A name counts if a comma, a closing bracket or a default value follows it. -/
def bindingPattern (stop : Nat) (m : Interface) (depth : Nat) (inDefault : Bool) :
    List Token → Except Failure (Interface × List Token)
  | [] => .error ⟨.endOfInput, stop⟩
  | t :: ts =>
    match t.kind with
    | .punctuator =>
      if ["\x7b", "[", "("].contains t.text then bindingPattern stop m (depth + 1) inDefault ts
      else if ["\x7d", "]", ")"].contains t.text then
        if depth ≤ 1 then .ok (m, ts) else bindingPattern stop m (depth - 1) false ts
      else if t.text = "," then bindingPattern stop m depth false ts
      else if t.text = "=" then bindingPattern stop m depth true ts
      else bindingPattern stop m depth inDefault ts
    | .identifier =>
      if !inDefault && nextIs (fun next => [",", "\x7d", "]", "="].contains next.text) ts then
        match m.addExport t t.text with
        | .error failure => .error failure
        | .ok m => bindingPattern stop m depth inDefault ts
      else bindingPattern stop m depth inDefault ts
    | _ => bindingPattern stop m depth inDefault ts

theorem bindingPattern_length {stop : Nat} {m m' : Interface} {depth : Nat} {inDefault : Bool}
    {ts rest : List Token} (h : bindingPattern stop m depth inDefault ts = .ok (m', rest)) :
    rest.length < ts.length := by
  fun_induction bindingPattern stop m depth inDefault ts <;>
    first
    | contradiction
    | (cases h; exact Nat.lt_succ_self _)
    | (rename_i ih; exact Nat.lt_succ_of_lt (ih h))

/-! ## Declarations -/

/-- Export the name of a function or class. -/
def exportedName (stop : Nat) (m : Interface) (ts : List Token) :
    Except Failure (Interface × List Token) := do
  let (t, ts) ← tokenOf stop .identifier ts
  .ok (← m.addExport t t.text, ts)

/-- Behind `export function`: a star, if there is one, and the name. -/
def exportedFunction (stop : Nat) (m : Interface) (ts : List Token) :
    Except Failure (Interface × List Token) :=
  exportedName stop m (if nextIs (Token.isPunctuator · "*") ts then ts.tail else ts)

/-- The first binding of `export const`, `let` or `var`, whose last word is `keyword`. -/
def exportedBinding (stop : Nat) (keyword : Token) (m : Interface) (ts : List Token) :
    Except Failure (Interface × List Token) :=
  match ts with
  | [] => .error ⟨.endOfInput, keyword.start⟩
  | t :: rest =>
    if t.kind = .identifier then do .ok (← m.addExport t t.text, rest)
    else if t.isPunctuator "\x7b" || t.isPunctuator "[" then bindingPattern stop m 0 false ts
    else .error ⟨.unexpectedInBinding t.text, t.start⟩

/-- Behind `export *`: an alias to export, or all exports passed on, and the clause that names the
module. -/
def exportedStar (stop : Nat) (keyword : Token) (m : Interface) (ts : List Token) :
    Except Failure (Interface × List Token) :=
  if nextIs (Token.isWord · "as") ts then do
    let (exported, ts) ← anyToken stop ts.tail
    let name ← bindingName exported
    fromClause stop keyword (← m.addExport exported name).addRequest ts
  else fromClause stop keyword m.addStar ts

/-- The declaration behind the word `export`. -/
def exportDeclaration (stop : Nat) (keyword : Token) (m : Interface) (ts : List Token) :
    Except Failure (Interface × List Token) :=
  match ts with
  | [] => .error ⟨.endAfter "export", keyword.start⟩
  | t :: ts =>
    if t.isWord "default" then do .ok (← m.addExport t "default", ts)
    else if t.isPunctuator "*" then exportedStar stop keyword m ts
    else if t.isPunctuator "\x7b" then do
      let (m, ts) ← exportList stop m ts
      if nextIs (Token.isWord · "from") ts then fromClause stop keyword m.addRequest ts
      else .ok (m, ts)
    else if t.isWord "const" || t.isWord "let" || t.isWord "var" then exportedBinding stop t m ts
    else if t.isWord "async" then do
      let (_, ts) ← word stop "function" ts
      exportedFunction stop m ts
    else if t.isWord "function" then exportedFunction stop m ts
    else if t.isWord "class" then exportedName stop m ts
    else .error ⟨.unexpectedAfterExport t.text, t.start⟩

theorem exportedName_length {stop : Nat} {m m' : Interface} {ts rest : List Token}
    (h : exportedName stop m ts = .ok (m', rest)) : rest.length ≤ ts.length := by
  simp only [exportedName, bind_eq_ok] at h
  obtain ⟨⟨t, left⟩, read, _, _, h⟩ := h
  cases h
  have := tokenOf_length read
  dsimp only
  omega

theorem exportedFunction_length {stop : Nat} {m m' : Interface} {ts rest : List Token}
    (h : exportedFunction stop m ts = .ok (m', rest)) : rest.length ≤ ts.length := by
  have := exportedName_length h
  split at this
  · simp only [List.length_tail] at this
    omega
  · exact this

theorem exportedBinding_length {stop : Nat} {keyword : Token} {m m' : Interface}
    {ts rest : List Token} (h : exportedBinding stop keyword m ts = .ok (m', rest)) :
    rest.length ≤ ts.length := by
  cases ts with
  | nil => simp [exportedBinding] at h
  | cons t ts =>
    simp only [exportedBinding] at h
    split at h
    · simp only [bind_eq_ok] at h
      obtain ⟨_, _, h⟩ := h
      cases h
      simp
    · split at h
      · exact Nat.le_of_lt (bindingPattern_length h)
      · cases h

theorem exportedStar_length {stop : Nat} {keyword : Token} {m m' : Interface}
    {ts rest : List Token} (h : exportedStar stop keyword m ts = .ok (m', rest)) :
    rest.length ≤ ts.length := by
  simp only [exportedStar] at h
  split at h
  · simp only [bind_eq_ok] at h
    obtain ⟨⟨exported, left⟩, read, _, _, _, _, h⟩ := h
    have := anyToken_length read
    have := fromClause_length h
    simp only [List.length_tail] at *
    omega
  · exact fromClause_length h

theorem exportDeclaration_length {stop : Nat} {keyword : Token} {m m' : Interface}
    {ts rest : List Token} (h : exportDeclaration stop keyword m ts = .ok (m', rest)) :
    rest.length ≤ ts.length := by
  cases ts with
  | nil => simp [exportDeclaration] at h
  | cons t ts =>
    refine Nat.le_succ_of_le ?_
    simp only [exportDeclaration] at h
    split at h
    · simp only [bind_eq_ok] at h
      obtain ⟨_, _, h⟩ := h
      cases h
      exact Nat.le_refl _
    split at h
    · exact exportedStar_length h
    split at h
    · simp only [bind_eq_ok] at h
      obtain ⟨⟨_, left⟩, read, h⟩ := h
      have := exportList_length read
      dsimp only at h
      split at h
      · have := fromClause_length h
        omega
      · cases h
        omega
    split at h
    · exact exportedBinding_length h
    split at h
    · simp only [bind_eq_ok] at h
      obtain ⟨⟨_, left⟩, read, h⟩ := h
      have := word_length read
      have := exportedFunction_length h
      dsimp only at *
      omega
    split at h
    · exact exportedFunction_length h
    split at h
    · exact exportedName_length h
    · cases h

end Esm.Interface
