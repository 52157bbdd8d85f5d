-- SUMMARY: Two modules with a block between them make up a module that says what the two of them say.
import Esm.Module
import Esm.Proofs.Interface.Followed
import Esm.Proofs.Interface.Nested

/-!
# Concatenation

Two sources can be put one behind the other, with a block in braces between them. Nothing crosses the
joints: each of the three texts is scanned as it is by itself, whether or not a slash comes first,
and each declaration ends where it ends by itself. The block adds nothing to the interface, whatever
words it contains. So the whole is refused only if both sources export the same name.
-/

namespace Esm

open Text Lexeme

-- ---------------------------------------------------------------------------
-- Scanning
-- ---------------------------------------------------------------------------

namespace Scanner

theorem tokens_blank {c : Char} (blank : isBlank c = true) (rest : List Char) (offset : Nat)
    (previous : Option Token) :
    tokens ⟨c :: rest, offset, previous⟩ = tokens ⟨rest, offset + c.utf8Size, previous⟩ :=
  tokens_congr (next_blank blank rest offset previous)

theorem tokens_mark {c : Char} (mark : isMark c = true) (point : c ≠ '.') (rest : List Char)
    (offset : Nat) (previous : Option Token) :
    let t : Token := ⟨.punctuator, offset, String.ofList [c]⟩
    tokens ⟨c :: rest, offset, previous⟩ =
      (tokens ⟨rest, offset + c.utf8Size, some t⟩).map (t :: ·) :=
  tokens_of_next (next_mark mark (fun dot => absurd dot point) offset previous)

/-- A text that can be read to its end has the same tokens behind punctuation that no operand ends
with, up to a new line. -/
theorem tokens_behind {source : String} {ts : List Token} {tail : List Char}
    (plain : ¬ "#!".toList <+: source.toList) (scanned : tokenize source = .ok ts)
    (line : StartsLine tail) {s : Scanner} (rest : s.rest = source.toList ++ tail)
    (allowed : s.regExpAllowed = true) :
    ∃ ts' offset previous, List.Forall₂ Token.Alike ts ts' ∧
      s.tokens = (tokens ⟨tail, offset, previous⟩).map (ts' ++ ·) := by
  unfold tokenize at scanned
  rw [ofSource_plain plain] at scanned
  exact tokens_followed line ⟨rest, allowed.trans rfl⟩ scanned

end Scanner

/-- Two sources with a block between them. -/
def enclosing (a b c : String) : String := a ++ "\n;\x7b\n" ++ b ++ "\n\x7d;\n" ++ c

theorem toList_enclosing (a b c : String) : (enclosing a b c).toList =
    a.toList ++ '\n' :: ';' :: '\x7b' :: '\n' ::
      (b.toList ++ '\n' :: '\x7d' :: ';' :: '\n' :: c.toList) := by
  unfold enclosing
  simp

theorem tokenize_enclosing {a b c : String} {as bs cs : List Token}
    (first : tokenize a = .ok as) (middle : tokenize b = .ok bs) (last : tokenize c = .ok cs)
    (plain : ¬ "#!".toList <+: b.toList) (plain' : ¬ "#!".toList <+: c.toList) :
    ∃ as' bs' cs' i j k l, List.Forall₂ Token.Alike as as' ∧ List.Forall₂ Token.Alike bs bs' ∧
      List.Forall₂ Token.Alike cs cs' ∧ tokenize (enclosing a b c) = .ok
        (as' ++ ⟨.punctuator, i, ";"⟩ :: ⟨.punctuator, j, "\x7b"⟩ ::
          (bs' ++ ⟨.punctuator, k, "\x7d"⟩ :: ⟨.punctuator, l, ";"⟩ :: cs')) := by
  have line : ∀ cs, StartsLine ('\n' :: cs) := by
    intro cs d mem
    cases mem
    rfl
  have newline : isBlank '\n' = true := by decide
  have semicolon : Scanner.isMark ';' = true := by decide
  have opener : Scanner.isMark '\x7b' = true := by decide
  have closer : Scanner.isMark '\x7d' = true := by decide
  obtain ⟨as', o, p, alike, whole⟩ := Scanner.tokens_followed (line _)
    (Scanner.ofSource_followed (line _) (toList_enclosing a b c)) first
  rw [Scanner.tokens_blank newline, Scanner.tokens_mark semicolon (by decide),
    Scanner.tokens_mark opener (by decide), Scanner.tokens_blank newline] at whole
  generalize before : Scanner.mk (b.toList ++ _) _ _ = s at whole
  obtain ⟨bs', o', p', alike', block⟩ := Scanner.tokens_behind plain middle (line _)
    (congrArg Scanner.rest before).symm (congrArg Scanner.regExpAllowed before).symm
  rw [block, Scanner.tokens_blank newline, Scanner.tokens_mark closer (by decide),
    Scanner.tokens_mark semicolon (by decide), Scanner.tokens_blank newline] at whole
  generalize before' : Scanner.mk c.toList _ _ = s' at whole
  have stops : StartsLine [] := nofun
  obtain ⟨cs', o'', p'', alike'', rest⟩ := Scanner.tokens_behind plain' last stops
    ((congrArg Scanner.rest before').symm.trans (List.append_nil _).symm)
    (congrArg Scanner.regExpAllowed before').symm
  rw [rest, Scanner.tokens_nil] at whole
  simp only [Except.map, List.append_nil] at whole
  exact ⟨as', bs', cs', _, _, _, _, alike, alike', alike'', whole⟩

-- ---------------------------------------------------------------------------
-- Analysis
-- ---------------------------------------------------------------------------

namespace Interface

variable {as as' bs bs' cs cs' : List Token} {m m' : Interface}

theorem AllAlike.of_append {ts : List Token} (alike : AllAlike (as ++ bs) ts) :
    ∃ as' bs', ts = as' ++ bs' ∧ AllAlike as as' ∧ AllAlike bs bs' := by
  induction as generalizing ts with
  | nil => exact ⟨[], ts, rfl, .nil, alike⟩
  | cons a as ih =>
    cases alike with
    | cons first others =>
      obtain ⟨as', bs', rfl, alike, alike'⟩ := ih others
      exact ⟨_, bs', rfl, .cons first alike, alike'⟩

/-- Nesting is a matter of kinds and texts. -/
theorem Nested.alike (nested : Nested bs) (alike : AllAlike bs bs') : Nested bs' := by
  induction nested generalizing bs' with
  | nil =>
    cases alike
    exact .nil
  | cons plain _ ih =>
    cases alike with
    | cons first others => exact .cons ((alike_isDelimiter first).trans plain) (ih others)
  | bracket kind kind' closes _ _ ihInner ih =>
    cases alike with
    | cons opener others =>
      obtain ⟨inner', rest', rfl, within, rest⟩ := AllAlike.of_append others
      cases rest with
      | cons closer rest =>
        refine .bracket (opener.kind.trans kind) (closer.kind.trans kind') ?_ (ihInner within)
          (ih rest)
        rw [opener.text, closer.text, closes]

/-- A semicolon ends whatever comes before it. -/
theorem startsBehind_semicolon (i : Nat) (ts : List Token) :
    StartsBehind (⟨.punctuator, i, ";"⟩ :: ts) := by
  intro u mem
  cases mem
  rfl

/-- Behind tokens that can be read to their end, a block in braces says nothing, and what comes
after it is read as by itself. -/
theorem ofTokens_enclosing {stop stop₁ stop₂ : Nat} (first : ofTokens stop₁ as = .ok m)
    (last : ofTokens stop₂ cs = .ok m') (nested : Nested bs) (alike : AllAlike as as')
    (alike' : AllAlike bs bs') (alike'' : AllAlike cs cs') (i j k l : Nat) :
    GoesOn stop m [] m' (ofTokens stop (as' ++ ⟨.punctuator, i, ";"⟩ ::
      ⟨.punctuator, j, "\x7b"⟩ :: (bs' ++ ⟨.punctuator, k, "\x7d"⟩ ::
        ⟨.punctuator, l, ";"⟩ :: cs'))) := by
  generalize behind : Token.mk .punctuator i ";" :: _ = us
  have ends : StartsBehind us := behind ▸ startsBehind_semicolon i _
  have reads : GoesOn stop empty us m (statements stop (empty.join empty) [] false (as' ++ us)) :=
    statements_followed alike .nil ends first
  rw [join_empty] at reads
  unfold ofTokens
  generalize statements stop empty [] false (as' ++ us) = result at reads ⊢
  cases reads with
  | clash before _ => cases before
  | read afterDot =>
    subst behind
    have none : StartsBehind [] := nofun
    have rest : GoesOn stop m [] m' (statements stop (m.join empty) [] false (cs' ++ [])) :=
      statements_followed alike'' .nil none last
    rw [join_empty, List.append_nil] at rest
    rw [empty_join, statements_semicolon,
      statements_bracket stop m [] false rfl rfl rfl (nested.alike alike'), statements_semicolon]
    exact rest

end Interface

-- ---------------------------------------------------------------------------
-- Compiling
-- ---------------------------------------------------------------------------

/-- A source that can be read into tokens is accepted or refused for its declarations. -/
theorem Module.compile_of_tokenize {source : String} {ts : List Token}
    (scanned : tokenize source = .ok ts) (name : String) :
    Module.compile source name =
      ((Interface.ofTokens source.utf8ByteSize ts).mapError (SyntaxError.declaration source)).map
        fun interface => ⟨name, interface, Code.ofTokens ts⟩ := by
  unfold Module.compile
  rw [scanned]
  show ((Interface.ofTokens source.utf8ByteSize ts).mapError _ >>= _) = _
  cases Interface.ofTokens source.utf8ByteSize ts <;> rfl

/-- Two sources that are accepted, with a block between them in which brackets nest, are accepted
exactly if they export no common name; otherwise they are refused for such a name. The interface of
the whole is that of the first source joined with that of the second. -/
theorem compile_enclosing {a b c name₁ name₂ : String} {m m' : Module} {ts : List Token}
    (first : Module.compile a name₁ = .ok m) (last : Module.compile c name₂ = .ok m')
    (scanned : tokenize b = .ok ts) (nested : Interface.Nested ts)
    (plain : ¬ "#!".toList <+: b.toList) (plain' : ¬ "#!".toList <+: c.toList) (name : String) :
    ((∃ whole, Module.compile (enclosing a b c) name = .ok whole) ↔
        m.interface.exports.Disjoint m'.interface.exports) ∧
      (∀ whole, Module.compile (enclosing a b c) name = .ok whole →
        whole.interface = m.interface.join m'.interface) ∧
      ∀ e, Module.compile (enclosing a b c) name = .error e →
        ∃ x ∈ m.interface.exports, x ∈ m'.interface.exports ∧
          e.cause = .declaration (.duplicateExport x) := by
  obtain ⟨as, interface, scannedA, readA, rfl⟩ := Module.compile_eq_ok.1 first
  obtain ⟨cs, interface', scannedC, readC, rfl⟩ := Module.compile_eq_ok.1 last
  obtain ⟨as', bs', cs', i, j, k, l, alike, alike', alike'', whole⟩ :=
    tokenize_enclosing scannedA scanned scannedC plain plain'
  have reads : Interface.GoesOn (enclosing a b c).utf8ByteSize interface [] interface' _ :=
    Interface.ofTokens_enclosing readA readC nested alike alike' alike'' i j k l
  rw [Module.compile_of_tokenize whole name]
  generalize read : Interface.ofTokens (enclosing a b c).utf8ByteSize _ = result at reads ⊢
  cases reads with
  | read afterDot =>
    rw [Interface.statements_nil] at read ⊢
    have distinct : (interface.exports ++ interface'.exports).Nodup := Interface.exports_nodup read
    have disjoint : interface.exports.Disjoint interface'.exports := by
      intro x mem mem'
      exact (List.nodup_append.1 distinct).2.2 x mem x mem' rfl
    refine ⟨⟨fun _ => disjoint, fun _ => ⟨_, rfl⟩⟩, ?_, nofun⟩
    rintro _ ⟨⟩
    rfl
  | clash before behind =>
    refine ⟨⟨nofun, fun disjoint => absurd behind (disjoint before)⟩, nofun, ?_⟩
    rintro _ ⟨⟩
    exact ⟨_, before, behind, rfl⟩

-- ---------------------------------------------------------------------------
-- Slashes at the joints
-- ---------------------------------------------------------------------------

/-- A division comes last in the first source and a regular expression first in the second; the
block between them has an import and, in brackets, an export. -/
theorem compile_enclosing_slashes :
    ∃ m m' whole, Module.compile "import'm';export default x/y" "a" = .ok m ∧
      Module.compile "/\x7d/;export*from'n';import'm';" "c" = .ok m' ∧
      Module.compile (enclosing "import'm';export default x/y" "import'b';(export y)"
        "/\x7d/;export*from'n';import'm';") "whole" = .ok whole ∧
      whole.interface = ⟨["m", "n"], ["default"], ["n"]⟩ := by
  have first : Module.compile "import'm';export default x/y" "a" = .ok ⟨"a",
      ⟨["m"], ["default"], []⟩, ⟨["import", "'m'", ";", "export", "default", "x", "/", "y"],
        [⟨.identifier, 0⟩, ⟨.string, 1⟩, ⟨.punctuator, 2⟩, ⟨.identifier, 3⟩, ⟨.identifier, 4⟩,
          ⟨.identifier, 5⟩, ⟨.punctuator, 6⟩, ⟨.identifier, 7⟩]⟩⟩ :=
    Interface.eq_ok_of_toOption (by decide +kernel)
  have last : Module.compile "/\x7d/;export*from'n';import'm';" "c" = .ok ⟨"c",
      ⟨["n", "m"], [], ["n"]⟩, ⟨["/\x7d/", ";", "export", "*", "from", "'n'", "import", "'m'"],
        [⟨.regExp, 0⟩, ⟨.punctuator, 1⟩, ⟨.identifier, 2⟩, ⟨.punctuator, 3⟩, ⟨.identifier, 4⟩,
          ⟨.string, 5⟩, ⟨.punctuator, 1⟩, ⟨.identifier, 6⟩, ⟨.string, 7⟩, ⟨.punctuator, 1⟩]⟩⟩ :=
    Interface.eq_ok_of_toOption (by decide +kernel)
  have scanned : tokenize "import'b';(export y)" = .ok [⟨.identifier, 0, "import"⟩,
      ⟨.string, 6, "'b'"⟩, ⟨.punctuator, 9, ";"⟩, ⟨.punctuator, 10, "("⟩, ⟨.identifier, 11, "export"⟩,
      ⟨.identifier, 18, "y"⟩, ⟨.punctuator, 19, ")"⟩] :=
    Interface.eq_ok_of_toOption (by decide +kernel)
  have inside : Interface.Nested [⟨.identifier, 11, "export"⟩, ⟨.identifier, 18, "y"⟩] :=
    .cons rfl (.cons rfl .nil)
  have brackets : Interface.Nested [⟨.punctuator, 10, "("⟩, ⟨.identifier, 11, "export"⟩,
      ⟨.identifier, 18, "y"⟩, ⟨.punctuator, 19, ")"⟩] :=
    Interface.Nested.bracket rfl rfl rfl inside .nil
  obtain ⟨accepted, interface, -⟩ := compile_enclosing first last scanned
    (.cons rfl (.cons rfl (.cons rfl brackets))) (by decide) (by decide) "whole"
  obtain ⟨whole, compiled⟩ := accepted.2 fun _ _ mem => nomatch mem
  exact ⟨_, _, whole, first, last, compiled, (interface whole compiled).trans rfl⟩

end Esm
