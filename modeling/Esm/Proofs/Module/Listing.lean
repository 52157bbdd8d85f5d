-- SUMMARY: The listing of a compiled module compiles to that module.
import Esm.Proofs.Code.Lowering
import Esm.Proofs.Interface.Followed
import Esm.Proofs.Token.Scanned

/-!
# Listings

Compiled code keeps of a source what its tokens are spelled like, in their order. Written down with a
space between any two of them these spellings are a source again, and compile to the same module:
only blanks, comments and a skipped first line are lost.
-/

namespace Esm

open Text

-- ---------------------------------------------------------------------------
-- Tokens
-- ---------------------------------------------------------------------------

namespace Scanner

/-- The texts of tokens do not start with a line that would be skipped. -/
theorem spaced_plain {ts : List Token} (scanned : ∀ t ∈ ts, t.Scanned) :
    ¬ "#!".toList <+: spaced ts := by
  rintro ⟨cs, text⟩
  have text : '#' :: '!' :: cs = spaced ts := text
  cases ts with
  | nil => cases text
  | cons t ts =>
    obtain ⟨behind, parts, space⟩ : ∃ behind, spaced (t :: ts) = t.text.toList ++ behind ∧
        ∀ c ∈ behind.head?, c = ' ' := by
      cases ts with
      | nil => exact ⟨[], by simp [spaced, List.intercalate], nofun⟩
      | cons t' ts =>
        exact ⟨' ' :: spaced (t' :: ts), by simp [spaced, List.intercalate_cons_cons], by simp⟩
    have first := (scanned t List.mem_cons_self).not_hashbang
    rw [parts] at text
    generalize t.text.toList = spelled at text first
    cases spelled with
    | nil =>
      rw [List.nil_append] at text
      subst text
      exact absurd (space '#' rfl) (by decide)
    | cons c spelled =>
      obtain ⟨rfl, others⟩ := List.cons.inj text
      have others : '!' :: cs = spelled ++ behind := others
      cases spelled with
      | nil =>
        obtain rfl : '!' :: cs = behind := others
        exact absurd (space '!' rfl) (by decide)
      | cons d spelled =>
        obtain ⟨rfl, -⟩ := List.cons.inj others
        exact first spelled rfl

theorem regExpAllowed_ofSource (source : String) : (ofSource source).regExpAllowed = true := by
  unfold ofSource
  dsimp only
  split <;> rfl

end Scanner

/-- The texts of the tokens of a source, with a space between them, are a source of these tokens. -/
theorem tokenize_spaced {source : String} {ts : List Token} (scanned : tokenize source = .ok ts) :
    ∃ ts', tokenize (" ".intercalate (ts.map Token.text)) = .ok ts' ∧
      List.Forall₂ Token.Alike ts ts' := by
  have text : (" ".intercalate (ts.map Token.text)).toList = Scanner.spaced ts := by
    rw [String.toList_intercalate, List.map_map]
    rfl
  have plain := Scanner.spaced_plain (Scanner.scanned_of_mem_tokens scanned)
  unfold tokenize
  rw [Scanner.ofSource_plain (text ▸ plain)]
  exact Scanner.tokens_again scanned ⟨text, (Scanner.regExpAllowed_ofSource source).symm⟩

-- ---------------------------------------------------------------------------
-- Modules
-- ---------------------------------------------------------------------------

/-- Lowering looks at the kinds and texts of tokens, not at their places. -/
theorem Code.lower_alike {ts ts' : List Token} (alike : List.Forall₂ Token.Alike ts ts')
    (atoms : Atoms) : lower atoms ts' = lower atoms ts := by
  induction alike generalizing atoms with
  | nil => rfl
  | cons first _ ih => simp only [lower, first.kind, first.text, ih]

namespace Module

/-- The tokens of a source that compiles compile to the same module when their texts are written
down with a space between them. The code of the module lists these texts, provided that there are
no more atoms than words to number them: what it spells is a source of the module then. -/
theorem compile_spelling {source name : String} {m : Module}
    (accepted : compile source name = .ok m) :
    (m.code.atoms.length ≤ UInt32.size → compile m.code.spelling name = .ok m) ∧
      ∃ ts, tokenize source = .ok ts ∧ m.code = Code.ofTokens ts ∧
        compile (" ".intercalate (ts.map Token.text)) name = .ok m := by
  obtain ⟨ts, interface, scanned, declared, rfl⟩ := compile_eq_ok.1 accepted
  obtain ⟨ts', scanned', alike⟩ := tokenize_spaced scanned
  have again : compile (" ".intercalate (ts.map Token.text)) name =
      .ok ⟨name, interface, Code.ofTokens ts⟩ := by
    refine compile_eq_ok.2 ⟨ts', interface, scanned', Interface.ofTokens_alike alike declared, ?_⟩
    exact congrArg _ (Code.lower_alike alike .empty).symm
  refine ⟨fun few => ?_, ts, scanned, rfl, again⟩
  have spelled : (Code.ofTokens ts).spelling = _ := Code.spelling_ofTokens few
  rw [spelled]
  exact again

/-- A skipped line, comments, a division, a regular expression and a number in a template. -/
theorem compile_spelling_slashes :
    let source := "#!x\na.b/c/*;*/(/[/]/g,`$\x7b1.e+3\x7d`)//"
    let listing := "a . b / c ( /[/]/g , `$\x7b1.e+3\x7d` )"
    ∃ m, compile source "m" = .ok m ∧ m.code.spelling = listing ∧ compile listing "m" = .ok m := by
  intro source listing
  let m : Module := ⟨"m", .empty,
    ⟨["a", ".", "b", "/", "c", "(", "/[/]/g", ",", "`$\x7b1.e+3\x7d`", ")"],
      [⟨.identifier, 0⟩, ⟨.punctuator, 1⟩, ⟨.identifier, 2⟩, ⟨.punctuator, 3⟩, ⟨.identifier, 4⟩,
        ⟨.punctuator, 5⟩, ⟨.regExp, 6⟩, ⟨.punctuator, 7⟩, ⟨.template, 8⟩, ⟨.punctuator, 9⟩]⟩⟩
  have accepted : compile source "m" = .ok m := Interface.eq_ok_of_toOption (by decide +kernel)
  have spelled : m.code.spelling = listing := by decide +kernel
  have few : m.code.atoms.length ≤ UInt32.size := by decide
  have again := (compile_spelling accepted).1 few
  rw [spelled] at again
  exact ⟨m, accepted, spelled, again⟩

end Module

end Esm
