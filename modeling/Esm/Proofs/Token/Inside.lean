-- SUMMARY: Inside a template the scanner reads token by token, by calls like those outside.
import Esm.Proofs.Token.Again
import Esm.Proofs.Token.Scanned

/-!
# Inside templates

The steps of a call keep a stack of the templates that are open. Seen from one of them, they read
the tokens of its substitution one by one, each by a call of its own, which knows nothing of what is
open around it; a nested template is such a token too. Main statement: `run_inside`, the equation of
a call while a template is open. So what holds of every call holds inside templates as well.
-/

namespace Esm.Scanner

open Text Lexeme

-- ---------------------------------------------------------------------------
-- Steps within templates
-- ---------------------------------------------------------------------------

/-- A step with more templates open around it: one that it completes is text of the template `f`. -/
def Step.within (f : Frame) (outer : List Frame) : Step → Step
  | .more frames s => .more (frames ++ f :: outer) s
  | .done (.ok t) s => .more (f.extend t.text.toList :: outer) s
  | .done (.error failure) s => .done (.error failure) s

variable (f : Frame) (outer : List Frame)

theorem templateStep_within (g : Frame) (inner : List Frame) (s : Scanner) :
    templateStep g (inner ++ f :: outer) s = (templateStep g inner s).within f outer := by
  unfold templateStep
  cases ending : (templateChunk s.rest).ending with
  | unterminated => simp only [ending, Step.within]
  | substitution => simp only [ending, Step.within, List.cons_append]
  | closed =>
    cases inner with
    | nil => simp only [ending, Step.within, List.nil_append, String.toList_ofList]
    | cons h inner => simp only [ending, Step.within, List.cons_append]

theorem tokenStep_within (g : Frame) (inner : List Frame) (t : Token) (s : Scanner) :
    tokenStep (g :: inner ++ f :: outer) t s = (tokenStep (g :: inner) t s).within f outer := by
  unfold tokenStep
  simp only [List.cons_append]
  split
  · rfl
  · split
    · split
      · exact templateStep_within f outer g inner s
      · rfl
    · rfl

theorem step_within (g : Frame) (inner : List Frame) (s : Scanner) :
    step (g :: inner ++ f :: outer) s = (step (g :: inner) s).within f outer := by
  unfold step
  cases gap s.rest with
  | unterminated before comment => rfl
  | complete blank rest =>
    cases rest with
    | nil => rfl
    | cons c cs =>
      dsimp only
      cases head (s.skip blank (c :: cs)).regExpAllowed c cs with
      | fault cause text rest => rfl
      | token kind text rest => exact tokenStep_within f outer _ _ _ _
      | template => exact templateStep_within f outer _ (g.extend blank :: inner) _

theorem step_more_ne_nil {frames frames' : List Frame} {s s' : Scanner} (inside : frames ≠ [])
    (h : step frames s = .more frames' s') : frames' ≠ [] := by
  obtain ⟨g, inner, rfl⟩ := List.exists_cons_of_ne_nil inside
  have extends_ : (step (g :: inner) s).Extends _ _ s := step_extends rfl s
  rw [h] at extends_
  rintro rfl
  cases extends_.1

/-- What comes of a call with more templates open around it: the template that the call completes is
text of `f`, which is read on. -/
def resume : Except Failure Token × Scanner → Except Failure Token × Scanner
  | (.ok t, s) => run (f.extend t.text.toList :: outer) s
  | (.error failure, s) => (.error failure, s)

theorem run_within {inner : List Frame} (inside : inner ≠ []) (s : Scanner) :
    run (inner ++ f :: outer) s = resume f outer (run inner s) := by
  fun_induction run inner s with
  | case1 inner s result s' taken =>
    obtain ⟨g, inner, rfl⟩ := List.exists_cons_of_ne_nil inside
    rw [run_eq_finish, step_within, taken]
    cases result <;> rfl
  | case2 inner s frames s' taken ih =>
    rw [← ih (step_more_ne_nil inside taken)]
    obtain ⟨g, inner, rfl⟩ := List.exists_cons_of_ne_nil inside
    rw [run_eq_finish, step_within, taken]
    rfl

theorem finish_within {first : Step} (opened : first.Encloses) :
    (first.within f outer).finish = resume f outer first.finish := by
  cases first with
  | done result s => cases result <;> rfl
  | more frames s => exact run_within f outer opened.1 s

-- ---------------------------------------------------------------------------
-- Calls within templates
-- ---------------------------------------------------------------------------

/-- The text that stands before one scanner and not before another one that has read on. -/
def taken (s s' : Scanner) : List Char := s.rest.take (s.rest.length - s'.rest.length)

theorem Takes.taken_eq {s s' : Scanner} {text : List Char} (takes : s.Takes text s') :
    taken s s' = text := by
  unfold taken
  rw [← takes.rest, List.length_append, Nat.add_sub_cancel, List.take_left']
  rfl

theorem extend_extend (text more : List Char) :
    (f.extend text).extend more = f.extend (text ++ more) := by
  simp [Frame.extend]

theorem tokenStep_template {t : Token} (template : t.kind = .template) (s : Scanner) :
    tokenStep (f :: outer) t s = .more (f :: outer) s := by
  simp [tokenStep, Token.isPunctuator, template]

/-- While the template `f` is open, a call makes another one for the next token of the substitution.
A fault of that one is its own, the end of the input leaves the template unterminated, and behind
every other token it goes on as the token tells it to. -/
theorem run_inside (s : Scanner) : run (f :: outer) s =
    match s.next with
    | (.error failure, s') => (.error failure, s')
    | (.ok t, s') =>
      if t.kind = .endOfInput then (.error ⟨.unterminatedTemplate, f.start⟩, s')
      else (tokenStep (f.extend (taken s s') :: outer) t s').finish := by
  cases read : gap s.rest with
  | unterminated before comment =>
    rw [run_done (step_unterminated read _), next_of_step (step_unterminated read [])]
  | complete blank rest =>
    cases rest with
    | nil =>
      rw [next_end read, run_eq_finish]
      unfold step
      simp only [read, if_true]
      rfl
    | cons c cs =>
      cases first : head s.regExpAllowed c cs with
      | fault cause text rest =>
        rw [run_done (step_fault read first _), next_of_step (step_fault read first [])]
      | token kind text rest =>
        let t : Token := ⟨kind, s.offset + byteLength blank, String.ofList text⟩
        let s' := ((s.skip blank (c :: cs)).skip text rest).complete t
        have call : s.next = (.ok t, s') := next_of_step (step_token read first [])
        obtain ⟨blank', rest', read', takes, -⟩ := next_takes call
        obtain ⟨rfl, -⟩ : blank = blank' ∧ _ := by simpa using read.symm.trans read'
        have text_taken : taken s s' = blank ++ text := by
          rw [takes.taken_eq, String.toList_ofList]
        rw [call, run_eq_finish, step_token read first]
        simp only [if_neg (show t.kind ≠ .endOfInput from head_kind first), text_taken]
        rfl
      | template =>
        obtain rfl := head_template first
        let g : Frame := ⟨s.offset + byteLength blank, [backtick], 0⟩
        let behind := (s.skip blank (backtick :: cs)).skip [backtick] cs
        have opened : (templateStep g [] behind).Encloses :=
          templateStep_encloses (opened_cons.2 ⟨rfl, List.forall_mem_nil _⟩) _
        have alone : s.next = (templateStep g [] behind).finish :=
          (run_eq_finish [] s).trans (congrArg Step.finish (step_backtick read []))
        have inside : run (f :: outer) s = resume (f.extend blank) outer s.next := by
          rw [alone, ← finish_within _ _ opened, ← templateStep_within, run_eq_finish,
            step_backtick read]
          rfl
        rw [inside]
        cases call : s.next with
        | mk result s' =>
          cases result with
          | error failure => rfl
          | ok t =>
            obtain ⟨template, -⟩ := next_backtick read call
            obtain ⟨blank', rest', read', takes, -⟩ := next_takes call
            obtain ⟨rfl, -⟩ : blank = blank' ∧ _ := by simpa using read.symm.trans read'
            have proper : t.kind ≠ .endOfInput := by rw [template]; decide
            simp only [if_neg proper, tokenStep_template _ _ template, takes.taken_eq, resume,
              extend_extend]
            rfl

/-- While it reads on from `s`, call by call, the scanner comes to stand at `u` with the templates
`frames` open, before the next token of the innermost substitution. -/
inductive Reaches (s : Scanner) : List Frame → Scanner → Prop where
  | start : Reaches s [] s
  | inside {frames frames' : List Frame} {u u' : Scanner} : Reaches s frames u →
    step frames u = .more frames' u' → Reaches s frames' u'
  | next {frames : List Frame} {t : Token} {u u' : Scanner} : Reaches s frames u →
    step frames u = .done (.ok t) u' → Reaches s [] u'

end Esm.Scanner
