-- SUMMARY: Every call of the scanner ends, and takes something unless the input has ended.
import Mathlib.Logic.Function.Iterate
import Esm.Proofs.Token.Tiling

/-!
# Progress

A scanner can be asked again and again, also after a fault, which may have stopped it anywhere
inside templates that are still open. Each call ends after finitely many steps, and each call that
does not answer with the end of the input has taken at least one character. So there are at most as
many such calls as there are characters, and every call after them answers with the end. Main
statement: `calls_progress`.
-/

namespace Esm
namespace Scanner

open Text Lexeme

-- ---------------------------------------------------------------------------
-- Steps of a call
-- ---------------------------------------------------------------------------

/-- From a scanner, with these templates open, the given number of steps leads to this answer. -/
inductive Ends : Nat → List Frame → Scanner → Except Failure Token × Scanner → Prop where
  | done {frames : List Frame} {s s' : Scanner} {result : Except Failure Token} :
    step frames s = .done result s' → Ends 1 frames s (result, s')
  | more {n : Nat} {frames frames' : List Frame} {s s' : Scanner}
    {answer : Except Failure Token × Scanner} :
    step frames s = .more frames' s' → Ends n frames' s' answer → Ends (n + 1) frames s answer

/-- A call takes at most one step for every character before it, and one more. -/
theorem run_ends (frames : List Frame) (s : Scanner) :
    ∃ n ≤ s.rest.length + 1, Ends n frames s (run frames s) := by
  fun_induction run frames s with
  | case1 frames s result s' last => exact ⟨1, Nat.le_add_left _ _, .done last⟩
  | case2 frames s frames' s' first ih =>
    obtain ⟨n, bound, ends⟩ := ih
    have shorter := step_more_lt first
    exact ⟨n + 1, by omega, .more first ends⟩

-- ---------------------------------------------------------------------------
-- What a call takes
-- ---------------------------------------------------------------------------

/-- The answer is that the input has ended. -/
def IsEnd : Except Failure Token → Prop
  | .ok t => t.kind = .endOfInput
  | .error _ => False

/-- A scanner that has taken something is further on. -/
theorem Takes.offset_lt {s s' : Scanner} {c : Char} {text : List Char}
    (takes : s.Takes (c :: text) s') : s.offset < s'.offset := by
  have bytes := length_le_byteLength (c :: text)
  rw [List.length_cons] at bytes
  have offset := takes.offset
  omega

/-- What is left to read when a scanner has taken something is less. -/
theorem Takes.rest_lt {s s' : Scanner} {c : Char} {text : List Char}
    (takes : s.Takes (c :: text) s') : s'.rest.length < s.rest.length := by
  rw [← takes.rest, List.length_append, List.length_cons]
  omega

/-- To take text does not move the end of the text. -/
theorem Takes.finish {s s' : Scanner} {taken : List Char} (takes : s.Takes taken s') :
    s'.offset + byteLength s'.rest = s.offset + byteLength s.rest := by
  rw [takes.offset, ← takes.byteLength_eq, Nat.add_assoc]

/-- A call that meets a character behind the gap leaves less to read, however many templates it
opens and wherever it stops in them. -/
theorem run_scanner_lt (frames : List Frame) {s : Scanner} {blank cs : List Char} {c : Char}
    (read : gap s.rest = .complete blank (c :: cs)) :
    (run frames s).2.rest.length < s.rest.length := by
  have shorter := step_scanner_lt frames read
  cases first : step frames s with
  | done result s' =>
    rw [first] at shorter
    rwa [run_done first]
  | more frames' s' =>
    rw [first] at shorter
    obtain ⟨taken, takes⟩ := run_suffix (rfl : run frames' s' = (_, (run frames' s').2))
    have left := length_le_of_append_eq takes.rest
    rw [run_more first]
    exact Nat.lt_of_le_of_lt left shorter

/-- Either nothing but a gap is left, and the call answers with the end of the input behind it, or
the call answers with something else, and takes at least one character. -/
theorem next_cases (s : Scanner) :
    (∃ blank, gap s.rest = .complete blank []) ∨
      ¬ IsEnd s.next.1 ∧ ∃ c text, s.Takes (c :: text) s.next.2 := by
  cases read : gap s.rest with
  | unterminated before comment =>
    apply Or.inr
    rw [next_of_step (step_unterminated read [])]
    refine ⟨id, ?_⟩
    cases rest : s.rest with
    | nil =>
      rw [rest, gap] at read
      cases read
    | cons c text => exact ⟨c, text, takes_skip (rest ▸ List.append_nil _)⟩
  | complete blank rest =>
    cases rest with
    | nil => exact Or.inl ⟨blank, rfl⟩
    | cons c cs =>
      apply Or.inr
      constructor
      · intro ended
        cases call : s.next with
        | mk answer s' =>
          rw [call] at ended
          cases answer with
          | error failure => exact ended
          | ok t =>
            obtain ⟨blank', read'⟩ := gap_of_ended call ended
            rw [read] at read'
            cases read'
      · have shorter : s.next.2.rest.length < s.rest.length := run_scanner_lt [] read
        obtain ⟨taken, takes⟩ := run_suffix (rfl : run [] s = (_, s.next.2))
        cases taken with
        | nil =>
          rw [← takes.rest, List.nil_append] at shorter
          exact absurd shorter (Nat.lt_irrefl _)
        | cons c' text => exact ⟨c', text, takes⟩

-- ---------------------------------------------------------------------------
-- One call after the other
-- ---------------------------------------------------------------------------

/-- The scanner after a number of calls, whatever they have answered. -/
def after (s : Scanner) (n : Nat) : Scanner := (fun u => u.next.2)^[n] s

/-- The answer to a call, where `n` calls have been made before. -/
def answer (s : Scanner) (n : Nat) : Except Failure Token := (s.after n).next.1

theorem answer_succ (s : Scanner) (n : Nat) : s.answer (n + 1) = s.next.2.answer n := rfl

/-- The end of the input, for a scanner that has this text before it. -/
def endToken (s : Scanner) : Token := ⟨.endOfInput, s.offset + byteLength s.rest, ""⟩

theorem next_endToken {s : Scanner} {blank : List Char} (read : gap s.rest = .complete blank []) :
    s.next = (.ok s.endToken, s.skip s.rest []) := by
  have whole := gap_source s.rest
  rw [read, Gap.source, List.append_nil] at whole
  rw [next_end read, whole]
  rfl

/-- Once a call has answered with the end of the input, every further one does. -/
theorem answer_ended {s : Scanner} {blank : List Char} (read : gap s.rest = .complete blank [])
    (n : Nat) : s.answer n = .ok s.endToken := by
  induction n generalizing s blank with
  | zero => exact congrArg Prod.fst (next_endToken read)
  | succ n ih =>
    have stays : (s.skip s.rest []).endToken = s.endToken := rfl
    have ended : gap (s.skip s.rest []).rest = .complete [] [] := by rw [skip, gap]
    rw [answer_succ, next_endToken read, ← stays]
    exact ih ended

/-- At most as many calls as there are characters answer with something else than the end. -/
theorem answers_end (s : Scanner) : ∃ m ≤ s.rest.length,
    (∀ n < m, ¬ IsEnd (s.answer n)) ∧ ∀ n ≥ m, s.answer n = .ok s.endToken := by
  obtain ⟨blank, read⟩ | ⟨proper, c, text, takes⟩ := next_cases s
  · exact ⟨0, Nat.zero_le _, fun n below => absurd below (Nat.not_lt_zero n),
      fun n _ => answer_ended read n⟩
  · have shorter := takes.rest_lt
    have same : s.next.2.endToken = s.endToken := by rw [endToken, takes.finish, endToken]
    obtain ⟨m, bound, before, behind⟩ := answers_end s.next.2
    rw [same] at behind
    refine ⟨m + 1, Nat.lt_of_le_of_lt bound shorter, fun n below => ?_, fun n above => ?_⟩
    · cases n with
      | zero => exact proper
      | succ n => exact before n (Nat.lt_of_succ_lt_succ below)
    · cases n with
      | zero => exact absurd above (Nat.not_succ_le_zero m)
      | succ n => exact behind n (Nat.le_of_succ_le_succ above)
termination_by s.rest.length

/-- A scanner of any source can be called any number of times, also after faults. Each call ends,
and each call that does not answer with the end of the input takes at least one character, which
moves the offset on by its bytes. So at most as many calls as the source has characters answer with
a token or a fault, and from then on every call answers with the empty token at the end of the
source. -/
theorem calls_progress (source : String) :
    let s := ofSource source
    (∀ n, ∃ steps ≤ (s.after n).rest.length + 1,
      Ends steps [] (s.after n) (s.answer n, s.after (n + 1))) ∧
    (∀ n, ¬ IsEnd (s.answer n) → (s.after n).offset < (s.after (n + 1)).offset ∧
      ∃ c text, c :: text ++ (s.after (n + 1)).rest = (s.after n).rest ∧
        (s.after (n + 1)).offset = (s.after n).offset + byteLength (c :: text)) ∧
    ∃ m ≤ source.length, (∀ n < m, ¬ IsEnd (s.answer n)) ∧
      ∀ n ≥ m, s.answer n = .ok ⟨.endOfInput, byteLength source.toList, ""⟩ := by
  intro s
  have later : ∀ n, s.after (n + 1) = (s.after n).next.2 :=
    fun n => Function.iterate_succ_apply' _ n s
  refine ⟨fun n => ?_, fun n proper => ?_, ?_⟩
  · rw [later]
    exact run_ends [] (s.after n)
  · rw [later]
    obtain ⟨blank, read⟩ | ⟨-, c, text, takes⟩ := next_cases (s.after n)
    · rw [answer, next_endToken read] at proper
      exact absurd rfl proper
    · exact ⟨takes.offset_lt, c, text, takes.rest, takes.offset⟩
  · obtain ⟨line, whole, -, offset⟩ := hashbang_ofSource source
    obtain ⟨m, bound, before, behind⟩ := answers_end s
    have finish : s.endToken = ⟨.endOfInput, byteLength source.toList, ""⟩ := by
      rw [endToken, offset, ← byteLength_append, whole]
    have characters : s.rest.length ≤ source.length := by
      rw [← String.length_toList]
      exact length_le_of_append_eq whole
    exact ⟨m, Nat.le_trans bound characters, before, fun n above => finish ▸ behind n above⟩

/-- A fault in a regular expression two templates deep, then a fault where both are cut off, then
the end of the input for good. -/
example : let s := ofSource "`a$\x7b`b$\x7b/\n`c$\x7b"
    [s.answer 0, s.answer 1, s.answer 2, s.answer 3, s.answer 4] =
      [.error ⟨.unterminatedRegExp, 8⟩, .error ⟨.unterminatedTemplate, 10⟩,
        .ok ⟨.endOfInput, 14, ""⟩, .ok ⟨.endOfInput, 14, ""⟩, .ok ⟨.endOfInput, 14, ""⟩] := by
  decide +kernel

end Scanner
end Esm
