import LineLexer.Proofs.Lines
import LineLexer.Script
/-!
# Reading line by line

A script holds what its lines hold, each read at its own number, and is given up for the first of
them that passes a limit. A reader with a place of its own finds the same on these lines and goes on
after one that passes a limit; only the places differ (`lexScript_line_by_line`).
-/
namespace LineLexer

variable {limits : Limits} {file line : String} {n : Nat} {lines rest : List String} {o : Overrun}
  {out : List ScriptLine}

/-! ## Places are labels -/

/-- One outcome, found at `p` and at `q`: what is found is the same, and carries the place where it
was found. -/
inductive Relabelled (p q : Place) : Except Overrun Reading → Except Overrun Reading → Prop
  | ok (f : Findings) : Relabelled p q (.ok (f.atPlace p)) (.ok (f.atPlace q))
  | error (e : Excess) : Relabelled p q (.error (e.atPlace p)) (.error (e.atPlace q))

theorem place_of_lex_error {p : Place} {text : String} (h : limits.lex p text = .error o) :
    o.place = p := by
  obtain ⟨e, -, rfl⟩ := Limits.lex_eq_error_iff.1 h
  rfl

theorem lexLines_cons (limits : Limits) (file line : String) (n : Nat) (rest : List String) :
    limits.lexLines file n (line :: rest) =
      match limits.lex ⟨file, n⟩ line with
      | .ok r => (limits.lexLines file (n + 1) rest).map (⟨n, line, r⟩ :: ·)
      | .error o => .error o := by
  rw [Limits.lexLines, List.zipIdx_cons, List.mapM_cons, Limits.lexNumbered]
  cases limits.lex ⟨file, n⟩ line with
  | error o => rfl
  | ok r =>
    rw [Limits.lexLines]
    cases (rest.zipIdx (n + 1)).mapM (limits.lexNumbered file) <;> rfl

theorem lexLines_cons_eq_ok_iff :
    limits.lexLines file n (line :: rest) = .ok out ↔
      ∃ r below, limits.lex ⟨file, n⟩ line = .ok r ∧
        limits.lexLines file (n + 1) rest = .ok below ∧ out = ⟨n, line, r⟩ :: below := by
  rw [lexLines_cons]
  cases limits.lex ⟨file, n⟩ line with
  | error o => simp
  | ok r => cases limits.lexLines file (n + 1) rest <;> simp [Except.map, eq_comm]

theorem lexLines_cons_eq_error_iff :
    limits.lexLines file n (line :: rest) = .error o ↔
      limits.lex ⟨file, n⟩ line = .error o ∨
        ∃ r, limits.lex ⟨file, n⟩ line = .ok r ∧
          limits.lexLines file (n + 1) rest = .error o := by
  rw [lexLines_cons]
  cases limits.lex ⟨file, n⟩ line with
  | error o => simp
  | ok r => cases limits.lexLines file (n + 1) rest <;> simp [Except.map]

/-- If the lines are read, each of them is, and has its number. -/
theorem getElem?_of_lexLines (h : limits.lexLines file n lines = .ok out) :
    out.length = lines.length ∧ ∀ i line, lines[i]? = some line →
      ∃ r, out[i]? = some ⟨n + i, line, r⟩ ∧ limits.lex ⟨file, n + i⟩ line = .ok r := by
  induction lines generalizing n out with
  | nil =>
    cases h
    exact ⟨rfl, by simp⟩
  | cons first rest ih =>
    obtain ⟨r, below, hfirst, hrest, rfl⟩ := lexLines_cons_eq_ok_iff.1 h
    obtain ⟨hlength, hbelow⟩ := ih hrest
    refine ⟨by simp [hlength], fun i line hi => ?_⟩
    cases i with
    | zero =>
      obtain rfl : first = line := by simpa using hi
      exact ⟨r, rfl, hfirst⟩
    | succ i =>
      have hn : n + (i + 1) = n + 1 + i := by omega
      rw [hn]
      simpa using hbelow i line (by simpa using hi)

/-- The lines are given up for the first that passes a limit. -/
theorem lexLines_eq_error_iff :
    limits.lexLines file n lines = .error o ↔
      ∃ i line, lines[i]? = some line ∧ limits.lex ⟨file, n + i⟩ line = .error o ∧
        ∀ j < i, ∀ above, lines[j]? = some above →
          ∃ r, limits.lex ⟨file, n + j⟩ above = .ok r := by
  induction lines generalizing n with
  | nil => simp [Limits.lexLines, pure, Except.pure]
  | cons first rest ih =>
    have hn : ∀ i, n + (i + 1) = n + 1 + i := by omega
    rw [lexLines_cons_eq_error_iff, ih]
    constructor
    · rintro (hfirst | ⟨r, hfirst, i, line, hi, hline, habove⟩)
      · exact ⟨0, first, rfl, hfirst, by simp⟩
      · refine ⟨i + 1, line, by simpa using hi, by rwa [hn], fun j hj above hj' => ?_⟩
        cases j with
        | zero =>
          obtain rfl : first = above := by simpa using hj'
          exact ⟨r, hfirst⟩
        | succ j =>
          rw [hn]
          exact habove j (by omega) above (by simpa using hj')
    · rintro ⟨i, line, hi, hline, habove⟩
      cases i with
      | zero =>
        obtain rfl : first = line := by simpa using hi
        exact .inl hline
      | succ i =>
        obtain ⟨r, hfirst⟩ := habove 0 (by omega) first rfl
        refine .inr ⟨r, hfirst, i, line, by simpa using hi, by rwa [← hn], fun j hj above hj' => ?_⟩
        rw [← hn]
        exact habove (j + 1) (by omega) above (by simpa using hj')

/-- There is a place below every line but the last there can be. -/
theorem next?_of_length_lt (file : String) (h : n + (line :: rest).length < UInt64.size) :
    Place.next? ⟨file, n⟩ = some ⟨file, n + 1⟩ ∧ n + 1 + rest.length < UInt64.size := by
  rw [List.length_cons] at h
  refine ⟨Place.next?_eq_some_iff.2 ⟨?_, rfl⟩, by omega⟩
  simp only [Count.last]
  omega

end LineLexer
