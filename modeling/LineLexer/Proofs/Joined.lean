import LineLexer.Proofs.After
import LineLexer.Proofs.Diagnosis
import LineLexer.Proofs.LetterRuns
import LineLexer.Proofs.Terminator
/-!
# Texts one behind the other

A text that leaves no string and no parenthesis open leaves the scan as it was at the start, but for
what has been found, for the column, and for a word that letters could join. So a text behind it is
read as it is alone, further to the right, and what the end of the first brought out goes
(`lex_append_of_neutral`).
-/
namespace LineLexer

open String (utf8Len)

variable {depth : Nat} {s : Scan} {a b : List Char} {f : Findings}

/-! ## What the end of a text brings out -/

/-- The fault of a lexeme is about its text. -/
theorem cause_of_mem_faultsAfter {before ls : List Lexeme} {x : Fault}
    (h : x ∈ faultsAfter before ls) :
    x.cause = .strayCloser ∨ ∃ text, x.cause = .unknown text := by
  induction ls generalizing before with
  | nil => simp [faultsAfter] at h
  | cons l ls ih =>
    rw [faultsAfter, List.mem_append, Option.mem_toList] at h
    rcases h with h | h
    · unfold Lexeme.fault? at h
      split_ifs at h
      · obtain rfl := Option.some.inj h
        exact .inl rfl
      · obtain rfl := Option.some.inj h
        exact .inr ⟨_, rfl⟩
    · exact ih h

namespace Scan

/-- A missing semicolon is told of at the end and not before. -/
theorem cause_ne_unterminated_of_run (hr : run depth start a = .ok s) :
    ∀ x ∈ s.settle.faults.toList, x.cause ≠ .unterminated := by
  intro x hx hcause
  rw [((diagnosed_of_run hr).settle (lexed_of_run hr)).faults] at hx
  rcases cause_of_mem_faultsAfter hx with h | ⟨text, h⟩
  · rw [h] at hcause
    cases hcause
  · rw [h] at hcause
    cases hcause

/-- Where no string and no parenthesis is told of, none is open. -/
theorem closed_of_exhausted
    (h : ∀ x ∈ s.exhausted.faults, x.cause ≠ .unclosedString ∧ x.cause ≠ .unclosedParen) :
    s.openQuote? = none ∧ s.opened = [] := by
  constructor
  · by_contra hq
    obtain ⟨quote, hquote⟩ := Option.ne_none_iff_exists'.1 hq
    exact (h ⟨.unclosedString, quote⟩ (by simp [exhausted, unclosedString, hquote])).1 rfl
  · cases ho : s.opened with
    | nil => rfl
    | cons column outer =>
      have hmem : ⟨.unclosedParen, column⟩ ∈ s.exhausted.faults := by
        simp [exhausted, unclosedParen, ho]
      exact absurd rfl (h _ hmem).2

/-- What is left of the faults at the end without the missing semicolon. -/
theorem filter_exhausted (hr : run depth start a = .ok s) (hq : s.openQuote? = none)
    (ho : s.opened = []) :
    s.settle.exhausted.faults.filter (fun x => x.cause ≠ .unterminated) =
      s.settle.faults.toList := by
  have hfound : s.settle.faults.toList.filter (fun x => x.cause ≠ .unterminated) =
      s.settle.faults.toList := by
    refine List.filter_eq_self.2 fun x hx => ?_
    simpa using cause_ne_unterminated_of_run hr x hx
  have hmissing : s.settle.unterminated.filter (fun x => x.cause ≠ .unterminated) = [] := by
    simp [unterminated]
  have hstring : s.settle.unclosedString = [] := by simp [unclosedString, hq]
  have hparen : s.settle.unclosedParen = [] := by simp [unclosedParen, ho]
  rw [exhausted, hstring, hparen, List.append_nil, List.append_nil, List.filter_append, hfound,
    hmissing, List.append_nil]

/-! ## Behind a neutral point -/

/-- If no letter comes first, a word before the text is given up. -/
theorem outcome_run_settle_of_ne_letter (hq : s.openQuote? = none)
    (hb : ∀ c, (b.dropWhile Text.isBlank).head? = some c → Text.isLetter c = false) :
    outcome (run depth s.settle b) = outcome (run depth s b) := by
  have hgap : ∀ c ∈ b.takeWhile Text.isBlank, Text.isBlank c = true :=
    List.all_eq_true.1 List.all_takeWhile
  have hsplit := List.takeWhile_append_dropWhile (p := Text.isBlank) (l := b)
  have hright : ∀ c, (b.dropWhile Text.isBlank).head? = some c → Text.isInRun c = false := by
    intro c hc
    have hblank := List.head?_dropWhile_not Text.isBlank b
    rw [hc] at hblank
    simp only [Text.isInRun, hb c hc, Bool.false_or]
    simpa using hblank
  -- over the blanks both scans only move on
  have hrun : run depth s (b.takeWhile Text.isBlank) = .ok _ := run_blanks hq hgap
  have hrun' : run depth s.settle (b.takeWhile Text.isBlank) = .ok _ :=
    run_blanks (by simpa using hq) hgap
  rw [← hsplit, run_append_of_ok hrun, run_append_of_ok hrun', column_settle, ← settle_column]
  exact outcome_run_settle hq hright

/-- With nothing open and nothing pending, a text is read as at the start of a line. -/
theorem run_of_neutral (ho : s.opened = []) (hp : s.pending = .nothing)
    (hb : run depth start b = .error (.terminated f)) :
    run depth s b = .error (.terminated (s.found ++ f.moved (s.column + ·))) := by
  have hfresh : fresh s.column s.opened = start.moved (s.column + ·) := by
    simp [ho, fresh, moved, start, Pending.moved]
  have hcolumn : ∀ n, s.column + (start.column + n) = s.column + start.column + n :=
    fun n => (Nat.add_assoc _ _ _).symm
  calc run depth s b = run depth ((start.moved (s.column + ·)).after s.found) b := by
        rw [← hfresh, ← eq_fresh_after hp]
    _ = .error (.terminated (s.found ++ f.moved (s.column + ·))) := by
        rw [run_after, run_moved hcolumn, hb]
        rfl

end Scan

/-! ## Whole texts -/

variable {limits : Limits} {place : Place}

/-- A word that is still going on at the end of a text is its last token. -/
theorem isWord_of_pending {start : Nat} {letters : String} (hr : Scan.run depth .start a = .ok s)
    (hp : s.pending = .word start letters) (p : Place) :
    ∃ t, (s.settle.exhausted.atPlace p).tokens.getLast? = some t ∧ t.content.IsWord := by
  have hword := (Scan.lexed_of_run hr).word start letters hp
  refine ⟨Lexeme.onLine ⟨.unknown, letters, start⟩ p.line, ?_, hword.isWord⟩
  simp [Findings.atPlace, Scan.exhausted, Scan.lexemes_settle_of_word hp]

/-- A word at the end of a text is as good as given up, if nothing behind the text can go on with
it. -/
theorem outcome_run_settle_of_apart (hr : Scan.run depth .start a = .ok s)
    (hq : s.openQuote? = none) (p : Place)
    (hapart : (∀ t, (s.settle.exhausted.atPlace p).tokens.getLast? = some t → ¬ t.content.IsWord) ∨
      ∀ c, (b.dropWhile Text.isBlank).head? = some c → Text.isLetter c = false) :
    Scan.outcome (Scan.run depth s.settle b) = Scan.outcome (Scan.run depth s b) := by
  rcases hapart with hlast | hletter
  · cases hp : s.pending with
    | nothing => rw [Scan.settle_of_nothing hp]
    | word start letters =>
      obtain ⟨t, ht, hword⟩ := isWord_of_pending hr hp p
      exact absurd hword (hlast t ht)
    | string quote body => simp [Scan.openQuote?_of_string hp] at hq
  · exact Scan.outcome_run_settle_of_ne_letter hq hletter

theorem Reading.isTerminated_of_append {r r' : Reading} {before : List Token} {g : Nat → Nat}
    (hend : r.isTerminated = true) (h : r'.tokens = before ++ r.tokens.map (·.moved g)) :
    r'.isTerminated = true := by
  obtain ⟨front, t, ht, hkind⟩ := isTerminated_iff.1 hend
  refine isTerminated_iff.2 ⟨before ++ front.map (·.moved g), t.moved g, ?_, hkind⟩
  rw [h, ht, List.map_append, List.append_assoc]
  rfl

/-- A text that is not terminated and leaves nothing open, and behind it one that is terminated, are
read as each of them alone, the second as many columns to the right as the first has bytes; only the
missing semicolon of the first is missed no longer. A word at the end of the first must not go on in
the second. -/
theorem lex_append_of_neutral {a b : String} {ra rb : Reading}
    (ha : limits.lex place a = .ok ra) (hgoing : ra.isTerminated = false)
    (hclosed : ∀ d ∈ ra.diagnostics, d.cause ≠ .unclosedString ∧ d.cause ≠ .unclosedParen)
    (hapart : (∀ t, ra.tokens.getLast? = some t → ¬ t.content.IsWord) ∨
      ∀ c, (b.toList.dropWhile Text.isBlank).head? = some c → Text.isLetter c = false)
    (hb : limits.lex place b = .ok rb) (hend : rb.isTerminated = true)
    (hfits : (Text.dropEnding (a ++ b)).utf8ByteSize ≤ limits.length) :
    ∃ r, limits.lex place (a ++ b) = .ok r ∧ r.isTerminated = true ∧
      r.tokens = ra.tokens ++ rb.tokens.map (·.moved (a.utf8ByteSize + ·)) ∧
      r.diagnostics = ra.diagnostics.filter (fun d => d.cause ≠ .unterminated) ++
        rb.diagnostics.map (·.moved (a.utf8ByteSize + ·)) := by
  obtain ⟨s, hs, rfl⟩ := exists_run_of_isTerminated_eq_false ha hgoing
  obtain ⟨f, hf, rfl⟩ := exists_run_of_isTerminated hb hend
  have hclosed' : ∀ x ∈ s.settle.exhausted.faults,
      x.cause ≠ .unclosedString ∧ x.cause ≠ .unclosedParen := by
    simpa only [Findings.atPlace, List.forall_mem_map, Fault.toFault_atPlace] using hclosed
  obtain ⟨hq, ho⟩ := Scan.closed_of_exhausted hclosed'
  rw [Scan.openQuote?_settle] at hq
  rw [Scan.opened_settle] at ho
  have hcolumn : s.settle.column = a.utf8ByteSize := by
    rw [Scan.column_settle, (Scan.tracks_of_run hs).column, String.utf8Len_toList]
  have hsettle := outcome_run_settle_of_apart hs hq place hapart
  have hrun := Scan.run_of_neutral (by rwa [Scan.opened_settle]) (Scan.pending_settle hq) hf
  rw [hcolumn] at hrun
  have houtcome : Scan.outcome (Scan.run limits.depth .start (a ++ b).toList) =
      .ok (s.settle.found ++ f.moved (a.utf8ByteSize + ·)) := by
    rw [String.toList_append, Scan.run_append_of_ok hs, ← hsettle, hrun]
    rfl
  have htokens : ((s.settle.found ++ f.moved (a.utf8ByteSize + ·)).atPlace place).tokens =
      (s.settle.exhausted.atPlace place).tokens ++
        (f.atPlace place).tokens.map (·.moved (a.utf8ByteSize + ·)) := by
    rw [Findings.tokens_append, Findings.atPlace_moved]
    rfl
  have hdiagnostics : (s.settle.found.atPlace place).diagnostics =
      (s.settle.exhausted.atPlace place).diagnostics.filter (fun d => d.cause ≠ .unterminated) := by
    rw [Findings.atPlace, Findings.atPlace, List.filter_map]
    exact congrArg (List.map _) (Scan.filter_exhausted hs hq ho).symm
  refine ⟨_, lex_eq_ok_of_outcome hfits houtcome,
    Reading.isTerminated_of_append hend htokens, htokens, ?_⟩
  rw [Findings.diagnostics_append, hdiagnostics, Findings.atPlace_moved]
  rfl

/-- The first text has a closing parenthesis too many and ends in a word and blanks; the second
starts with a string and has a parenthesis left open. -/
theorem lex_append_of_neutral_word :
    ∃ ra rb r, Limits.lex ⟨1, 22⟩ ⟨"f", 1⟩ "exposed)é a\tb \n" = .ok ra ∧
      Limits.lex ⟨1, 22⟩ ⟨"f", 1⟩ " \"x\"(;" = .ok rb ∧
      Limits.lex ⟨1, 22⟩ ⟨"f", 1⟩ ("exposed)é a\tb \n" ++ " \"x\"(;") = .ok r ∧
      (ra.diagnostics.map (·.column), rb.diagnostics.map (·.column)) = ([7, 8, 11, 11], [4]) ∧
      r.diagnostics.map (·.column) = [7, 8, 11, 20] ∧
      r.tokens.map (·.column) = [0, 7, 8, 11, 17, 20, 21] := by
  have ha : Limits.lex ⟨1, 22⟩ ⟨"f", 1⟩ "exposed)é a\tb \n" = .ok
      ⟨[⟨⟨.print, "exposed", 0⟩, 1⟩, ⟨⟨.unknown, ")", 7⟩, 1⟩, ⟨⟨.unknown, "é", 8⟩, 1⟩,
          ⟨⟨.unknown, "ab", 11⟩, 1⟩],
        [⟨⟨.strayCloser, 7⟩, ⟨"f", 1⟩⟩, ⟨⟨.unknown "é", 8⟩, ⟨"f", 1⟩⟩,
          ⟨⟨.unknown "ab", 11⟩, ⟨"f", 1⟩⟩, ⟨⟨.unterminated, 11⟩, ⟨"f", 1⟩⟩]⟩ := by decide
  have hb : Limits.lex ⟨1, 22⟩ ⟨"f", 1⟩ " \"x\"(;" = .ok
      ⟨[⟨⟨.literal, "x", 1⟩, 1⟩, ⟨⟨.opener, "(", 4⟩, 1⟩, ⟨⟨.terminator, ";", 5⟩, 1⟩],
        [⟨⟨.unclosedParen, 4⟩, ⟨"f", 1⟩⟩]⟩ := by decide
  have hapart : ∀ c, (" \"x\"(;".toList.dropWhile Text.isBlank).head? = some c →
      Text.isLetter c = false := by
    intro c hc
    have hhead : (" \"x\"(;".toList.dropWhile Text.isBlank).head? = some '"' := by decide
    rw [hhead] at hc
    cases hc
    rfl
  obtain ⟨r, hr, -, htokens, hdiagnostics⟩ :=
    lex_append_of_neutral ha (by decide) (by decide) (.inr hapart) hb (by decide) (by decide)
  refine ⟨_, _, r, ha, hb, hr, rfl, ?_, ?_⟩
  · rw [hdiagnostics]
    decide
  · rw [htokens]
    decide

end LineLexer
