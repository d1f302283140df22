import LineLexer.Proofs.Blanks
import LineLexer.Proofs.Columns
import LineLexer.Proofs.Tiling
import LineLexer.Proofs.WellFormed
/-!
# The semicolon that ends a line

The first semicolon outside strings is the last token of its line, and there is no other. A scan
stops at it, so nothing behind it is looked at, whatever it would do to a scan that went on
(`run_through_terminator`).
-/
namespace LineLexer

open String (utf8Len)

variable {depth : Nat} {s : Scan} {a b : List Char}

namespace Scan

/-- What follows the semicolon is not read. -/
theorem run_through_terminator (hr : run depth start a = .ok s) (ha : Text.Bare a)
    (b : List Char) : run depth start (a ++ ';' :: b) = .error (.terminated s.settle.terminated) := by
  have hq : s.openQuote? = none := (tracks_of_run hr).openQuote?_eq_none_iff.2 ha.even
  exact run_eq_terminated_iff.2 ⟨a, b, s, rfl, hr, hq, rfl⟩

end Scan

/-! ## Whole lines -/

variable {limits : Limits} {place : Place} {text line : String} {f : Findings} {r : Reading}

theorem Reading.isTerminated_iff :
    r.isTerminated = true ↔ ∃ before t, r.tokens = before ++ [t] ∧ t.kind = .terminator := by
  simp only [isTerminated, Option.any_eq_true, decide_eq_true_eq, List.getLast?_eq_some_iff]
  constructor
  · rintro ⟨t, ⟨before, ht⟩, hkind⟩
    exact ⟨before, t, ht, hkind⟩
  · rintro ⟨before, t, ht, hkind⟩
    exact ⟨t, ⟨before, ht⟩, hkind⟩

theorem isTerminated_terminated (s : Scan) (p : Place) :
    (s.terminated.atPlace p).isTerminated = true := by
  have ht : (s.terminated.atPlace p).tokens = s.lexemes.toList.map (·.onLine p.line) ++
      [Lexeme.onLine ⟨.terminator, ";", s.column⟩ p.line] := by
    simp [Findings.atPlace, Scan.terminated]
  exact Reading.isTerminated_iff.2 ⟨_, _, ht, rfl⟩

theorem isTerminated_exhausted (hr : Scan.run depth .start a = .ok s) (p : Place) :
    (s.settle.exhausted.atPlace p).isTerminated = false := by
  by_contra hend
  obtain ⟨before, t, ht, hkind⟩ := Reading.isTerminated_iff.1 (Bool.eq_true_of_not_eq_false hend)
  have hmem : t ∈ (s.settle.exhausted.atPlace p).tokens := by simp [ht]
  obtain ⟨l, hl, rfl⟩ := List.mem_map.1 hmem
  exact Scan.kind_ne_terminator_of_run hr l hl hkind

/-- A text that is read and not terminated leaves the scan going on. -/
theorem exists_run_of_isTerminated_eq_false (hr : limits.lex place text = .ok r)
    (hend : r.isTerminated = false) :
    ∃ s, Scan.run limits.depth .start text.toList = .ok s ∧
      r = s.settle.exhausted.atPlace place := by
  obtain ⟨f, ho, rfl⟩ := exists_outcome_of_lex hr
  rcases Scan.outcome_eq_ok_iff.1 ho with ⟨s, hs, rfl⟩ | hrun
  · exact ⟨s, hs, rfl⟩
  · obtain ⟨-, -, t, -, -, -, rfl⟩ := Scan.run_eq_terminated_iff.1 hrun
    rw [isTerminated_terminated] at hend
    cases hend

/-- A text that is terminated stops the scan. -/
theorem exists_run_of_isTerminated (hr : limits.lex place text = .ok r)
    (hend : r.isTerminated = true) :
    ∃ f, Scan.run limits.depth .start text.toList = .error (.terminated f) ∧
      r = f.atPlace place := by
  obtain ⟨f, ho, rfl⟩ := exists_outcome_of_lex hr
  rcases Scan.outcome_eq_ok_iff.1 ho with ⟨s, hs, rfl⟩ | hrun
  · rw [isTerminated_exhausted hs] at hend
    cases hend
  · exact ⟨f, hrun, rfl⟩

/-- A line that is read has a first semicolon outside strings, or has none and no lexeme for one. -/
theorem exists_bare_or_of_scan (hf : limits.scan line = .ok f) :
    (∃ a b, line.toList = a ++ ';' :: b ∧ Text.Bare a) ∨
      ';' ∉ Text.outside line.toList ∧ ∀ l ∈ f.lexemes, l.kind ≠ .terminator := by
  obtain ⟨-, ⟨s, hs, rfl⟩ | hend⟩ := Limits.scan_eq_ok_iff.1 hf
  · exact .inr ⟨(Scan.tracks_of_run hs).running, Scan.kind_ne_terminator_of_run hs⟩
  · obtain ⟨a, b, t, hline, ht, hq, -⟩ := Scan.run_eq_terminated_iff.1 hend
    exact .inl ⟨a, b, hline, (Scan.tracks_of_run ht).bare hq⟩

/-- The semicolon is the last lexeme, at its own byte. -/
theorem exists_lexemes_of_terminator (hf : limits.scan line = .ok f)
    (hline : line.toList = a ++ ';' :: b) (ha : Text.Bare a) :
    ∃ before, f.lexemes = before ++ [⟨.terminator, ";", utf8Len a⟩] ∧
      ∀ l ∈ before, l.kind ≠ .terminator := by
  obtain ⟨s, hs, ho⟩ := exists_outcome_of_scan hf hline ha.running
  have hrun := Scan.run_through_terminator hs ha b
  rw [Scan.run_append_of_ok hs] at hrun
  rw [hrun] at ho
  obtain rfl : s.settle.terminated = f := by simpa [Scan.outcome] using ho
  have hcolumn : s.settle.column = utf8Len a := by
    rw [Scan.column_settle, (Scan.tracks_of_run hs).column]
  refine ⟨s.settle.lexemes.toList, ?_, Scan.kind_ne_terminator_of_run hs⟩
  rw [← hcolumn]
  exact Scan.lexemes_emit _ _ _ _

theorem exists_tokens_of_terminator (hr : limits.lex place text = .ok r)
    (hline : (Text.dropEnding text).toList = a ++ ';' :: b) (ha : Text.Bare a) :
    ∃ before, r.tokens = before ++ [⟨⟨.terminator, ";", utf8Len a⟩, place.line⟩] ∧
      ∀ t ∈ before, t.kind ≠ .terminator := by
  obtain ⟨f, hf, rfl⟩ := Limits.lex_eq_ok_iff.1 hr
  obtain ⟨before, hl, hbefore⟩ := exists_lexemes_of_terminator hf hline ha
  refine ⟨before.map (·.onLine place.line), by simp [Findings.atPlace, hl, Lexeme.onLine], ?_⟩
  simpa only [List.forall_mem_map, Lexeme.toLexeme_onLine] using hbefore

/-- Two texts that agree up to the semicolon that ends the line are read alike. -/
theorem lex_eq_of_terminator {v : String} (hr : limits.lex place text = .ok r)
    (hline : (Text.dropEnding text).toList = a ++ ';' :: b) (ha : Text.Bare a)
    (hv : a ++ [';'] <+: v.toList) (hfits : (Text.dropEnding v).utf8ByteSize ≤ limits.length) :
    limits.lex place v = .ok r := by
  obtain ⟨f, hf, -⟩ := Limits.lex_eq_ok_iff.1 hr
  obtain ⟨s, hs, -⟩ := exists_outcome_of_scan hf hline ha.running
  have htext : (Text.dropEnding text).utf8ByteSize ≤ limits.length := (Limits.scan_eq_ok_iff.1 hf).1
  -- both texts are read with their endings, which stand behind the semicolon
  obtain ⟨gap, hgap, -⟩ := Text.exists_blanks_of_chomp text.toList
  have hu : text.toList = a ++ ';' :: (b ++ gap) := by
    rw [Text.dropEnding, String.toList_ofList] at hline
    rw [hgap, hline, List.append_assoc, List.cons_append]
  obtain ⟨rest, hrest⟩ := hv
  have hv' : v.toList = a ++ ';' :: rest := by simp [← hrest]
  rw [← hr, lex_of_fits hfits, lex_of_fits htext, hu, hv', Scan.run_through_terminator hs ha,
    Scan.run_through_terminator hs ha]

/-- A reading is terminated just when its line has a semicolon outside strings. The first of them is
then its last token and the only one of its kind, and any other text that is the same up to there,
and fits, is read to the same. -/
theorem lex_ends_at_terminator (hr : limits.lex place text = .ok r) :
    let line := (Text.dropEnding text).toList
    (r.isTerminated = true ↔ ∃ a b, line = a ++ ';' :: b ∧ a.count '"' % 2 = 0) ∧
    (r.isTerminated = true → ∃ a b, line = a ++ ';' :: b ∧ Text.Bare a) ∧
    (r.isTerminated = false → ∀ t ∈ r.tokens, t.kind ≠ .terminator) ∧
    ∀ a b, line = a ++ ';' :: b → Text.Bare a →
      (∃ before, r.tokens = before ++ [⟨⟨.terminator, ";", utf8Len a⟩, place.line⟩] ∧
        ∀ t ∈ before, t.kind ≠ .terminator) ∧
      ∀ v : String, a ++ [';'] <+: v.toList →
        (Text.dropEnding v).utf8ByteSize ≤ limits.length → limits.lex place v = .ok r := by
  intro line
  have hfirst : ∀ a b, line = a ++ ';' :: b → Text.Bare a →
      (∃ before, r.tokens = before ++ [⟨⟨.terminator, ";", utf8Len a⟩, place.line⟩] ∧
        ∀ t ∈ before, t.kind ≠ .terminator) ∧
      ∀ v : String, a ++ [';'] <+: v.toList →
        (Text.dropEnding v).utf8ByteSize ≤ limits.length → limits.lex place v = .ok r :=
    fun a b hline ha => ⟨exists_tokens_of_terminator hr hline ha,
      fun v hv hfits => lex_eq_of_terminator hr hline ha hv hfits⟩
  obtain ⟨f, hf, rfl⟩ := Limits.lex_eq_ok_iff.1 hr
  rcases exists_bare_or_of_scan hf with ⟨a, b, hline, ha⟩ | ⟨hnone, hkinds⟩
  · have hend : (f.atPlace place).isTerminated = true := by
      obtain ⟨⟨before, ht, -⟩, -⟩ := hfirst a b hline ha
      exact Reading.isTerminated_iff.2 ⟨before, _, ht, rfl⟩
    refine ⟨iff_of_true hend ⟨a, b, hline, ha.even⟩, fun _ => ⟨a, b, hline, ha⟩, ?_, hfirst⟩
    intro hnot
    rw [hend] at hnot
    cases hnot
  · have hkinds' : ∀ t ∈ (f.atPlace place).tokens, t.kind ≠ .terminator := by
      simpa only [Findings.atPlace, List.forall_mem_map, Lexeme.toLexeme_onLine] using hkinds
    have hend : ¬ (f.atPlace place).isTerminated = true := by
      intro hend
      obtain ⟨before, t, ht, hkind⟩ := Reading.isTerminated_iff.1 hend
      exact hkinds' t (by simp [ht]) hkind
    have hno : ¬ ∃ a b, line = a ++ ';' :: b ∧ a.count '"' % 2 = 0 :=
      fun h => hnone (Text.mem_outside_iff.2 h)
    exact ⟨iff_of_false hend hno, fun h => absurd h hend, fun _ => hkinds', hfirst⟩

/-- A semicolon within a string does not end the line. Behind the one that does, parentheses nest
deeper than the limit and a string has no end. -/
theorem lex_ends_at_terminator_tail :
    ∃ r, Limits.lex ⟨1, 30⟩ ⟨"f", 4⟩ "\";\"(ab;\n" = .ok r ∧ r.isTerminated = true ∧
      (∃ before, r.tokens = before ++ [⟨⟨.terminator, ";", 6⟩, 4⟩] ∧
        ∀ t ∈ before, t.kind ≠ .terminator) ∧
      Limits.lex ⟨1, 30⟩ ⟨"f", 4⟩ "\";\"(ab;((é)\";\n)\r\n" = .ok r := by
  have hr : Limits.lex ⟨1, 30⟩ ⟨"f", 4⟩ "\";\"(ab;\n" = .ok
      ⟨[⟨⟨.literal, ";", 0⟩, 4⟩, ⟨⟨.opener, "(", 3⟩, 4⟩, ⟨⟨.unknown, "ab", 4⟩, 4⟩,
          ⟨⟨.terminator, ";", 6⟩, 4⟩],
        [⟨⟨.unknown "ab", 3⟩, ⟨"f", 4⟩⟩, ⟨⟨.unclosedParen, 3⟩, ⟨"f", 4⟩⟩]⟩ := by decide
  have hline : (Text.dropEnding "\";\"(ab;\n").toList = "\";\"(ab".toList ++ [';'] := by decide
  obtain ⟨hend, -, -, hfirst⟩ := lex_ends_at_terminator hr
  obtain ⟨htokens, htail⟩ := hfirst _ [] hline ⟨by decide, by decide⟩
  exact ⟨_, hr, hend.2 ⟨_, [], hline, by decide⟩, htokens, htail _ (by decide) (by decide)⟩

end LineLexer
