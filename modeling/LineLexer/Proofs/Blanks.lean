import LineLexer.Proofs.Moved
import LineLexer.Proofs.Outside
/-!
# Blanks that do not count

Blanks can be taken out of a line wherever they stand outside strings, in a string without an end
or behind the semicolon: what is read stays the same, and stands as many columns further left as
blanks have been taken out before it (`lex_blanks_irrelevant`). Both lines are read side by side.
The states differ in their columns only, until a string is open that no quote ends; from there on
neither scan finds anything.
-/
namespace LineLexer

open String (utf8Len)

variable {depth : Nat} {s : Scan} {a b gap : List Char}

namespace Text

/-! ## Taking characters out -/

/-- A text, each character with a mark whether it is to be taken out. -/
abbrev Marked := List (Char × Bool)

variable {xs ys ms : Marked} {c : Char}

/-- The text with all its characters. -/
def full (ms : Marked) : List Char := ms.map (·.1)

/-- The text without the marked ones. -/
def kept (ms : Marked) : List Char := (ms.filter (!·.2)).map (·.1)

/-- How many of the marked characters start before column `p`. -/
def takenBefore : Marked → Nat → Nat
  | [], _ => 0
  | (c, taken) :: ms, p =>
    if p = 0 then 0 else (if taken then 1 else 0) + takenBefore ms (p - c.utf8Size)

/-- All marked characters are blanks, each of them outside strings, or with no quote behind it, or
behind a semicolon outside strings. -/
def Loose (ms : Marked) : Prop :=
  ∀ i, ∀ h : i < ms.length, ms[i].2 = true → isBlank ms[i].1 = true ∧
    ((full (ms.take i)).count '"' % 2 = 0 ∨ '"' ∉ full (ms.drop (i + 1)) ∨
      ';' ∈ outside (full (ms.take i)))

instance (ms : Marked) : Decidable (Loose ms) :=
  inferInstanceAs (Decidable (∀ i, ∀ _ : i < ms.length, _))

@[simp] theorem full_cons (c : Char) (taken : Bool) (ms : Marked) :
    full ((c, taken) :: ms) = c :: full ms := rfl

@[simp] theorem kept_cons_true (c : Char) (ms : Marked) : kept ((c, true) :: ms) = kept ms := rfl

@[simp] theorem kept_cons_false (c : Char) (ms : Marked) :
    kept ((c, false) :: ms) = c :: kept ms := rfl

theorem kept_sublist_full (ms : Marked) : (kept ms).Sublist (full ms) :=
  List.filter_sublist.map _

theorem Loose.of_mark (h : Loose (xs ++ (c, true) :: ys)) :
    isBlank c = true ∧
      ((full xs).count '"' % 2 = 0 ∨ '"' ∉ full ys ∨ ';' ∈ outside (full xs)) := by
  simpa using h xs.length (by simp) (by simp)

theorem utf8Size_of_isBlank (h : isBlank c = true) : c.utf8Size = 1 := by
  simp only [isBlank, Bool.or_eq_true, decide_eq_true_eq] at h
  rcases h with ((((rfl | rfl) | rfl) | rfl) | rfl) | rfl <;> rfl

theorem takenBefore_append (xs ys : Marked) :
    takenBefore (xs ++ ys) (utf8Len (full xs)) = xs.countP (·.2) := by
  induction xs with
  | nil => cases ys <;> simp [takenBefore, full]
  | cons m xs ih =>
    obtain ⟨c, taken⟩ := m
    have hpos := c.utf8Size_pos
    have hlen : utf8Len (full xs) + c.utf8Size ≠ 0 := by omega
    rw [List.cons_append, full_cons, String.utf8Len_cons, takenBefore, if_neg hlen,
      Nat.add_sub_cancel, ih, List.countP_cons, Nat.add_comm]

/-- A blank is one byte wide. -/
theorem utf8Len_kept (h : ∀ m ∈ xs, m.2 = true → isBlank m.1 = true) :
    utf8Len (kept xs) + xs.countP (·.2) = utf8Len (full xs) := by
  induction xs with
  | nil => rfl
  | cons m xs ih =>
    obtain ⟨c, taken⟩ := m
    have hxs := ih fun m hm => h m (by simp [hm])
    cases taken with
    | true =>
      have hc := utf8Size_of_isBlank (h (c, true) (by simp) rfl)
      simp only [kept_cons_true, full_cons, String.utf8Len_cons, List.countP_cons, if_true, hc]
      omega
    | false =>
      simp only [kept_cons_false, full_cons, String.utf8Len_cons, List.countP_cons, if_false,
        Bool.false_eq_true]
      omega

/-- Where a part of the text ends when the blanks in it have been taken out. -/
theorem sub_takenBefore (h : Loose (xs ++ ys)) :
    utf8Len (full xs) - takenBefore (xs ++ ys) (utf8Len (full xs)) = utf8Len (kept xs) := by
  have hblank : ∀ m ∈ xs, m.2 = true → isBlank m.1 = true := by
    rintro ⟨c, taken⟩ hm rfl
    obtain ⟨front, rest, rfl⟩ := List.append_of_mem hm
    have h' : Loose (front ++ (c, true) :: (rest ++ ys)) := by simpa using h
    exact h'.of_mark.1
  have := utf8Len_kept hblank
  rw [takenBefore_append]
  omega

end Text

namespace Scan

/-! ## Blanks behind the end -/

theorem exhausted_congr {t : Scan} (hl : s.lexemes = t.lexemes) (hf : s.faults = t.faults)
    (ho : s.opened = t.opened) (hq : s.openQuote? = t.openQuote?) : s.exhausted = t.exhausted := by
  simp only [exhausted, unclosedString, unclosedParen, unterminated, hl, hf, ho, hq]

/-- What stands in a string without an end does not count. -/
theorem outcome_run_unclosed (hq : s.openQuote? ≠ none) (hb : '"' ∉ b) :
    outcome (run depth s b) = .ok s.exhausted := by
  cases hp : s.pending with
  | nothing => exact absurd (openQuote?_of_nothing hp) hq
  | word start letters => exact absurd (openQuote?_of_word hp) hq
  | string quote body =>
    rw [run_body hp hb, outcome, settle_of_openQuote? (by simp [openQuote?])]
    exact congrArg Except.ok (exhausted_congr rfl rfl rfl (by simp [openQuote?, hp]))

theorem settle_column (s : Scan) (n : Nat) :
    ({ s with column := n } : Scan).settle = { s.settle with column := n } := by
  obtain ⟨column, lexemes, faults, opened, pending⟩ := s
  cases pending <;> rfl

/-- Blanks behind the end of a text change nothing. -/
theorem outcome_run_blanks (hgap : ∀ c ∈ gap, Text.isBlank c = true) :
    outcome (run depth s (a ++ gap)) = outcome (run depth s a) := by
  rw [run_append]
  cases run depth s a with
  | error h => rfl
  | ok t =>
    by_cases hq : t.openQuote? = none
    · have hr : run depth t gap = .ok { t with column := t.column + utf8Len gap } :=
        run_blanks hq hgap
      change outcome (run depth t gap) = .ok t.settle.exhausted
      rw [hr, outcome, settle_column]
      rfl
    · have hquote : '"' ∉ gap := fun hm => absurd (hgap _ hm) (by decide)
      change outcome (run depth t gap) = .ok t.settle.exhausted
      rw [outcome_run_unclosed hq hquote, settle_of_openQuote? hq]

/-! ## Both lines side by side -/

open Text (Marked full kept Loose takenBefore)

/-- In a string that no quote ends neither scan finds anything more. -/
theorem outcome_run_kept_unclosed {f : Nat → Nat} {todo : Marked} (hq : s.openQuote? ≠ none)
    (htodo : '"' ∉ full todo) :
    outcome (run depth (s.moved f) (kept todo)) =
      ((outcome (run depth s (full todo))).map (·.moved f)).mapError (·.moved f) := by
  have hkept : '"' ∉ kept todo := fun h => htodo ((Text.kept_sublist_full todo).subset h)
  rw [outcome_run_unclosed (by simpa using hq) hkept, outcome_run_unclosed hq htodo,
    exhausted_moved]
  rfl

/-- The line without the marked blanks is read to the same, moved by the blanks before it. -/
theorem outcome_run_kept {f : Nat → Nat} {ms todo : Marked} (hloose : Loose ms)
    (hf : ∀ xs ys, ms = xs ++ ys → f (utf8Len (full xs)) = utf8Len (kept xs)) {done : Marked}
    (hms : ms = done ++ todo) (ht : Tracks (full done) s) :
    outcome (run depth (s.moved f) (kept todo)) =
      ((outcome (run depth s (full todo))).map (·.moved f)).mapError (·.moved f) := by
  -- the induction is on what is still to be read; `f` is fixed by the whole text
  induction todo generalizing done s with
  | nil =>
    refine congrArg Except.ok ?_
    rw [← moved_settle, exhausted_moved]
  | cons m todo ih =>
    obtain ⟨c, taken⟩ := m
    have hms' : ms = (done ++ [(c, taken)]) ++ todo := by simp [hms]
    have hdone : full (done ++ [(c, taken)]) = full done ++ [c] := by simp [full]
    have hcolumn : f s.column = utf8Len (kept done) := by rw [ht.column, hf _ _ hms]
    have hnext : f (s.column + c.utf8Size) = utf8Len (kept (done ++ [(c, taken)])) := by
      rw [← hf _ _ hms', hdone, ht.column]
      simp
    cases taken with
    | false =>
      have hmove : f (s.column + c.utf8Size) = f s.column + c.utf8Size := by
        rw [hnext, hcolumn]
        simp [kept]
      rw [Text.kept_cons_false, Text.full_cons]
      cases hs : step depth s c with
      | ok t =>
        have hc := step_eq_ok_iff.1 hs
        rw [run_cons_of_reads hc, run_cons_of_reads (hc.moved hmove)]
        exact ih hms' (hdone ▸ ht.step hc)
      | error h =>
        rw [run_cons, run_cons, hs, step_moved_of_error hs]
        cases h <;> rfl
    | true =>
      obtain ⟨hblank, hloose'⟩ := (hms ▸ hloose).of_mark
      by_cases hq : s.openQuote? = none
      · have hsame : (s.advance c).moved f = s.moved f := by
          have hstay : f (s.column + c.utf8Size) = f s.column := by
            rw [hnext, hcolumn]
            simp [kept]
          simp only [moved, advance, hstay]
        have hc : Reads depth s c (s.advance c) := .blank hq hblank
        rw [Text.kept_cons_true, Text.full_cons, run_cons_of_reads hc, ← hsame]
        exact ih hms' (hdone ▸ ht.step hc)
      · -- the blank is in a string, so it may go only because no quote is left to end the string
        have hquote : '"' ∉ full todo :=
          (hloose'.resolve_left fun h => hq (ht.openQuote?_eq_none_iff.2 h)).resolve_right
            ht.running
        refine outcome_run_kept_unclosed hq ?_
        rw [Text.full_cons, List.mem_cons, not_or]
        exact ⟨fun h => absurd (h ▸ hblank) (by decide), hquote⟩

end Scan

/-! ## Whole lines -/

theorem Text.exists_blanks_of_chomp (cs : List Char) :
    ∃ gap, cs = Text.chomp cs ++ gap ∧ ∀ c ∈ gap, Text.isBlank c = true := by
  unfold Text.chomp
  split
  next rest h =>
    exact ⟨['\r', '\n'], by simpa using congrArg List.reverse h, by simp [Text.isBlank]⟩
  next rest _ h => exact ⟨['\n'], by simpa using congrArg List.reverse h, by simp [Text.isBlank]⟩
  next => exact ⟨[], by simp, by simp⟩

variable {limits : Limits} {place : Place} {text : String}

/-- A line that fits is scanned alike with its ending and without. -/
theorem scan_dropEnding_of_fits (h : (Text.dropEnding text).utf8ByteSize ≤ limits.length) :
    limits.scan (Text.dropEnding text) =
      Scan.outcome (Scan.run limits.depth .start text.toList) := by
  obtain ⟨gap, htext, hgap⟩ := Text.exists_blanks_of_chomp text.toList
  rw [Limits.scan_of_le h, Text.dropEnding, String.toList_ofList, htext,
    Scan.outcome_run_blanks hgap, ← htext]

theorem lex_of_fits (h : (Text.dropEnding text).utf8ByteSize ≤ limits.length) :
    limits.lex place text = ((Scan.outcome (Scan.run limits.depth .start text.toList)).map
      (·.atPlace place)).mapError (·.atPlace place) := by
  rw [Limits.lex, scan_dropEnding_of_fits h]
  cases Scan.outcome (Scan.run limits.depth .start text.toList) <;> rfl

theorem outcome_of_scan {f : Findings} (hf : limits.scan (Text.dropEnding text) = .ok f) :
    Scan.outcome (Scan.run limits.depth .start text.toList) = .ok f := by
  rw [← scan_dropEnding_of_fits (Limits.scan_eq_ok_iff.1 hf).1, hf]

/-- What is read is what a scan of the text with its ending comes to. -/
theorem exists_outcome_of_lex {r : Reading} (hr : limits.lex place text = .ok r) :
    ∃ f, Scan.outcome (Scan.run limits.depth .start text.toList) = .ok f ∧
      r = f.atPlace place := by
  obtain ⟨f, hf, rfl⟩ := Limits.lex_eq_ok_iff.1 hr
  exact ⟨f, outcome_of_scan hf, rfl⟩

theorem lex_eq_ok_of_outcome {f : Findings}
    (h : (Text.dropEnding text).utf8ByteSize ≤ limits.length)
    (ho : Scan.outcome (Scan.run limits.depth .start text.toList) = .ok f) :
    limits.lex place text = .ok (f.atPlace place) := by
  rw [lex_of_fits h, ho]
  rfl

theorem cause_of_lex_error {o : Overrun} (h : (Text.dropEnding text).utf8ByteSize ≤ limits.length)
    (ho : limits.lex place text = .error o) : o.cause = .tooDeep limits.depth := by
  obtain ⟨e, he, rfl⟩ := Limits.lex_eq_error_iff.1 ho
  rw [Limits.scan_of_le h, Scan.outcome_eq_error_iff] at he
  obtain ⟨-, -, t, -, -, -, -, rfl⟩ := Scan.run_eq_exceeded_iff.1 he
  rfl

/-- Blanks outside strings, in a string without an end or behind the semicolon can be taken out of a
line: it is read to the same tokens and diagnostics, or given up for the same depth, only in columns
that have moved to the left by the blanks taken out before them. Blanks behind a text change nothing
at all. -/
theorem lex_blanks_irrelevant (limits : Limits) (place : Place) :
    (∀ (ms : Text.Marked) (u v : String), u.toList = Text.full ms → v.toList = Text.kept ms →
      Text.Loose ms → (Text.dropEnding u).utf8ByteSize ≤ limits.length →
      (Text.dropEnding v).utf8ByteSize ≤ limits.length →
      let f := fun p => p - Text.takenBefore ms p
      limits.lex place v = ((limits.lex place u).map (·.moved f)).mapError (·.moved f) ∧
        ∀ o, limits.lex place u = .error o → o.cause = .tooDeep limits.depth) ∧
    ∀ text gap : String, (∀ c ∈ gap.toList, Text.isBlank c = true) →
      (Text.dropEnding text).utf8ByteSize ≤ limits.length →
      (Text.dropEnding (text ++ gap)).utf8ByteSize ≤ limits.length →
      limits.lex place (text ++ gap) = limits.lex place text := by
  refine ⟨fun ms u v hu hv hloose hufits hvfits => ?_, fun text gap hgap hfits hfits' => ?_⟩
  · intro f
    refine ⟨?_, fun o ho => cause_of_lex_error hufits ho⟩
    have hstart : Scan.start.moved f = Scan.start := by
      simp [Scan.moved, Scan.start, Pending.moved, f]
    have hf : ∀ xs ys, ms = xs ++ ys → f (utf8Len (Text.full xs)) = utf8Len (Text.kept xs) := by
      rintro xs ys rfl
      exact Text.sub_takenBefore hloose
    have hms : ms = [] ++ ms := rfl
    rw [lex_of_fits hufits, lex_of_fits hvfits, hu, hv, ← hstart,
      Scan.outcome_run_kept hloose hf hms Scan.tracks_start, hstart]
    cases Scan.outcome (Scan.run limits.depth .start (Text.full ms)) with
    | ok x => exact congrArg Except.ok (x.atPlace_moved f place)
    | error e => rfl
  · rw [lex_of_fits hfits, lex_of_fits hfits', String.toList_append, Scan.outcome_run_blanks hgap]

/-- A blank within the keyword, one behind a string, some in a string without an end and a line
ending; the blank within the closed string stays. -/
theorem lex_blanks_irrelevant_string :
    ∃ r, Limits.lex {} ⟨"f", 1⟩ "ex posed(\"a b\" \" ) \r\n" = .ok r ∧
      (r.tokens.map (·.column), r.diagnostics.map (·.column)) = ([0, 8, 9], [15, 8, 9]) ∧
      ∃ r', Limits.lex {} ⟨"f", 1⟩ "exposed(\"a b\"\")" = .ok r' ∧
        (r'.tokens.map (·.column), r'.diagnostics.map (·.column)) = ([0, 7, 8], [13, 7, 8]) ∧
        r'.tokens.map (·.text) = r.tokens.map (·.text) ∧
        Limits.lex {} ⟨"f", 1⟩ ("exposed(\"a b\"\")" ++ " \n") = .ok r' := by
  have hr : Limits.lex {} ⟨"f", 1⟩ "ex posed(\"a b\" \" ) \r\n" = .ok
      ⟨[⟨⟨.print, "exposed", 0⟩, 1⟩, ⟨⟨.opener, "(", 8⟩, 1⟩, ⟨⟨.literal, "a b", 9⟩, 1⟩],
        [⟨⟨.unclosedString, 15⟩, ⟨"f", 1⟩⟩, ⟨⟨.unclosedParen, 8⟩, ⟨"f", 1⟩⟩,
          ⟨⟨.unterminated, 9⟩, ⟨"f", 1⟩⟩]⟩ := by decide
  have hmoved := ((lex_blanks_irrelevant {} ⟨"f", 1⟩).1
    ("ex".toList.map (·, false) ++ (' ', true) :: "posed(\"a b\"".toList.map (·, false) ++
      (' ', true) :: ('"', false) :: (' ', true) :: (')', false) :: " \r\n".toList.map (·, true))
    "ex posed(\"a b\" \" ) \r\n" "exposed(\"a b\"\")" (by decide) (by decide) (by decide)
    (by decide) (by decide)).1
  rw [hr] at hmoved
  have hgap : ∀ c ∈ " \n".toList, Text.isBlank c = true := List.all_eq_true.1 (by decide)
  refine ⟨_, hr, rfl, _, hmoved, by decide, by decide, ?_⟩
  rw [(lex_blanks_irrelevant {} ⟨"f", 1⟩).2 _ " \n" hgap (by decide) (by decide), hmoved]
  rfl

end LineLexer
