import Mathlib.Data.List.Induction
import LineLexer.Proofs.Columns
import LineLexer.Proofs.WellFormed
/-!
# Parentheses in balance

At no token of a line more parentheses have been closed than opened, or more stand open than the
limit allows. Every closing parenthesis outside strings is a token of its own, a closer if one
stands open before it and a text without use if none does (`lex_balanced`).
-/
namespace LineLexer

open String (utf8Len)

variable {depth : Nat} {vs ws : List Content} {a b : List Char}

/-! ## Well formed contents -/

theorem WellFormed.of_isPrefix (h : WellFormed depth ws) (hv : vs <+: ws) :
    WellFormed depth vs := by
  obtain ⟨rest, rfl⟩ := hv
  intro a w b heq
  exact h a w (b ++ rest) (by simp [heq])

/-- A parenthesis is closed only above level 0 and opened only below the limit. -/
theorem WellFormed.level_mem (h : WellFormed depth ws) : 0 ≤ level ws ∧ level ws ≤ depth := by
  induction ws using List.reverseRecOn with
  | nil => simp [level]
  | append_singleton ws w ih =>
    obtain ⟨hws, hw⟩ := wellFormed_concat_iff.1 h
    obtain ⟨hlow, hhigh⟩ := ih hws
    rw [level_concat]
    by_cases hopener : w.1 = .opener
    · have := hw.opener hopener
      simp only [hopener, if_true, reduceCtorEq, if_false]
      omega
    · by_cases hcloser : w.1 = .closer
      · have := hw.closer hcloser
        simp only [hcloser, if_true, reduceCtorEq, if_false]
        omega
      · simp only [hopener, hcloser, if_false]
        omega

/-! ## Tokens -/

/-- How many of the tokens are of a kind. -/
def tally (kind : Lexeme.Kind) (ts : List Token) : Nat := ts.countP (·.kind = kind)

theorem level_tokens (ts : List Token) :
    level (ts.map (·.content)) = (tally .opener ts : Int) - tally .closer ts := by
  simp [level, tally, List.countP_map, Function.comp_def, Lexeme.content]

theorem tally_le_of_isPrefix {limits : Limits} {place : Place} {text : String} {r : Reading}
    {ts : List Token} (hr : limits.lex place text = .ok r) (hts : ts <+: r.tokens) :
    tally .closer ts ≤ tally .opener ts ∧
      tally .opener ts - tally .closer ts ≤ limits.depth := by
  obtain ⟨f, hf, rfl⟩ := Limits.lex_eq_ok_iff.1 hr
  have hwf : WellFormed limits.depth (f.atPlace place).contents := by
    rw [Reading.contents_atPlace]
    exact wellFormed_of_scan hf
  have hlevel := (hwf.of_isPrefix (hts.map _)).level_mem
  rw [level_tokens] at hlevel
  omega

/-! ## Closing parentheses -/

/-- A closing parenthesis outside strings becomes a lexeme as soon as it is read. What stands open
then is what the lexemes before it leave open. -/
theorem exists_lexeme_of_closer {limits : Limits} {line : String} {f : Findings}
    (hf : limits.scan line = .ok f) (hline : line.toList = a ++ ')' :: b)
    (heven : a.count '"' % 2 = 0) (hrunning : ';' ∉ Text.outside a) :
    ∃ before l after, f.lexemes = before ++ l :: after ∧ l.column = utf8Len a ∧ l.text = ")" ∧
      l.kind = if level (before.map Lexeme.content) = 0 then .unknown else .closer := by
  have hrunning' : ';' ∉ Text.outside (a ++ [')']) := by
    rw [Text.outside_concat_of_even heven]
    simp [hrunning]
  obtain ⟨t, ht, after, hafter⟩ := exists_run_of_scan (b := b) hf (by simp [hline]) hrunning'
  obtain ⟨s, hs, hclose⟩ := Scan.run_append_eq_ok_iff.1 ht
  obtain ⟨u, hu, hrun⟩ := Scan.run_cons_eq_ok_iff.1 hclose
  cases hrun
  have htracks := Scan.tracks_of_run hs
  obtain rfl := hu.unique (.closer (htracks.openQuote?_eq_none_iff.2 heven))
  -- no parenthesis stands open just when the lexemes before are level
  have hlevel : level (s.settle.lexemes.toList.map Lexeme.content) = s.settle.opened.length :=
    (Scan.lexed_of_run hs).settle.level
  have hnil : s.settle.opened = [] ↔
      level (s.settle.lexemes.toList.map Lexeme.content) = 0 := by
    rw [hlevel]
    simp
  have hlexemes : f.lexemes = s.settle.lexemes.toList ++
      ⟨if s.settle.opened = [] then .unknown else .closer, ")", s.settle.column⟩ :: after := by
    rw [← hafter, Scan.lexemes_advance, Scan.lexemes_closeParen, List.append_assoc]
    rfl
  refine ⟨_, _, _, hlexemes, ?_, rfl, ?_⟩
  · rw [Scan.column_settle, htracks.column]
  · simp only [hnil]

/-- No two lexemes of a line start at one column. -/
theorem column_ne_of_mem {limits : Limits} {line : String} {f : Findings} {l u : Lexeme}
    {before after : List Lexeme} (hf : limits.scan line = .ok f)
    (hl : f.lexemes = before ++ l :: after) (hu : u ∈ before ++ after) : u.column ≠ l.column := by
  have hincreasing := columns_increasing_of_scan hf
  rw [hl, columns, List.map_append, List.map_cons] at hincreasing
  obtain ⟨-, hafter, hbefore⟩ := List.pairwise_append.1 hincreasing
  rcases List.mem_append.1 hu with hu | hu
  · exact (hbefore _ (List.mem_map_of_mem hu) _ (by simp)).ne
  · exact ((List.pairwise_cons.1 hafter).1 _ (List.mem_map_of_mem hu)).ne'

/-- After no token of a line more parentheses are closed than opened, or more open than the limit.
The closing parentheses outside strings, up to the semicolon that ends the line, are one token each:
a closer where the tokens before leave a parenthesis open, and of no use where they do not. -/
theorem lex_balanced {limits : Limits} {place : Place} {text : String} {r : Reading}
    (hr : limits.lex place text = .ok r) :
    (∀ ts, ts <+: r.tokens → tally .closer ts ≤ tally .opener ts ∧
      tally .opener ts - tally .closer ts ≤ limits.depth) ∧
    ∀ a b, (Text.dropEnding text).toList = a ++ ')' :: b → a.count '"' % 2 = 0 →
      ';' ∉ Text.outside a →
      ∃ before t after, r.tokens = before ++ t :: after ∧ t.column = utf8Len a ∧ t.text = ")" ∧
        t.kind = (if 0 < tally .opener before - tally .closer before then .closer else .unknown) ∧
        ∀ u ∈ before ++ after, u.column ≠ utf8Len a := by
  refine ⟨fun ts hts => tally_le_of_isPrefix hr hts, ?_⟩
  intro a b hline heven hrunning
  obtain ⟨f, hf, rfl⟩ := Limits.lex_eq_ok_iff.1 hr
  obtain ⟨before, l, after, hlexemes, hcolumn, htext, hkind⟩ :=
    exists_lexeme_of_closer hf hline heven hrunning
  have htokens : (f.atPlace place).tokens = before.map (·.onLine place.line) ++
      l.onLine place.line :: after.map (·.onLine place.line) := by
    rw [Findings.atPlace, hlexemes, List.map_append, List.map_cons]
  refine ⟨_, _, _, htokens, hcolumn, htext, ?_, ?_⟩
  · have hbalanced := (tally_le_of_isPrefix hr ⟨_, htokens.symm⟩).1
    have hlevel := level_tokens (before.map (·.onLine place.line))
    have hcontents : (before.map (·.onLine place.line)).map (·.content) =
        before.map Lexeme.content := by simp [Function.comp_def]
    rw [hcontents] at hlevel
    rw [Lexeme.toLexeme_onLine, hkind]
    by_cases hzero : level (before.map Lexeme.content) = 0
    · rw [if_pos hzero, if_neg (by omega)]
    · rw [if_neg hzero, if_pos (by omega)]
  · intro u hu
    rw [← List.map_append] at hu
    obtain ⟨x, hx, rfl⟩ := List.mem_map.1 hu
    rw [← hcolumn]
    exact column_ne_of_mem hf hlexemes hx

/-- A parenthesis within a string is no token; the third outside closes nothing, though one more is
opened behind it. -/
theorem lex_balanced_three :
    ∃ r, Limits.lex ⟨1, 20⟩ ⟨"f", 2⟩ "(\")\" ) )a) (;)" = .ok r ∧
      (tally .closer (r.tokens.take 3) ≤ tally .opener (r.tokens.take 3) ∧
        tally .opener (r.tokens.take 3) - tally .closer (r.tokens.take 3) ≤ 1) ∧
      ∃ before t after, r.tokens = before ++ t :: after ∧ t.column = 7 ∧ t.text = ")" ∧
        t.kind = (if 0 < tally .opener before - tally .closer before then .closer else .unknown) ∧
        ∀ u ∈ before ++ after, u.column ≠ 7 := by
  have hr : Limits.lex ⟨1, 20⟩ ⟨"f", 2⟩ "(\")\" ) )a) (;)" = .ok
      ⟨[⟨⟨.opener, "(", 0⟩, 2⟩, ⟨⟨.literal, ")", 1⟩, 2⟩, ⟨⟨.closer, ")", 5⟩, 2⟩,
          ⟨⟨.unknown, ")", 7⟩, 2⟩, ⟨⟨.unknown, "a", 8⟩, 2⟩, ⟨⟨.unknown, ")", 9⟩, 2⟩,
          ⟨⟨.opener, "(", 11⟩, 2⟩, ⟨⟨.terminator, ";", 12⟩, 2⟩],
        [⟨⟨.strayCloser, 7⟩, ⟨"f", 2⟩⟩, ⟨⟨.unknown "a", 8⟩, ⟨"f", 2⟩⟩,
          ⟨⟨.strayCloser, 9⟩, ⟨"f", 2⟩⟩, ⟨⟨.unclosedParen, 11⟩, ⟨"f", 2⟩⟩]⟩ := by decide
  obtain ⟨hbalanced, hcloser⟩ := lex_balanced hr
  exact ⟨_, hr, hbalanced _ (List.take_prefix _ _),
    hcloser "(\")\" ) ".toList "a) (;)".toList (by decide) (by decide) (by decide)⟩

end LineLexer
