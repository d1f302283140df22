import LineLexer.Proofs.Run
import LineLexer.Proofs.Script
/-!
# Wider limits

A limit is looked at only to give up a line. So under wider limits a scan takes the same steps and
some more (`Reads.wider`), and what is read under any limits at all is the same
(`lex_limits_only_reject`).
-/
namespace LineLexer

variable {depth depth' : Nat} {s t : Scan} {c : Char} {cs : List Char} {f : Findings}
  {limits limits' : Limits} {place : Place} {text file : String} {r r' : Reading}

/-- The first allow all that the second allow. -/
structure Limits.Wider (limits' limits : Limits) : Prop where
  depth : limits.depth ≤ limits'.depth
  length : limits.length ≤ limits'.length

/-- The narrowest limits that are wider than both. -/
def Limits.sup (limits limits' : Limits) : Limits where
  depth := max limits.depth limits'.depth
  length := max limits.length limits'.length

theorem Limits.wider_sup_left (limits limits' : Limits) : (limits.sup limits').Wider limits :=
  ⟨Nat.le_max_left _ _, Nat.le_max_left _ _⟩

theorem Limits.wider_sup_right (limits limits' : Limits) : (limits.sup limits').Wider limits' :=
  ⟨Nat.le_max_right _ _, Nat.le_max_right _ _⟩

namespace Scan

/-! ## More room for parentheses -/

theorem Reads.wider (hr : Reads depth s c t) (h : depth ≤ depth') : Reads depth' s c t := by
  cases hr with
  | inString hp => exact .inString hp
  | blank hq hc => exact .blank hq hc
  | letter hq hc => exact .letter hq hc
  | opener hq hd => exact .opener hq (hd.trans_le h)
  | closer hq => exact .closer hq
  | quote hq => exact .quote hq
  | other hq hc => exact .other hq hc

theorem run_wider (hr : run depth s cs = .ok t) (h : depth ≤ depth') :
    run depth' s cs = .ok t := by
  induction cs generalizing s with
  | nil => exact hr
  | cons c cs ih =>
    obtain ⟨u, hu, hrest⟩ := run_cons_eq_ok_iff.1 hr
    exact run_cons_eq_ok_iff.2 ⟨u, hu.wider h, ih hrest⟩

/-- The stack of the second scan may grow higher, but it does not: the semicolon finds both scans in
one state. -/
theorem outcome_run_wider (ho : outcome (run depth s cs) = .ok f) (h : depth ≤ depth') :
    outcome (run depth' s cs) = .ok f := by
  rw [outcome_eq_ok_iff] at ho ⊢
  rcases ho with ⟨t, ht, hf⟩ | hend
  · exact .inl ⟨t, run_wider ht h, hf⟩
  · obtain ⟨a, b, t, hcs, ht, hq, hf⟩ := run_eq_terminated_iff.1 hend
    exact .inr (run_eq_terminated_iff.2 ⟨a, b, t, hcs, run_wider ht h, hq, hf⟩)

end Scan

/-! ## Whole lines -/

theorem scan_wider {line : String} (hf : limits.scan line = .ok f) (h : limits'.Wider limits) :
    limits'.scan line = .ok f := by
  obtain ⟨hfits, -⟩ := Limits.scan_eq_ok_iff.1 hf
  rw [Limits.scan_of_le hfits] at hf
  rw [Limits.scan_of_le (hfits.trans h.length)]
  exact Scan.outcome_run_wider hf h.depth

theorem lex_wider (hr : limits.lex place text = .ok r) (h : limits'.Wider limits) :
    limits'.lex place text = .ok r := by
  rw [Limits.lex_eq_ok_iff] at hr ⊢
  obtain ⟨f, hf, hplace⟩ := hr
  exact ⟨f, scan_wider hf h, hplace⟩

/-- Both readings are the one under limits wider than either. -/
theorem lex_unique (hr : limits.lex place text = .ok r) (hr' : limits'.lex place text = .ok r') :
    r = r' := by
  have hread := lex_wider hr (limits.wider_sup_left limits')
  rw [lex_wider hr' (limits.wider_sup_right limits')] at hread
  cases hread
  rfl

/-! ## Whole scripts -/

theorem lexLines_wider {n : Nat} {lines : List String} {out : List ScriptLine}
    (hout : limits.lexLines file n lines = .ok out) (h : limits'.Wider limits) :
    limits'.lexLines file n lines = .ok out := by
  induction lines generalizing n out with
  | nil => exact hout
  | cons line rest ih =>
    obtain ⟨r, below, hline, hrest, rfl⟩ := lexLines_cons_eq_ok_iff.1 hout
    exact lexLines_cons_eq_ok_iff.2 ⟨r, below, lex_wider hline h, ih hrest, rfl⟩

/-- The line that wider limits stop at is given up under the narrower ones as well, so these stop
there or above. -/
theorem line_le_of_lexLines_error {n : Nat} {lines : List String} {o o' : Overrun}
    (ho : limits.lexLines file n lines = .error o)
    (ho' : limits'.lexLines file n lines = .error o') (h : limits'.Wider limits) :
    o.place.line ≤ o'.place.line := by
  obtain ⟨i, line, -, hline, habove⟩ := lexLines_eq_error_iff.1 ho
  obtain ⟨j, line', hj, hline', -⟩ := lexLines_eq_error_iff.1 ho'
  have hij : i ≤ j := by
    by_contra hlt
    obtain ⟨r, hr⟩ := habove j (by omega) line' hj
    rw [lex_wider hr h] at hline'
    cases hline'
  rw [place_of_lex_error hline, place_of_lex_error hline']
  exact Nat.add_le_add_left hij n

/-- Limits reject and do nothing else. What is read under some limits is read to the same under
wider ones, line or script; a script that both give up is not given up earlier under the wider ones.
Any two limits that a line passes give one reading. -/
theorem lex_limits_only_reject (limits limits' : Limits) :
    (limits'.Wider limits →
      (∀ place text r, limits.lex place text = .ok r → limits'.lex place text = .ok r) ∧
      ∀ file script,
        (∀ out, limits.lexScript file script = .ok out →
          limits'.lexScript file script = .ok out) ∧
        ∀ o o', limits.lexScript file script = .error o →
          limits'.lexScript file script = .error o' → o.place.line ≤ o'.place.line) ∧
    ∀ place text r r', limits.lex place text = .ok r → limits'.lex place text = .ok r' → r = r' := by
  refine ⟨fun h => ⟨fun place text r hr => lex_wider hr h, fun file script => ⟨?_, ?_⟩⟩, ?_⟩
  · intro out hout
    exact lexLines_wider hout h
  · intro o o' ho ho'
    exact line_le_of_lexLines_error ho ho' h
  · intro place text r r' hr hr'
    exact lex_unique hr hr'

/-- Of two lines the first is given up for its depth under the narrow limits, the second for its
length under both. Limits of which neither are wider than the others read a line alike. -/
theorem lex_limits_only_reject_deep :
    Limits.Wider ⟨2, 9⟩ ⟨1, 4⟩ ∧
      (∃ o o', Limits.lexScript ⟨1, 4⟩ "f" "((;\n))))))))))\n" = .error o ∧
        Limits.lexScript ⟨2, 9⟩ "f" "((;\n))))))))))\n" = .error o' ∧
        o.cause = .tooDeep 1 ∧ o'.cause = .tooLong 10 9 ∧ o.place.line ≤ o'.place.line) ∧
      (∃ r, Limits.lex ⟨1, 4⟩ ⟨"f", 1⟩ "(+\n" = .ok r ∧ Limits.lex ⟨2, 9⟩ ⟨"f", 1⟩ "(+\n" = .ok r) ∧
      ∃ r r', Limits.lex ⟨1, 4⟩ ⟨"f", 1⟩ "(+\n" = .ok r ∧
        Limits.lex ⟨2, 2⟩ ⟨"f", 1⟩ "(+\n" = .ok r' ∧ r = r' := by
  have hwider : Limits.Wider ⟨2, 9⟩ ⟨1, 4⟩ := ⟨by decide, by decide⟩
  have hr : Limits.lex ⟨1, 4⟩ ⟨"f", 1⟩ "(+\n" = .ok
      ⟨[⟨⟨.opener, "(", 0⟩, 1⟩, ⟨⟨.unknown, "+", 1⟩, 1⟩],
        [⟨⟨.unknown "+", 0⟩, ⟨"f", 1⟩⟩, ⟨⟨.unclosedParen, 0⟩, ⟨"f", 1⟩⟩,
          ⟨⟨.unterminated, 1⟩, ⟨"f", 1⟩⟩]⟩ := by decide
  have hr' : Limits.lex ⟨2, 2⟩ ⟨"f", 1⟩ "(+\n" = .ok
      ⟨[⟨⟨.opener, "(", 0⟩, 1⟩, ⟨⟨.unknown, "+", 1⟩, 1⟩],
        [⟨⟨.unknown "+", 0⟩, ⟨"f", 1⟩⟩, ⟨⟨.unclosedParen, 0⟩, ⟨"f", 1⟩⟩,
          ⟨⟨.unterminated, 1⟩, ⟨"f", 1⟩⟩]⟩ := by decide
  have ho : Limits.lexScript ⟨1, 4⟩ "f" "((;\n))))))))))\n" =
      .error ⟨⟨.tooDeep 1, 1⟩, ⟨"f", 1⟩⟩ := by decide
  have ho' : Limits.lexScript ⟨2, 9⟩ "f" "((;\n))))))))))\n" =
      .error ⟨⟨.tooLong 10 9, 9⟩, ⟨"f", 2⟩⟩ := by decide
  obtain ⟨hread, hscript⟩ := (lex_limits_only_reject ⟨1, 4⟩ ⟨2, 9⟩).1 hwider
  refine ⟨hwider, ⟨_, _, ho, ho', rfl, rfl, (hscript _ _).2 _ _ ho ho'⟩,
    ⟨_, hr, hread _ _ _ hr⟩, _, _, hr, hr', ?_⟩
  exact (lex_limits_only_reject ⟨1, 4⟩ ⟨2, 2⟩).2 _ _ _ _ hr hr'

end LineLexer
