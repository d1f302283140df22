import Mathlib.Order.Bounds.Basic
import LineLexer.Proofs.Outside
import LineLexer.Reading
/-!
# Which lines are given up

`TooDeepAt` says of the bare characters of a line where it nests too deep, without a scan and its
stack. A line is given up for its length whatever it holds; else for its depth, at the first place
where it nests too deep; and for nothing else (`lex_overrun_iff`).
-/
namespace LineLexer

open String (utf8Len)

variable {depth p : Nat} {s : Scan} {a b cs : List Char}

/-- At byte `p` stands an opening parenthesis, outside strings and before the end that a semicolon
outside strings would make, and `depth` parentheses or more are open before it. -/
def TooDeepAt (depth : Nat) (cs : List Char) (p : Nat) : Prop :=
  ∃ a b, cs = a ++ '(' :: b ∧ utf8Len a = p ∧ a.count '"' % 2 = 0 ∧ ';' ∉ Text.outside a ∧
    depth ≤ Text.nesting (Text.outside a)

/-! ## What a scan has passed -/

/-- A scan passes an opening parenthesis outside strings only below the limit. -/
theorem nesting_lt_of_run (hr : Scan.run depth .start (a ++ '(' :: b) = .ok s)
    (heven : a.count '"' % 2 = 0) : Text.nesting (Text.outside a) < depth := by
  obtain ⟨t, ht, hrest⟩ := Scan.run_append_eq_ok_iff.1 hr
  obtain ⟨u, hu, -⟩ := Scan.run_cons_eq_ok_iff.1 hrest
  have htracks := Scan.tracks_of_run ht
  rw [← htracks.nested]
  exact hu.length_opened_lt (htracks.openQuote?_eq_none_iff.2 heven)

/-- Nothing is too deep in what a scan has passed. -/
theorem le_of_tooDeepAt (hr : Scan.run depth .start a = .ok s)
    (hp : TooDeepAt depth (a ++ b) p) : ∃ x y, b = x ++ '(' :: y ∧ p = utf8Len (a ++ x) ∧
      ';' ∉ Text.outside (a ++ x) := by
  obtain ⟨a', b', heq, rfl, heven, hrunning, hdeep⟩ := hp
  rcases List.append_eq_append_iff.1 heq with ⟨x, rfl, hb⟩ | ⟨x, rfl, hb⟩
  · exact ⟨x, b', hb, rfl, hrunning⟩
  · cases x with
    | nil => exact ⟨[], b', by simpa using hb.symm, by simp, by simpa using hrunning⟩
    | cons c x =>
      obtain ⟨rfl, -⟩ : '(' = c ∧ b' = x ++ b := by simpa using hb
      have := nesting_lt_of_run hr heven
      omega

/-! ## Where a scan stops -/

theorem not_tooDeepAt_of_ok (hr : Scan.run depth .start cs = .ok s) : ¬ TooDeepAt depth cs p := by
  intro hp
  rw [← List.append_nil cs] at hp
  obtain ⟨x, y, hx, -⟩ := le_of_tooDeepAt hr hp
  simp at hx

/-- After the semicolon that ends the line nothing is too deep. -/
theorem not_tooDeepAt_of_terminated {f : Findings}
    (hr : Scan.run depth .start cs = .error (.terminated f)) : ¬ TooDeepAt depth cs p := by
  obtain ⟨a, b, t, rfl, ht, hq, -⟩ := Scan.run_eq_terminated_iff.1 hr
  intro hp
  obtain ⟨x, y, hx, -, hrunning⟩ := le_of_tooDeepAt ht hp
  cases x with
  | nil => simp at hx
  | cons d x =>
    obtain ⟨rfl, -⟩ : ';' = d ∧ b = x ++ '(' :: y := by simpa using hx
    apply hrunning
    exact Text.mem_outside_iff.2 ⟨a, x, rfl, (Scan.tracks_of_run ht).even hq⟩

/-- A scan that stops for depth stops at the first place that is too deep. -/
theorem isLeast_of_exceeded {e : Excess} (hr : Scan.run depth .start cs = .error (.exceeded e)) :
    ∃ p, e = ⟨.tooDeep depth, p⟩ ∧ IsLeast {q | TooDeepAt depth cs q} p := by
  obtain ⟨a, b, t, rfl, ht, hq, hdeep, he⟩ := Scan.run_eq_exceeded_iff.1 hr
  have htracks := Scan.tracks_of_run ht
  refine ⟨t.column, he, ?_, ?_⟩
  · refine ⟨a, b, rfl, htracks.column.symm, htracks.even hq, htracks.running, ?_⟩
    rw [← htracks.nested]
    exact hdeep
  · intro q hdeeper
    obtain ⟨x, y, -, rfl, -⟩ := le_of_tooDeepAt ht hdeeper
    rw [htracks.column, String.utf8Len_append]
    omega

theorem run_exceeded_iff {e : Excess} :
    Scan.run depth .start cs = .error (.exceeded e) ↔
      ∃ p, e = ⟨.tooDeep depth, p⟩ ∧ IsLeast {q | TooDeepAt depth cs q} p := by
  refine ⟨isLeast_of_exceeded, ?_⟩
  rintro ⟨p, rfl, hp⟩
  cases hr : Scan.run depth .start cs with
  | ok s => exact absurd hp.1 (not_tooDeepAt_of_ok hr)
  | error h =>
    cases h with
    | terminated f => exact absurd hp.1 (not_tooDeepAt_of_terminated hr)
    | exceeded e =>
      obtain ⟨q, rfl, hq⟩ := isLeast_of_exceeded hr
      rw [hp.unique hq]

/-- A scan stops for depth as soon as there is a place that is too deep. -/
theorem exists_run_exceeded_iff :
    (∃ e, Scan.run depth .start cs = .error (.exceeded e)) ↔ ∃ p, TooDeepAt depth cs p := by
  constructor
  · rintro ⟨e, he⟩
    obtain ⟨p, -, hp⟩ := isLeast_of_exceeded he
    exact ⟨p, hp.1⟩
  · rintro ⟨p, hp⟩
    cases hr : Scan.run depth .start cs with
    | ok s => exact absurd hp (not_tooDeepAt_of_ok hr)
    | error h =>
      cases h with
      | terminated f => exact absurd hp (not_tooDeepAt_of_terminated hr)
      | exceeded e => exact ⟨e, rfl⟩

/-! ## Which lines -/

theorem scan_error_iff {limits : Limits} {line : String} {e : Excess} :
    limits.scan line = .error e ↔
      (limits.length < line.utf8ByteSize ∧
        e = ⟨.tooLong line.utf8ByteSize limits.length, limits.length⟩) ∨
      (line.utf8ByteSize ≤ limits.length ∧
        ∃ p, e = ⟨.tooDeep limits.depth, p⟩ ∧
          IsLeast {q | TooDeepAt limits.depth line.toList q} p) := by
  rw [Limits.scan_eq_error_iff, run_exceeded_iff]

theorem exists_scan_ok_iff {limits : Limits} {line : String} :
    (∃ f, limits.scan line = .ok f) ↔
      line.utf8ByteSize ≤ limits.length ∧ ∀ p, ¬ TooDeepAt limits.depth line.toList p := by
  rw [← not_exists, ← exists_run_exceeded_iff, not_exists]
  constructor
  · rintro ⟨f, hf⟩
    obtain ⟨hlength, ⟨s, hs, -⟩ | ht⟩ := Limits.scan_eq_ok_iff.1 hf
    · exact ⟨hlength, fun e he => by rw [hs] at he; cases he⟩
    · exact ⟨hlength, fun e he => by rw [ht] at he; cases he⟩
  · rintro ⟨hlength, hnone⟩
    cases hr : Scan.run limits.depth .start line.toList with
    | ok s => exact ⟨_, Limits.scan_eq_ok_iff.2 ⟨hlength, .inl ⟨s, hr, rfl⟩⟩⟩
    | error h =>
      cases h with
      | terminated f => exact ⟨f, Limits.scan_eq_ok_iff.2 ⟨hlength, .inr hr⟩⟩
      | exceeded e => exact absurd hr (hnone e)

theorem lex_error_iff {limits : Limits} {place : Place} {text : String} {e : Excess} :
    limits.lex place text = .error (e.atPlace place) ↔
      limits.scan (Text.dropEnding text) = .error e := by
  rw [Limits.lex_eq_error_iff]
  constructor
  · rintro ⟨e', he', heq⟩
    rw [he', show e = e' from congrArg Overrun.toExcess heq]
  · intro h
    exact ⟨e, h, rfl⟩

/-- The only lines given up are those longer than the limit, whatever they hold, and among the
others those that nest too deep, at the first byte where they do. -/
theorem lex_overrun_iff (limits : Limits) (place : Place) (text : String) :
    let line := Text.dropEnding text
    (limits.lex place text =
        .error (Excess.atPlace ⟨.tooLong line.utf8ByteSize limits.length, limits.length⟩ place) ↔
      limits.length < line.utf8ByteSize) ∧
    (∀ p, limits.lex place text = .error (Excess.atPlace ⟨.tooDeep limits.depth, p⟩ place) ↔
      line.utf8ByteSize ≤ limits.length ∧
        IsLeast {q | TooDeepAt limits.depth line.toList q} p) ∧
    ((∃ p, limits.lex place text = .error (Excess.atPlace ⟨.tooDeep limits.depth, p⟩ place)) ↔
      line.utf8ByteSize ≤ limits.length ∧ ∃ p, TooDeepAt limits.depth line.toList p) ∧
    ((∃ r, limits.lex place text = .ok r) ↔
      line.utf8ByteSize ≤ limits.length ∧ ∀ p, ¬ TooDeepAt limits.depth line.toList p) := by
  intro line
  refine ⟨?_, ?_, ?_, ?_⟩
  · rw [lex_error_iff, scan_error_iff]
    simp [line]
  · intro p
    rw [lex_error_iff, scan_error_iff]
    simp [line]
  · simp only [lex_error_iff, scan_error_iff]
    constructor
    · rintro ⟨p, ⟨-, hcause⟩ | ⟨hlength, q, -, hq⟩⟩
      · cases hcause
      · exact ⟨hlength, q, hq.1⟩
    · rintro ⟨hlength, hdeep⟩
      obtain ⟨e, he⟩ := exists_run_exceeded_iff.2 hdeep
      obtain ⟨q, rfl, hq⟩ := isLeast_of_exceeded he
      exact ⟨q, .inr ⟨hlength, q, rfl, hq⟩⟩
  · rw [← exists_scan_ok_iff]
    simp only [Limits.lex_eq_ok_iff]
    constructor
    · rintro ⟨r, f, hf, -⟩
      exact ⟨f, hf⟩
    · rintro ⟨f, hf⟩
      exact ⟨_, f, hf, rfl⟩

end LineLexer
