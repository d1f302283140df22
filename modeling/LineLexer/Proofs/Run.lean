import Mathlib.Data.String.Basic
import LineLexer.Proofs.Step
/-!
# What a stretch of a line does

A property of all that a scan reaches is proved for one character and carried through by
`reached_induction`; where a scan stops is found by `run_eq_error_iff`. Blanks and strings are read
in one go.
-/
namespace LineLexer

open String (utf8Len)

namespace Scan

variable {depth : Nat} {s s' : Scan} {c : Char} {a b cs : List Char} {h : Halt}

/-! ## A run -/

theorem run_append_of_ok (hr : run depth s a = .ok s') (b : List Char) :
    run depth s (a ++ b) = run depth s' b := by
  rw [run_append, hr]
  rfl

theorem run_append_eq_ok_iff :
    run depth s (a ++ b) = .ok s' ↔ ∃ t, run depth s a = .ok t ∧ run depth t b = .ok s' := by
  rw [run_append]
  cases run depth s a with
  | ok t =>
    constructor
    · intro hr
      exact ⟨t, rfl, hr⟩
    · rintro ⟨u, hu, hr⟩
      cases hu
      exact hr
  | error e =>
    constructor
    · intro hr; cases hr
    · rintro ⟨u, hu, -⟩; cases hu

theorem run_cons_of_reads (hr : Reads depth s c s') (cs : List Char) :
    run depth s (c :: cs) = run depth s' cs := by
  rw [run_cons, step_of_reads hr]
  rfl

theorem run_cons_eq_ok_iff :
    run depth s (c :: cs) = .ok s' ↔ ∃ t, Reads depth s c t ∧ run depth t cs = .ok s' := by
  rw [run_cons]
  cases hs : step depth s c with
  | ok t =>
    have ht := step_eq_ok_iff.1 hs
    constructor
    · intro hr
      exact ⟨t, ht, hr⟩
    · rintro ⟨u, hu, hr⟩
      obtain rfl := ht.unique hu
      exact hr
  | error e =>
    constructor
    · intro hr; cases hr
    · rintro ⟨u, hu, -⟩
      have := step_of_reads hu
      rw [hs] at this
      cases this

/-- What one character preserves, a run preserves. -/
theorem run_induction {P : List Char → Scan → Prop}
    (hstep : ∀ {a s c s'}, P a s → Reads depth s c s' → P (a ++ [c]) s')
    (ha : P a s) (hr : run depth s b = .ok s') : P (a ++ b) s' := by
  induction b generalizing a s with
  | nil =>
    cases hr
    simpa using ha
  | cons c b ih =>
    obtain ⟨t, ht, hr⟩ := run_cons_eq_ok_iff.1 hr
    simpa using ih (hstep ha ht) hr

/-- What holds at the start of a line and one character preserves holds wherever a scan gets. -/
theorem reached_induction {P : List Char → Scan → Prop} (hstart : P [] start)
    (hstep : ∀ {a s c s'}, run depth start a = .ok s → P a s → Reads depth s c s' → P (a ++ [c]) s')
    (hr : run depth start a = .ok s) : P a s := by
  have hreach : ∀ {a s c s'}, run depth start a = .ok s ∧ P a s → Reads depth s c s' →
      run depth start (a ++ [c]) = .ok s' ∧ P (a ++ [c]) s' := by
    rintro a s c s' ⟨hrun, ha⟩ hc
    exact ⟨by rw [run_append_of_ok hrun, run_cons_of_reads hc, run_nil], hstep hrun ha hc⟩
  exact (run_induction (P := fun a s => run depth start a = .ok s ∧ P a s) hreach
    ⟨rfl, hstart⟩ hr).2

/-- What goes along with one character, read or not, goes along with a run. -/
theorem run_map {φ : Scan → Scan} {ψ : Halt → Halt} {P : Scan → Prop}
    (hread : ∀ {s c t}, P s → Reads depth s c t → Reads depth (φ s) c (φ t) ∧ P t)
    (hhalt : ∀ {s c h}, step depth s c = .error h → step depth (φ s) c = .error (ψ h))
    (hs : P s) (cs : List Char) :
    run depth (φ s) cs = ((run depth s cs).map φ).mapError ψ := by
  induction cs generalizing s with
  | nil => rfl
  | cons c cs ih =>
    cases hstep : step depth s c with
    | ok t =>
      have hc := step_eq_ok_iff.1 hstep
      obtain ⟨hc', ht⟩ := hread hs hc
      rw [run_cons_of_reads hc, run_cons_of_reads hc', ih ht]
    | error h =>
      rw [run_cons, run_cons, hstep, hhalt hstep]
      rfl

/-- A run stops at the first character that stops it. -/
theorem run_eq_error_iff :
    run depth s cs = .error h ↔
      ∃ a c b t, cs = a ++ c :: b ∧ run depth s a = .ok t ∧ step depth t c = .error h := by
  constructor
  · intro hr
    induction cs generalizing s with
    | nil => cases hr
    | cons c cs ih =>
      rw [run_cons] at hr
      cases hs : step depth s c with
      | error e =>
        rw [hs] at hr
        cases hr
        exact ⟨[], c, cs, s, rfl, rfl, hs⟩
      | ok t =>
        rw [hs] at hr
        obtain ⟨a, d, b, u, rfl, hu, hd⟩ := ih hr
        exact ⟨c :: a, d, b, u, rfl, run_cons_eq_ok_iff.2 ⟨t, step_eq_ok_iff.1 hs, hu⟩, hd⟩
  · rintro ⟨a, c, b, t, rfl, ht, hc⟩
    rw [run_append_of_ok ht, run_cons, hc]
    rfl

theorem run_eq_terminated_iff {f : Findings} :
    run depth s cs = .error (.terminated f) ↔ ∃ a b t, cs = a ++ ';' :: b ∧
      run depth s a = .ok t ∧ t.openQuote? = none ∧ f = t.settle.terminated := by
  rw [run_eq_error_iff]
  constructor
  · rintro ⟨a, c, b, t, rfl, ht, hc⟩
    obtain ⟨hq, ⟨rfl, hf⟩ | ⟨-, -, hf⟩⟩ := step_eq_error_iff.1 hc
    · exact ⟨a, b, t, rfl, ht, hq, by simpa using hf⟩
    · cases hf
  · rintro ⟨a, b, t, rfl, ht, hq, rfl⟩
    exact ⟨a, ';', b, t, rfl, ht, step_eq_error_iff.2 ⟨hq, .inl ⟨rfl, rfl⟩⟩⟩

theorem run_eq_exceeded_iff {e : Excess} :
    run depth s cs = .error (.exceeded e) ↔ ∃ a b t, cs = a ++ '(' :: b ∧
      run depth s a = .ok t ∧ t.openQuote? = none ∧ depth ≤ t.opened.length ∧
        e = ⟨.tooDeep depth, t.column⟩ := by
  rw [run_eq_error_iff]
  constructor
  · rintro ⟨a, c, b, t, rfl, ht, hc⟩
    obtain ⟨hq, ⟨-, he⟩ | ⟨rfl, hd, he⟩⟩ := step_eq_error_iff.1 hc
    · cases he
    · exact ⟨a, b, t, rfl, ht, hq, hd, by simpa using he⟩
  · rintro ⟨a, b, t, rfl, ht, hq, hd, rfl⟩
    exact ⟨a, '(', b, t, rfl, ht, step_eq_error_iff.2 ⟨hq, .inr ⟨rfl, hd, rfl⟩⟩⟩

/-! ## Faults stay -/

theorem faults_isPrefix_settle (s : Scan) : s.faults.toList <+: s.settle.faults.toList := by
  unfold settle
  split
  next => simp
  next => exact List.prefix_rfl

theorem faults_isPrefix_closeParen (s : Scan) : s.faults.toList <+: s.closeParen.faults.toList := by
  unfold closeParen
  split
  next => exact List.prefix_rfl
  next => simp

theorem Reads.faults_isPrefix (hr : Reads depth s c s') : s.faults.toList <+: s'.faults.toList := by
  have hs := faults_isPrefix_settle s
  cases hr with
  | inString => simp
  | blank => exact List.prefix_rfl
  | letter => simp
  | opener => exact hs
  | closer => exact hs.trans (faults_isPrefix_closeParen s.settle)
  | quote => exact hs
  | other =>
    refine hs.trans ?_
    simp

/-- The line is without a fault only if every part of it was read without one. -/
theorem faults_eq_nil_of_terminated {f : Findings} (hr : run depth s cs = .error (.terminated f))
    (hf : f.faults = []) : s.faults.toList = [] := by
  obtain ⟨a, b, t, rfl, ht, -, rfl⟩ := run_eq_terminated_iff.1 hr
  have hprefix : s.faults.toList <+: t.faults.toList :=
    run_induction (P := fun _ t => s.faults.toList <+: t.faults.toList) (a := [])
      (fun h hr => h.trans hr.faults_isPrefix) List.prefix_rfl ht
  have hsettle : t.settle.faults.toList = [] := (List.append_eq_nil_iff.1 hf).1
  have := hprefix.trans (faults_isPrefix_settle t)
  rw [hsettle] at this
  exact List.prefix_nil.1 this

/-! ## Stretches of one kind -/

/-- Blanks outside strings only move the scan on. -/
theorem run_blanks (hq : s.openQuote? = none) (hb : ∀ c ∈ b, Text.isBlank c = true) :
    run depth s b = .ok { s with column := s.column + utf8Len b } := by
  induction b generalizing s with
  | nil => rfl
  | cons c b ih =>
    have hr : Reads depth s c (s.advance c) := .blank hq (hb c (by simp))
    rw [run_cons_of_reads hr, ih (s := s.advance c) hq fun x hx => hb x (by simp [hx])]
    simp only [advance, String.utf8Len_cons, Except.ok.injEq, Scan.mk.injEq, and_true]
    omega

/-- Within a string every character but the quote is read as it stands. -/
theorem run_body {quote : Nat} {body : String} (hp : s.pending = .string quote body)
    (hb : '"' ∉ b) :
    run depth s b = .ok { s with
      column := s.column + utf8Len b
      pending := .string quote (body ++ String.ofList b) } := by
  induction b generalizing s body with
  | nil =>
    obtain ⟨col, ls, fs, op, pend⟩ := s
    obtain rfl := hp
    simp
  | cons c b ih =>
    have hc : c ≠ '"' := fun h => hb (by simp [h])
    have hr : Reads depth s c ((s.inString quote body c).advance c) := .inString hp
    have hp' : ((s.inString quote body c).advance c).pending = .string quote (body.push c) := by
      simp [hc]
    rw [run_cons_of_reads hr, ih hp' fun h => hb (by simp [h])]
    have hbody : body.push c ++ String.ofList b = body ++ String.ofList (c :: b) :=
      String.toList_inj.1 (by simp)
    simp only [advance, inString, hc, if_false, hbody, String.utf8Len_cons, Except.ok.injEq,
      Scan.mk.injEq, and_true]
    omega

/-- A string from its first quote to its last. -/
theorem run_string (hq : s.openQuote? = none) (hb : '"' ∉ b) :
    run depth s ('"' :: (b ++ ['"'])) = .ok (Scan.emit { s.settle with
      column := s.column + utf8Len ('"' :: (b ++ ['"']))
      pending := .nothing } .literal (String.ofList b) s.column) := by
  have hopen : Reads depth s '"' (s.settle.openString.advance '"') := .quote hq
  have hp : (s.settle.openString.advance '"').pending = .string s.column "" := by simp
  rw [run_cons_of_reads hopen, run_append_of_ok (run_body hp hb),
    run_cons_of_reads (.inString rfl), run_nil]
  simp only [inString, if_true, String.empty_append, emit, advance, openString, column_settle,
    String.utf8Len_cons, String.utf8Len_append, String.utf8Len_nil, Except.ok.injEq,
    Scan.mk.injEq, and_true]
  omega

/-! ## What a run comes to -/

/-- What the line holds if it is over where the run ends. -/
def outcome : Except Halt Scan → Except Excess Findings
  | .ok s => .ok s.settle.exhausted
  | .error (.terminated f) => .ok f
  | .error (.exceeded e) => .error e

theorem outcome_eq_ok_iff {x : Except Halt Scan} {f : Findings} :
    outcome x = .ok f ↔
      (∃ s, x = .ok s ∧ f = s.settle.exhausted) ∨ x = .error (.terminated f) := by
  cases x with
  | ok s => simp [outcome, eq_comm]
  | error h => cases h <;> simp [outcome]

theorem outcome_eq_error_iff {x : Except Halt Scan} {e : Excess} :
    outcome x = .error e ↔ x = .error (.exceeded e) := by
  cases x with
  | ok s => simp [outcome]
  | error h => cases h <;> simp [outcome]

end Scan

/-! ## A whole line -/

theorem Limits.scan_of_le {limits : Limits} {line : String}
    (h : line.utf8ByteSize ≤ limits.length) :
    limits.scan line = Scan.outcome (Scan.run limits.depth .start line.toList) := by
  rw [Limits.scan, if_neg (by omega)]
  cases Scan.run limits.depth .start line.toList with
  | ok s => rfl
  | error h => cases h <;> rfl

theorem Limits.scan_eq_ok_iff {limits : Limits} {line : String} {f : Findings} :
    limits.scan line = .ok f ↔ line.utf8ByteSize ≤ limits.length ∧
      ((∃ s, Scan.run limits.depth .start line.toList = .ok s ∧ f = s.settle.exhausted) ∨
        Scan.run limits.depth .start line.toList = .error (.terminated f)) := by
  by_cases hfits : line.utf8ByteSize ≤ limits.length
  · simp only [Limits.scan_of_le hfits, Scan.outcome_eq_ok_iff, hfits, true_and]
  · simp [Limits.scan, Nat.lt_of_not_le hfits, hfits]

theorem Limits.scan_eq_error_iff {limits : Limits} {line : String} {e : Excess} :
    limits.scan line = .error e ↔
      (limits.length < line.utf8ByteSize ∧
        e = ⟨.tooLong line.utf8ByteSize limits.length, limits.length⟩) ∨
      (line.utf8ByteSize ≤ limits.length ∧
        Scan.run limits.depth .start line.toList = .error (.exceeded e)) := by
  by_cases hfits : line.utf8ByteSize ≤ limits.length
  · simp only [Limits.scan_of_le hfits, Scan.outcome_eq_error_iff, hfits, Nat.not_lt.2 hfits,
      false_and, false_or, true_and]
  · simp [Limits.scan, Nat.lt_of_not_le hfits, hfits, eq_comm]

end LineLexer
