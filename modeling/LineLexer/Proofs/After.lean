import LineLexer.Proofs.Columns
import LineLexer.Proofs.Moved
/-!
# Behind what has been found

A scan adds to what it has found and does not look at it again before the line is over. So what has
been found before a stretch has no part in what is found in it (`run_after`). A scan with nothing
pending is a fresh one behind its findings (`eq_fresh_after`).
-/
namespace LineLexer

variable {depth : Nat} {s t : Scan} {c : Char} {x : Findings}

/-! ## Findings one after the other -/

/-- The findings of a stretch and those of the stretch behind it. -/
instance : Append Findings where
  append x y := ⟨x.lexemes ++ y.lexemes, x.faults ++ y.faults⟩

@[simp] theorem Findings.lexemes_append (x y : Findings) :
    (x ++ y).lexemes = x.lexemes ++ y.lexemes := rfl

@[simp] theorem Findings.faults_append (x y : Findings) :
    (x ++ y).faults = x.faults ++ y.faults := rfl

theorem Findings.tokens_append (x y : Findings) (p : Place) :
    ((x ++ y).atPlace p).tokens = (x.atPlace p).tokens ++ (y.atPlace p).tokens :=
  List.map_append

theorem Findings.diagnostics_append (x y : Findings) (p : Place) :
    ((x ++ y).atPlace p).diagnostics = (x.atPlace p).diagnostics ++ (y.atPlace p).diagnostics :=
  List.map_append

namespace Scan

/-- The scan, if `x` has been found before. -/
def after (x : Findings) (s : Scan) : Scan :=
  { s with
    lexemes := x.lexemes.toArray ++ s.lexemes
    faults := x.faults.toArray ++ s.faults }

@[simp] theorem column_after (x : Findings) (s : Scan) : (s.after x).column = s.column := rfl

@[simp] theorem opened_after (x : Findings) (s : Scan) : (s.after x).opened = s.opened := rfl

@[simp] theorem pending_after (x : Findings) (s : Scan) : (s.after x).pending = s.pending := rfl

@[simp] theorem openQuote?_after (x : Findings) (s : Scan) :
    (s.after x).openQuote? = s.openQuote? := rfl

@[simp] theorem lexemes_after (x : Findings) (s : Scan) :
    (s.after x).lexemes.toList = x.lexemes ++ s.lexemes.toList := by
  simp [after]

@[simp] theorem faults_after (x : Findings) (s : Scan) :
    (s.after x).faults.toList = x.faults ++ s.faults.toList := by
  simp [after]

/-! ## Each operation -/

@[simp] theorem after_emit (x : Findings) (s : Scan) (k : Lexeme.Kind) (text : String) (n : Nat) :
    (s.emit k text n).after x = (s.after x).emit k text n := by
  simp [after, emit]

@[simp] theorem after_fault (x : Findings) (s : Scan) (cause : Fault.Cause) (n : Nat) :
    (s.fault cause n).after x = (s.after x).fault cause n := by
  simp [after, fault]

@[simp] theorem after_unknown (x : Findings) (s : Scan) (text : String) (n : Nat) :
    (s.unknown text n).after x = (s.after x).unknown text n := by
  rw [unknown, after_fault, after_emit]
  rfl

@[simp] theorem after_settle (x : Findings) (s : Scan) : s.settle.after x = (s.after x).settle := by
  cases hp : s.pending with
  | word start letters =>
    simp only [settle, pending_after, hp, after_unknown]
    rfl
  | nothing => simp only [settle, pending_after, hp]
  | string quote body => simp only [settle, pending_after, hp]

@[simp] theorem after_letter (x : Findings) (s : Scan) (c : Char) :
    (s.letter c).after x = (s.after x).letter c := by
  by_cases hk : s.letters ++ [c] = keyword.toList
  · rw [letter_of_keyword hk, letter_of_keyword (s := s.after x) hk, after_emit]
    rfl
  · rw [letter_of_ne_keyword hk, letter_of_ne_keyword (s := s.after x) hk]
    rfl

@[simp] theorem after_inString (x : Findings) (s : Scan) (quote : Nat) (body : String) (c : Char) :
    (s.inString quote body c).after x = (s.after x).inString quote body c := by
  by_cases hc : c = '"'
  · simp only [inString, if_pos hc, after_emit]
    rfl
  · simp only [inString, if_neg hc]
    rfl

@[simp] theorem after_openString (x : Findings) (s : Scan) :
    s.openString.after x = (s.after x).openString := rfl

@[simp] theorem after_openParen (x : Findings) (s : Scan) :
    s.openParen.after x = (s.after x).openParen := by
  simp only [openParen, after_emit]
  rfl

@[simp] theorem after_closeParen (x : Findings) (s : Scan) :
    s.closeParen.after x = (s.after x).closeParen := by
  cases ho : s.opened with
  | nil =>
    rw [closeParen_of_nil ho, closeParen_of_nil (s := s.after x) ho, after_fault, after_emit]
    rfl
  | cons column outer =>
    rw [closeParen_of_cons ho, closeParen_of_cons (s := s.after x) ho, after_emit]
    rfl

@[simp] theorem after_advance (x : Findings) (s : Scan) (c : Char) :
    (s.advance c).after x = (s.after x).advance c := rfl

theorem moved_after (f : Nat → Nat) (x : Findings) (s : Scan) :
    (s.after x).moved f = (s.moved f).after (x.moved f) := by
  simp [moved, after, Findings.moved]

/-! ## A character and a stretch -/

theorem Reads.after (hr : Reads depth s c t) (x : Findings) :
    Reads depth (s.after x) c (t.after x) := by
  cases hr with
  | inString hp =>
    rw [after_advance, after_inString]
    exact .inString hp
  | blank hq hc => exact .blank hq hc
  | letter hq hc =>
    rw [after_advance, after_letter]
    exact .letter hq hc
  | opener hq hd =>
    rw [after_advance, after_openParen, after_settle]
    exact .opener hq hd
  | closer hq =>
    rw [after_advance, after_closeParen, after_settle]
    exact .closer hq
  | quote hq =>
    rw [after_advance, after_openString, after_settle]
    exact .quote hq
  | other hq hc =>
    rw [after_advance, after_unknown, after_settle]
    exact .other hq hc

theorem terminated_after (x : Findings) (s : Scan) :
    (s.after x).terminated = x ++ s.terminated := by
  have hparen : (s.after x).unclosedParen = s.unclosedParen := rfl
  simp only [terminated, hparen, lexemes_emit, lexemes_after, faults_after, column_after,
    List.append_assoc]
  rfl

def Halt.after (x : Findings) : Halt → Halt
  | .terminated y => .terminated (x ++ y)
  | .exceeded e => .exceeded e

theorem step_after_of_error {h : Halt} (he : step depth s c = .error h) :
    step depth (s.after x) c = .error (h.after x) := by
  obtain ⟨hq, ⟨rfl, rfl⟩ | ⟨rfl, hd, rfl⟩⟩ := step_eq_error_iff.1 he
  · refine step_eq_error_iff.2 ⟨hq, .inl ⟨rfl, ?_⟩⟩
    rw [Halt.after, ← terminated_after, after_settle]
  · exact step_eq_error_iff.2 ⟨hq, .inr ⟨rfl, hd, rfl⟩⟩

/-- A stretch is read to the same behind any findings. -/
theorem run_after (x : Findings) (s : Scan) (cs : List Char) :
    run depth (s.after x) cs = ((run depth s cs).map (·.after x)).mapError (·.after x) := by
  refine run_map (P := fun _ => True) ?_ ?_ trivial cs
  · intro s c t _ hc
    exact ⟨hc.after x, trivial⟩
  · intro s c h hstep
    exact step_after_of_error hstep

/-! ## The end of the line -/

theorem exhausted_after (x : Findings) (s : Scan) :
    (s.after x).exhausted = x ++ ⟨s.lexemes.toList, s.faults.toList ++ s.unclosedString ++
      s.unclosedParen ++ (s.after x).unterminated⟩ := by
  have hstring : (s.after x).unclosedString = s.unclosedString := rfl
  have hparen : (s.after x).unclosedParen = s.unclosedParen := rfl
  simp only [exhausted, hstring, hparen, lexemes_after, faults_after, List.append_assoc]
  rfl

/-- Of what has been found before, the end of the line looks at nothing but columns. -/
theorem unterminated_after_congr {x y : Findings} (h : columns y.lexemes = columns x.lexemes)
    (s : Scan) : (s.after y).unterminated = (s.after x).unterminated := by
  have hlast : ∀ z : Findings, (s.after z).lexemes.back?.map (·.column) =
      (columns z.lexemes ++ columns s.lexemes.toList).getLast? := by
    intro z
    rw [← Array.getLast?_toList, lexemes_after, ← List.getLast?_map, List.map_append]
    rfl
  simp only [unterminated, hlast, h, openQuote?_after]

/-- What is found in the rest of a line is the same behind all findings in the same columns. -/
theorem exists_outcome_run_after {cs : List Char} {x z : Findings}
    (ho : outcome (run depth (s.after x) cs) = .ok z) :
    ∃ g, z = x ++ g ∧ ∀ y : Findings, columns y.lexemes = columns x.lexemes →
      outcome (run depth (s.after y) cs) = .ok (y ++ g) := by
  rw [run_after] at ho
  rcases hrun : run depth s cs with h | t
  · cases h with
    | terminated g =>
      rw [hrun] at ho
      obtain rfl : x ++ g = z := by
        simpa [Except.map, Except.mapError, Halt.after, outcome] using ho
      refine ⟨g, rfl, fun y _ => ?_⟩
      rw [run_after, hrun]
      rfl
    | exceeded e =>
      rw [hrun] at ho
      cases ho
  · have hend : ∀ y : Findings, outcome (run depth (s.after y) cs) =
        .ok (t.settle.after y).exhausted := by
      intro y
      rw [run_after, hrun, after_settle]
      rfl
    rw [← run_after, hend, exhausted_after] at ho
    refine ⟨_, (Except.ok.inj ho).symm, fun y hy => ?_⟩
    rw [hend, exhausted_after, unterminated_after_congr hy]

/-! ## A fresh scan -/

/-- A scan that has found nothing and is in the middle of nothing. -/
def fresh (column : Nat) (opened : List Nat) : Scan := ⟨column, #[], #[], opened, .nothing⟩

/-- What a scan has found so far. -/
def found (s : Scan) : Findings := ⟨s.lexemes.toList, s.faults.toList⟩

theorem found_emit (s : Scan) (k : Lexeme.Kind) (text : String) (n : Nat) :
    (s.emit k text n).found = s.found ++ ⟨[⟨k, text, n⟩], []⟩ := by
  rw [found, lexemes_emit, faults_emit]
  exact congrArg (Findings.mk _) (List.append_nil _).symm

theorem eq_fresh_after (hp : s.pending = .nothing) :
    s = (fresh s.column s.opened).after s.found := by
  obtain ⟨column, lexemes, faults, opened, pending⟩ := s
  obtain rfl := hp
  simp [after, fresh, found]

theorem moved_fresh (f : Nat → Nat) (column : Nat) (opened : List Nat) :
    (fresh column opened).moved f = fresh (f column) (opened.map f) := by
  simp [moved, fresh, Pending.moved]

end Scan
end LineLexer
