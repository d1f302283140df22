import LineLexer.Proofs.Run
import LineLexer.Reading
/-!
# Columns moved

A scan hands columns on and looks at none of them. So if all that it holds is moved by a function
`f`, it reads the next character as before, and what it finds is moved by `f` (`Reads.moved`); only
the column behind the character has to move with the one in front of it.
-/
namespace LineLexer

variable {f : Nat → Nat} {depth : Nat} {s t : Scan} {c : Char}

/-! ## What is moved -/

def Lexeme.moved (f : Nat → Nat) (l : Lexeme) : Lexeme := { l with column := f l.column }

def Fault.moved (f : Nat → Nat) (x : Fault) : Fault := { x with column := f x.column }

def Excess.moved (f : Nat → Nat) (e : Excess) : Excess := { e with column := f e.column }

def Findings.moved (f : Nat → Nat) (x : Findings) : Findings where
  lexemes := x.lexemes.map (·.moved f)
  faults := x.faults.map (·.moved f)

def Token.moved (f : Nat → Nat) (t : Token) : Token := { t with column := f t.column }

def Diagnostic.moved (f : Nat → Nat) (d : Diagnostic) : Diagnostic :=
  { d with column := f d.column }

/-- The same limit passed in another column. -/
def Overrun.moved (f : Nat → Nat) (o : Overrun) : Overrun := { o with column := f o.column }

/-- The same kinds and texts in the same order, in other columns. -/
def Reading.moved (f : Nat → Nat) (r : Reading) : Reading where
  tokens := r.tokens.map (·.moved f)
  diagnostics := r.diagnostics.map (·.moved f)

theorem Findings.atPlace_moved (f : Nat → Nat) (x : Findings) (p : Place) :
    (x.moved f).atPlace p = (x.atPlace p).moved f := by
  simp only [Findings.atPlace, Findings.moved, Reading.moved, List.map_map]
  rfl

theorem Findings.moved_eq_self_iff {x : Findings} :
    x.moved f = x ↔
      (∀ l ∈ x.lexemes, f l.column = l.column) ∧ ∀ y ∈ x.faults, f y.column = y.column := by
  have hlexemes : x.lexemes.map (·.moved f) = x.lexemes.map id ↔
      ∀ l ∈ x.lexemes, l.moved f = l := List.map_inj_left
  have hfaults : x.faults.map (·.moved f) = x.faults.map id ↔
      ∀ y ∈ x.faults, y.moved f = y := List.map_inj_left
  have hl : ∀ l : Lexeme, l.moved f = l ↔ f l.column = l.column := by
    rintro ⟨kind, text, column⟩
    simp [Lexeme.moved]
  have hy : ∀ y : Fault, y.moved f = y ↔ f y.column = y.column := by
    rintro ⟨cause, column⟩
    simp [Fault.moved]
  rw [List.map_id] at hlexemes hfaults
  obtain ⟨lexemes, faults⟩ := x
  simp only [Findings.moved, Findings.mk.injEq, hlexemes, hfaults, hl, hy]

def Pending.moved (f : Nat → Nat) : Pending → Pending
  | .nothing => .nothing
  | .word start letters => .word (f start) letters
  | .string quote body => .string (f quote) body

namespace Scan

def moved (f : Nat → Nat) (s : Scan) : Scan where
  column := f s.column
  lexemes := s.lexemes.map (·.moved f)
  faults := s.faults.map (·.moved f)
  opened := s.opened.map f
  pending := s.pending.moved f

@[simp] theorem column_moved (f : Nat → Nat) (s : Scan) : (s.moved f).column = f s.column := rfl

@[simp] theorem opened_moved (f : Nat → Nat) (s : Scan) : (s.moved f).opened = s.opened.map f := rfl

theorem pending_moved_of_nothing (h : s.pending = .nothing) : (s.moved f).pending = .nothing := by
  simp [moved, h, Pending.moved]

theorem pending_moved_of_word {start : Nat} {letters : String}
    (h : s.pending = .word start letters) :
    (s.moved f).pending = .word (f start) letters := by
  simp [moved, h, Pending.moved]

theorem pending_moved_of_string {quote : Nat} {body : String} (h : s.pending = .string quote body) :
    (s.moved f).pending = .string (f quote) body := by
  simp [moved, h, Pending.moved]

@[simp] theorem openQuote?_moved (f : Nat → Nat) (s : Scan) :
    (s.moved f).openQuote? = s.openQuote?.map f := by
  cases hp : s.pending with
  | nothing => simp [openQuote?, pending_moved_of_nothing hp, hp]
  | word start letters => simp [openQuote?, pending_moved_of_word hp, hp]
  | string quote body => simp [openQuote?, pending_moved_of_string hp, hp]

/-! ## Each operation -/

@[simp] theorem moved_emit (f : Nat → Nat) (s : Scan) (k : Lexeme.Kind) (text : String) (n : Nat) :
    (s.emit k text n).moved f = (s.moved f).emit k text (f n) := by
  simp [moved, emit, Lexeme.moved]

@[simp] theorem moved_fault (f : Nat → Nat) (s : Scan) (x : Fault.Cause) (n : Nat) :
    (s.fault x n).moved f = (s.moved f).fault x (f n) := by
  simp [moved, fault, Fault.moved]

@[simp] theorem moved_unknown (f : Nat → Nat) (s : Scan) (text : String) (n : Nat) :
    (s.unknown text n).moved f = (s.moved f).unknown text (f n) := by
  have hopen : f (s.opened.head?.getD n) = (s.opened.map f).head?.getD (f n) := by
    cases s.opened <;> rfl
  rw [unknown, moved_fault, moved_emit, hopen]
  rfl

@[simp] theorem moved_settle (f : Nat → Nat) (s : Scan) :
    s.settle.moved f = (s.moved f).settle := by
  cases hp : s.pending with
  | nothing => rw [settle_of_nothing hp, settle_of_nothing (pending_moved_of_nothing hp)]
  | word start letters =>
    simp only [settle, hp, pending_moved_of_word hp, moved_unknown]
    rfl
  | string quote body =>
    rw [settle_of_openQuote? (by simp [openQuote?_of_string hp]),
      settle_of_openQuote? (by simp [openQuote?_of_string hp])]

@[simp] theorem moved_letter (f : Nat → Nat) (s : Scan) (c : Char) :
    (s.letter c).moved f = (s.moved f).letter c := by
  have hletters : (s.moved f).letters = s.letters := by
    cases hp : s.pending <;> simp [letters, moved, Pending.moved, hp]
  have hstart : (s.moved f).wordStart = f s.wordStart := by
    cases hp : s.pending <;> simp [wordStart, moved, Pending.moved, hp]
  by_cases hk : s.letters ++ [c] = keyword.toList
  · rw [letter_of_keyword hk, letter_of_keyword (by rwa [hletters]), moved_emit, hstart]
    rfl
  · rw [letter_of_ne_keyword hk, letter_of_ne_keyword (by rwa [hletters]), hletters, hstart]
    rfl

@[simp] theorem moved_inString (f : Nat → Nat) (s : Scan) (quote : Nat) (body : String) (c : Char) :
    (s.inString quote body c).moved f = (s.moved f).inString (f quote) body c := by
  by_cases hc : c = '"'
  · simp only [inString, if_pos hc, moved_emit]
    rfl
  · simp only [inString, if_neg hc]
    rfl

@[simp] theorem moved_openString (f : Nat → Nat) (s : Scan) :
    s.openString.moved f = (s.moved f).openString := rfl

@[simp] theorem moved_openParen (f : Nat → Nat) (s : Scan) :
    s.openParen.moved f = (s.moved f).openParen := by
  simp only [openParen, moved_emit]
  rfl

@[simp] theorem moved_closeParen (f : Nat → Nat) (s : Scan) :
    s.closeParen.moved f = (s.moved f).closeParen := by
  cases ho : s.opened with
  | nil =>
    rw [closeParen_of_nil ho, closeParen_of_nil (by simp [ho]), moved_fault, moved_emit]
    rfl
  | cons column outer =>
    rw [closeParen_of_cons ho, closeParen_of_cons (by simp [ho] : _ = f column :: outer.map f),
      moved_emit]
    rfl

theorem moved_advance (hf : f (s.column + c.utf8Size) = f s.column + c.utf8Size) :
    (s.advance c).moved f = (s.moved f).advance c := by
  simp only [moved, advance, hf]

/-! ## One character, and the end -/

theorem Reads.moved (hr : Reads depth s c t)
    (hf : f (s.column + c.utf8Size) = f s.column + c.utf8Size) :
    Reads depth (s.moved f) c (t.moved f) := by
  have hoff : s.openQuote? = none → (s.moved f).openQuote? = none := fun hq => by simp [hq]
  cases hr with
  | inString hp =>
    rw [moved_advance (by simpa using hf), moved_inString]
    exact .inString (pending_moved_of_string hp)
  | blank hq hc =>
    rw [moved_advance hf]
    exact .blank (hoff hq) hc
  | letter hq hc =>
    rw [moved_advance (by simpa using hf), moved_letter]
    exact .letter (hoff hq) hc
  | opener hq hd =>
    rw [moved_advance (by simpa using hf), moved_openParen, moved_settle]
    exact .opener (hoff hq) (by simpa using hd)
  | closer hq =>
    rw [moved_advance (by simpa using hf), moved_closeParen, moved_settle]
    exact .closer (hoff hq)
  | quote hq =>
    rw [moved_advance (by simpa using hf), moved_openString, moved_settle]
    exact .quote (hoff hq)
  | other hq hc =>
    rw [moved_advance (by simpa using hf), moved_unknown, moved_settle]
    exact .other (hoff hq) hc

theorem unclosedParen_moved (f : Nat → Nat) (s : Scan) :
    (s.moved f).unclosedParen = s.unclosedParen.map (·.moved f) := by
  cases ho : s.opened <;> simp [unclosedParen, ho, Fault.moved]

theorem terminated_moved (f : Nat → Nat) (s : Scan) :
    (s.moved f).terminated = s.terminated.moved f := by
  simp only [terminated, Findings.moved, unclosedParen_moved, lexemes_emit, List.map_append]
  simp [moved, Lexeme.moved]

def Halt.moved (f : Nat → Nat) : Halt → Halt
  | .terminated x => .terminated (x.moved f)
  | .exceeded e => .exceeded (e.moved f)

/-- What stops a scan stops it wherever it has been moved. -/
theorem step_moved_of_error {h : Halt} (he : step depth s c = .error h) :
    step depth (s.moved f) c = .error (h.moved f) := by
  obtain ⟨hq, ⟨rfl, rfl⟩ | ⟨rfl, hd, rfl⟩⟩ := step_eq_error_iff.1 he
  · refine step_eq_error_iff.2 ⟨by simp [hq], .inl ⟨rfl, ?_⟩⟩
    rw [Halt.moved, ← terminated_moved, moved_settle]
  · exact step_eq_error_iff.2 ⟨by simp [hq], .inr ⟨rfl, by simpa using hd, rfl⟩⟩

/-- From a column on behind which `f` keeps all distances, a stretch is read as before. -/
theorem run_moved (hf : ∀ n, f (s.column + n) = f s.column + n) (cs : List Char) :
    run depth (s.moved f) cs = ((run depth s cs).map (·.moved f)).mapError (·.moved f) := by
  refine run_map (P := fun s => ∀ n, f (s.column + n) = f s.column + n) ?_ ?_ hf cs
  · intro s c t hs hc
    refine ⟨hc.moved (hs _), fun n => ?_⟩
    rw [hc.column, hs, Nat.add_assoc, hs, Nat.add_assoc]
  · intro s c h hstep
    exact step_moved_of_error hstep

theorem exhausted_moved (f : Nat → Nat) (s : Scan) :
    (s.moved f).exhausted = s.exhausted.moved f := by
  have hstring : (s.moved f).unclosedString = s.unclosedString.map (·.moved f) := by
    cases hq : s.openQuote? <;> simp [unclosedString, hq, Fault.moved]
  have hend : (s.moved f).unterminated = s.unterminated.map (·.moved f) := by
    have hlast : (s.moved f).lexemes.back? = s.lexemes.back?.map (·.moved f) := by
      simp [moved]
    unfold unterminated
    rw [hlast, openQuote?_moved]
    cases s.lexemes.back? <;> cases s.openQuote? <;> rfl
  simp only [exhausted, Findings.moved, List.map_append, hstring, hend, unclosedParen_moved]
  simp [moved]

/-- From there on the findings are moved along as well. -/
theorem outcome_run_moved {cs : List Char} {x : Findings}
    (hf : ∀ n, f (s.column + n) = f s.column + n) (ho : outcome (run depth s cs) = .ok x) :
    outcome (run depth (s.moved f) cs) = .ok (x.moved f) := by
  rw [run_moved hf]
  rcases outcome_eq_ok_iff.1 ho with ⟨t, ht, rfl⟩ | hend
  · rw [ht, ← exhausted_moved, moved_settle]
    rfl
  · rw [hend]
    rfl

end Scan
end LineLexer
