import LineLexer.Scan.Run
/-!
# What one character does

`Reads` lists what a scan does with one character, stopping apart; `step_eq_ok_iff` and
`step_eq_error_iff` say that `step` does this and nothing else.
-/
namespace LineLexer
namespace Scan

variable {depth : Nat} {s s' : Scan} {c : Char} {h : Halt}

/-! ## Inside and outside strings -/

theorem openQuote?_of_nothing (h : s.pending = .nothing) : s.openQuote? = none := by
  simp [openQuote?, h]

theorem openQuote?_of_word {start : Nat} {letters : String} (h : s.pending = .word start letters) :
    s.openQuote? = none := by
  simp [openQuote?, h]

theorem openQuote?_of_string {quote : Nat} {body : String} (h : s.pending = .string quote body) :
    s.openQuote? = some quote := by
  simp [openQuote?, h]

/-! ## What each operation leaves alone -/

@[simp] theorem column_emit (s : Scan) (k : Lexeme.Kind) (t : String) (n : Nat) :
    (s.emit k t n).column = s.column := rfl

@[simp] theorem column_fault (s : Scan) (x : Fault.Cause) (n : Nat) :
    (s.fault x n).column = s.column := rfl

@[simp] theorem column_unknown (s : Scan) (t : String) (n : Nat) :
    (s.unknown t n).column = s.column := rfl

@[simp] theorem opened_unknown (s : Scan) (t : String) (n : Nat) :
    (s.unknown t n).opened = s.opened := rfl

@[simp] theorem pending_unknown (s : Scan) (t : String) (n : Nat) :
    (s.unknown t n).pending = s.pending := rfl

@[simp] theorem openQuote?_unknown (s : Scan) (t : String) (n : Nat) :
    (s.unknown t n).openQuote? = s.openQuote? := rfl

@[simp] theorem lexemes_unknown (s : Scan) (t : String) (n : Nat) :
    (s.unknown t n).lexemes.toList = s.lexemes.toList ++ [⟨.unknown, t, n⟩] := by
  simp [unknown]

@[simp] theorem faults_unknown (s : Scan) (t : String) (n : Nat) :
    (s.unknown t n).faults.toList =
      s.faults.toList ++ [⟨.unknown t, s.opened.head?.getD n⟩] := by
  simp [unknown]

@[simp] theorem column_settle (s : Scan) : s.settle.column = s.column := by
  unfold settle; split <;> rfl

@[simp] theorem opened_settle (s : Scan) : s.settle.opened = s.opened := by
  unfold settle; split <;> rfl

@[simp] theorem openQuote?_settle (s : Scan) : s.settle.openQuote? = s.openQuote? := by
  unfold settle
  split
  next hp => exact (openQuote?_of_word hp).symm
  next => rfl

@[simp] theorem openQuote?_letter (s : Scan) (c : Char) : (s.letter c).openQuote? = none := by
  unfold letter; split; split <;> rfl

@[simp] theorem column_letter (s : Scan) (c : Char) : (s.letter c).column = s.column := by
  unfold letter; split; split <;> rfl

@[simp] theorem opened_letter (s : Scan) (c : Char) : (s.letter c).opened = s.opened := by
  unfold letter; split; split <;> rfl

@[simp] theorem faults_letter (s : Scan) (c : Char) : (s.letter c).faults = s.faults := by
  unfold letter; split; split <;> rfl

@[simp] theorem column_openParen (s : Scan) : s.openParen.column = s.column := rfl

@[simp] theorem opened_openParen (s : Scan) : s.openParen.opened = s.column :: s.opened := rfl

@[simp] theorem pending_openParen (s : Scan) : s.openParen.pending = s.pending := rfl

@[simp] theorem openQuote?_openParen (s : Scan) : s.openParen.openQuote? = s.openQuote? := rfl

@[simp] theorem faults_openParen (s : Scan) : s.openParen.faults = s.faults := rfl

@[simp] theorem lexemes_openParen (s : Scan) :
    s.openParen.lexemes.toList = s.lexemes.toList ++ [⟨.opener, "(", s.column⟩] := by
  simp [openParen]

theorem closeParen_of_nil (h : s.opened = []) :
    s.closeParen = (s.emit .unknown ")" s.column).fault .strayCloser s.column := by
  simp [closeParen, h]

theorem closeParen_of_cons {column : Nat} {outer : List Nat} (h : s.opened = column :: outer) :
    s.closeParen = { s with opened := outer }.emit .closer ")" s.column := by
  simp [closeParen, h]

@[simp] theorem column_closeParen (s : Scan) : s.closeParen.column = s.column := by
  unfold closeParen; split <;> rfl

@[simp] theorem opened_closeParen (s : Scan) : s.closeParen.opened = s.opened.tail := by
  unfold closeParen; split <;> simp [*]

@[simp] theorem lexemes_closeParen (s : Scan) :
    s.closeParen.lexemes.toList =
      s.lexemes.toList ++ [⟨if s.opened = [] then .unknown else .closer, ")", s.column⟩] := by
  unfold closeParen; split <;> simp [*]

@[simp] theorem pending_closeParen (s : Scan) : s.closeParen.pending = s.pending := by
  unfold closeParen; split <;> rfl

@[simp] theorem openQuote?_closeParen (s : Scan) :
    s.closeParen.openQuote? = s.openQuote? := by
  simp [openQuote?]

@[simp] theorem column_inString (s : Scan) (q : Nat) (body : String) (c : Char) :
    (s.inString q body c).column = s.column := by
  unfold inString; split <;> rfl

@[simp] theorem opened_inString (s : Scan) (q : Nat) (body : String) (c : Char) :
    (s.inString q body c).opened = s.opened := by
  unfold inString; split <;> rfl

@[simp] theorem faults_inString (s : Scan) (q : Nat) (body : String) (c : Char) :
    (s.inString q body c).faults = s.faults := by
  unfold inString; split <;> rfl

@[simp] theorem pending_inString (s : Scan) (q : Nat) (body : String) (c : Char) :
    (s.inString q body c).pending = if c = '"' then .nothing else .string q (body.push c) := by
  unfold inString; split <;> rfl

@[simp] theorem lexemes_inString (s : Scan) (q : Nat) (body : String) (c : Char) :
    (s.inString q body c).lexemes.toList =
      s.lexemes.toList ++ if c = '"' then [⟨.literal, body, q⟩] else [] := by
  unfold inString; split <;> simp

@[simp] theorem column_openString (s : Scan) : s.openString.column = s.column := rfl

@[simp] theorem opened_openString (s : Scan) : s.openString.opened = s.opened := rfl

@[simp] theorem pending_openString (s : Scan) :
    s.openString.pending = .string s.column "" := rfl

@[simp] theorem lexemes_openString (s : Scan) : s.openString.lexemes = s.lexemes := rfl

@[simp] theorem faults_openString (s : Scan) : s.openString.faults = s.faults := rfl

@[simp] theorem column_advance (s : Scan) (c : Char) :
    (s.advance c).column = s.column + c.utf8Size := rfl

@[simp] theorem lexemes_advance (s : Scan) (c : Char) : (s.advance c).lexemes = s.lexemes := rfl

@[simp] theorem faults_advance (s : Scan) (c : Char) : (s.advance c).faults = s.faults := rfl

@[simp] theorem opened_advance (s : Scan) (c : Char) : (s.advance c).opened = s.opened := rfl

@[simp] theorem openQuote?_advance (s : Scan) (c : Char) :
    (s.advance c).openQuote? = s.openQuote? := rfl

@[simp] theorem pending_advance (s : Scan) (c : Char) : (s.advance c).pending = s.pending := rfl

/-! ## Words -/

/-- The letters of the word that a scan is in. -/
def letters (s : Scan) : List Char :=
  match s.pending with
  | .word _ letters => letters.toList
  | _ => []

/-- Where that word starts, or would start with the next character. -/
def wordStart (s : Scan) : Nat :=
  match s.pending with
  | .word start _ => start
  | _ => s.column

theorem letter_of_keyword (h : s.letters ++ [c] = keyword.toList) :
    s.letter c = { s with pending := .nothing }.emit .print keyword s.wordStart := by
  have hk : ∀ w : String, w.toList = s.letters ++ [c] → w = keyword :=
    fun w hw => String.toList_inj.1 (hw.trans h)
  unfold letter wordStart
  cases hp : s.pending with
  | word start letters => simp [hk (letters.push c) (by simp [Scan.letters, hp])]
  | nothing => simp [hk (String.singleton c) (by simp [Scan.letters, hp])]
  | string quote body => simp [hk (String.singleton c) (by simp [Scan.letters, hp])]

theorem letter_of_ne_keyword (h : s.letters ++ [c] ≠ keyword.toList) :
    s.letter c = { s with pending := .word s.wordStart (String.ofList (s.letters ++ [c])) } := by
  have hk : ∀ w : String, w.toList = s.letters ++ [c] →
      w ≠ keyword ∧ w = String.ofList (s.letters ++ [c]) := by
    intro w hw
    exact ⟨fun hk => h (by rw [← hw, hk]), by rw [← hw, String.ofList_toList]⟩
  unfold letter wordStart
  cases hp : s.pending with
  | word start letters =>
    obtain ⟨hne, heq⟩ := hk (letters.push c) (by simp [Scan.letters, hp])
    simp only [if_neg hne, ← heq]
  | nothing =>
    obtain ⟨hne, heq⟩ := hk (String.singleton c) (by simp [Scan.letters, hp])
    simp only [if_neg hne, ← heq]
  | string quote body =>
    obtain ⟨hne, heq⟩ := hk (String.singleton c) (by simp [Scan.letters, hp])
    simp only [if_neg hne, ← heq]

theorem settle_of_nothing (h : s.pending = .nothing) : s.settle = s := by
  simp [settle, h]

theorem lexemes_settle_of_word {start : Nat} {letters : String}
    (h : s.pending = .word start letters) :
    s.settle.lexemes.toList = s.lexemes.toList ++ [⟨.unknown, letters, start⟩] := by
  simp only [settle, h]
  exact lexemes_unknown _ _ _

theorem settle_of_openQuote? (hq : s.openQuote? ≠ none) : s.settle = s := by
  unfold settle
  split
  next hp => exact absurd (openQuote?_of_word hp) hq
  next => rfl

theorem pending_eq_nothing_of_settle (hq : s.openQuote? = none)
    (hf : s.settle.faults.toList = []) : s.pending = .nothing := by
  cases hp : s.pending with
  | nothing => rfl
  | word start letters => simp [settle, hp] at hf
  | string quote body => simp [openQuote?_of_string hp] at hq

/-! ## One step -/

/-- What a scan makes of the next character if it goes on. -/
inductive Reads (depth : Nat) (s : Scan) : Char → Scan → Prop
  | inString {quote : Nat} {body : String} {c : Char} : s.pending = .string quote body →
      Reads depth s c ((s.inString quote body c).advance c)
  | blank {c : Char} : s.openQuote? = none → Text.isBlank c = true → Reads depth s c (s.advance c)
  | letter {c : Char} : s.openQuote? = none → Text.isLetter c = true →
      Reads depth s c ((s.letter c).advance c)
  | opener : s.openQuote? = none → s.opened.length < depth →
      Reads depth s '(' (s.settle.openParen.advance '(')
  | closer : s.openQuote? = none → Reads depth s ')' (s.settle.closeParen.advance ')')
  | quote : s.openQuote? = none → Reads depth s '"' (s.settle.openString.advance '"')
  /-- A character without use is a lexeme of its own. -/
  | other {c : Char} : s.openQuote? = none → Text.Role.of c = .other →
      Reads depth s c ((s.settle.unknown (String.singleton c) s.column).advance c)

theorem step_string {quote : Nat} {body : String} (hp : s.pending = .string quote body) (c : Char) :
    step depth s c = .ok ((s.inString quote body c).advance c) := by
  simp [step, hp]

theorem step_outside (hq : s.openQuote? = none) (c : Char) :
    step depth s c = (outside depth s c).map (·.advance c) := by
  unfold openQuote? at hq
  unfold step
  split <;> simp_all

theorem step_of_reads (hr : Reads depth s c s') : step depth s c = .ok s' := by
  cases hr with
  | inString hp => exact step_string hp c
  | blank hq hc =>
    rw [step_outside hq, outside, Text.Role.of_eq_blank_iff.2 hc]
    rfl
  | letter hq hc =>
    rw [step_outside hq, outside, Text.Role.of_eq_letter_iff.2 hc]
    rfl
  | opener hq hd =>
    rw [step_outside hq, outside, mark, Text.Role.of_eq_opener_iff.2 rfl]
    simp [hd, Except.map]
  | closer hq =>
    rw [step_outside hq, outside, mark, Text.Role.of_eq_closer_iff.2 rfl]
    rfl
  | quote hq =>
    rw [step_outside hq, outside, mark, Text.Role.of_eq_quote_iff.2 rfl]
    rfl
  | other hq hc =>
    rw [step_outside hq, outside, mark, hc]
    simp [Except.map]

/-- Outside strings the role of a character decides: two roles can stop the scan. -/
theorem step_cases (depth : Nat) (s : Scan) (c : Char) :
    (∃ s', Reads depth s c s') ∨
    (s.openQuote? = none ∧ c = ';' ∧ step depth s c = .error (.terminated s.settle.terminated)) ∨
    (s.openQuote? = none ∧ c = '(' ∧ depth ≤ s.opened.length ∧
      step depth s c = .error (.exceeded ⟨.tooDeep depth, s.column⟩)) := by
  by_cases hq : s.openQuote? = none
  · cases hrole : Text.Role.of c with
    | blank => exact .inl ⟨_, .blank hq (Text.Role.of_eq_blank_iff.1 hrole)⟩
    | letter => exact .inl ⟨_, .letter hq (Text.Role.of_eq_letter_iff.1 hrole)⟩
    | terminator =>
      obtain rfl := Text.Role.of_eq_terminator_iff.1 hrole
      refine .inr (.inl ⟨hq, rfl, ?_⟩)
      rw [step_outside hq, outside, mark, hrole]
      rfl
    | opener =>
      obtain rfl := Text.Role.of_eq_opener_iff.1 hrole
      by_cases hd : s.opened.length < depth
      · exact .inl ⟨_, .opener hq hd⟩
      · refine .inr (.inr ⟨hq, rfl, by omega, ?_⟩)
        rw [step_outside hq, outside, mark, hrole]
        simp [hd, Except.map]
    | closer =>
      obtain rfl := Text.Role.of_eq_closer_iff.1 hrole
      exact .inl ⟨_, .closer hq⟩
    | quote =>
      obtain rfl := Text.Role.of_eq_quote_iff.1 hrole
      exact .inl ⟨_, .quote hq⟩
    | other => exact .inl ⟨_, .other hq hrole⟩
  · cases hp : s.pending with
    | string quote body => exact .inl ⟨_, .inString hp⟩
    | nothing => exact absurd (openQuote?_of_nothing hp) hq
    | word start letters => exact absurd (openQuote?_of_word hp) hq

theorem step_eq_ok_iff : step depth s c = .ok s' ↔ Reads depth s c s' := by
  constructor
  · intro hs
    rcases step_cases depth s c with ⟨t, ht⟩ | ⟨-, -, he⟩ | ⟨-, -, -, he⟩
    · have := (step_of_reads ht).symm.trans hs
      cases this
      exact ht
    · rw [he] at hs; cases hs
    · rw [he] at hs; cases hs
  · exact step_of_reads

theorem Reads.unique {t : Scan} (h : Reads depth s c s') (h' : Reads depth s c t) : s' = t := by
  simpa using (step_of_reads h).symm.trans (step_of_reads h')

theorem Reads.column (hr : Reads depth s c s') : s'.column = s.column + c.utf8Size := by
  cases hr <;> simp

/-- No scan goes on past a semicolon outside strings. -/
theorem Reads.ne_terminator (hr : Reads depth s c s') (hq : s.openQuote? = none) : c ≠ ';' := by
  rintro rfl
  cases hr with
  | inString hp => simp [openQuote?_of_string hp] at hq
  | blank _ hc => exact absurd hc (by decide)
  | letter _ hc => exact absurd hc (by decide)
  | other _ hc => exact absurd hc (by decide)

/-- No scan goes on past a parenthesis too deep. -/
theorem Reads.length_opened_lt (hr : Reads depth s '(' s') (hq : s.openQuote? = none) :
    s.opened.length < depth := by
  cases hr with
  | inString hp => simp [openQuote?_of_string hp] at hq
  | blank _ hc => exact absurd hc (by decide)
  | letter _ hc => exact absurd hc (by decide)
  | opener _ hd => exact hd
  | other _ hc => exact absurd hc (by decide)

theorem step_eq_error_iff :
    step depth s c = .error h ↔ s.openQuote? = none ∧
      (c = ';' ∧ h = .terminated s.settle.terminated ∨
        c = '(' ∧ depth ≤ s.opened.length ∧ h = .exceeded ⟨.tooDeep depth, s.column⟩) := by
  rcases step_cases depth s c with ⟨t, ht⟩ | ⟨hq, rfl, he⟩ | ⟨hq, rfl, hd, he⟩
  · have hs := step_of_reads ht
    simp only [hs, reduceCtorEq, false_iff, not_and]
    rintro hq (⟨rfl, -⟩ | ⟨rfl, hd, -⟩)
    · exact ht.ne_terminator hq rfl
    · have := ht.length_opened_lt hq
      omega
  · simp [he, hq, eq_comm]
  · simp [he, hq, hd, eq_comm]

end Scan
end LineLexer
