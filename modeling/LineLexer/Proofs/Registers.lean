import LineLexer.Proofs.Carets
/-!
# A scan in registers

The state of a scan says in one piece what the scan is in the middle of. A machine keeps it in
separate registers: the letters of a word, where the word starts, the quote of a string. Nothing
about the registers keeps a word from standing beside an open quote, and where a word started stays
behind when the word is gone. The text of a string is in none of them: it is cut out of the line
when the string ends, if there is a text between the two bytes (`Text.slice?`).

`Registers.Shows` says which state of a scan the registers show. They show it after each character
(`exists_run_of_scan`, `exists_scan_of_run`), and they come to what the line is read to (`lex?_eq`).

A scan knows no place, but the machine puts its place on everything as it goes. Side by side at two
places it does the same with each character (`relabelOutcome_step`), so what it reads a line to
differs in the place alone (`relabelled_lex?`).
-/
namespace LineLexer

open String (utf8Len)

/-- What a machine keeps from one character of a line to the next. -/
structure Registers where
  tokens : Array Token := #[]
  diagnostics : Array Diagnostic := #[]
  /-- The open parentheses, innermost last. -/
  opened : Array Token := #[]
  /-- Letters that do not spell the keyword yet. -/
  word : String := ""
  /-- Where the word starts. If there is none, this is left over. -/
  wordStart : Nat := 0
  /-- The quote that opened the string the machine is in. -/
  quote? : Option Nat := none
deriving DecidableEq, Repr

/-- Why a machine stops before the end of the line. -/
inductive Registers.Halt
  | terminated (r : Reading)
  | exceeded (o : Overrun)
  /-- A string has ended and the line has no text where the string was. -/
  | torn
deriving DecidableEq, Repr

/-- An opening parenthesis. -/
def Token.opener (line column : Nat) : Token := (⟨.opener, "(", column⟩ : Lexeme).onLine line

namespace Registers

variable {depth column : Nat} {place : Place} {line a b cs : List Char} {c : Char}
  {r r' : Registers} {s t : Scan}

/-! ## What can be recorded -/

def emit (place : Place) (r : Registers) (kind : Lexeme.Kind) (text : String) (column : Nat) :
    Registers :=
  { r with tokens := r.tokens.push ((⟨kind, text, column⟩ : Lexeme).onLine place.line) }

def fault (place : Place) (r : Registers) (cause : Fault.Cause) (column : Nat) : Registers :=
  { r with diagnostics := r.diagnostics.push ((⟨cause, column⟩ : Fault).atPlace place) }

/-- Records a fault if there is a column to tell of it. -/
def faultAt (place : Place) (r : Registers) (cause : Fault.Cause) : Option Nat → Registers
  | some column => r.fault place cause column
  | none => r

/-- Column of the innermost open parenthesis. -/
def innermost? (r : Registers) : Option Nat := r.opened.back?.map (·.column)

def unknown (place : Place) (r : Registers) (text : String) (column : Nat) : Registers :=
  (r.emit place .unknown text column).fault place (.unknown text) (r.innermost?.getD column)

/-- Gives up the word, if there is one. -/
def settle (place : Place) (r : Registers) : Registers :=
  if r.word = "" then r else { r with word := "" }.unknown place r.word r.wordStart

/-! ## What a character can do -/

/-- A letter joins the word. The first one sets where the word starts. -/
def letter (place : Place) (r : Registers) (column : Nat) (c : Char) : Registers :=
  let start := if r.word = "" then column else r.wordStart
  let word := r.word.push c
  if word = keyword then { r with word := "", wordStart := start }.emit place .print word start
  else { r with word, wordStart := start }

/-- Cuts the text of a string out of the line, between its quotes. -/
def closeString (place : Place) (line : List Char) (r : Registers) (quote column : Nat) :
    Except Halt Registers :=
  match Text.slice? line (quote + 1) column with
  | some body => .ok ({ r with quote? := none }.emit place .literal (String.ofList body) quote)
  | none => .error .torn

def openParen (depth : Nat) (place : Place) (r : Registers) (column : Nat) :
    Except Halt Registers :=
  if r.opened.size < depth then
    .ok ({ r with opened := r.opened.push (.opener place.line column) }.emit place .opener "("
      column)
  else .error (.exceeded ((⟨.tooDeep depth, column⟩ : Excess).atPlace place))

def closeParen (place : Place) (r : Registers) (column : Nat) : Registers :=
  match r.opened.back? with
  | some _ => { r with opened := r.opened.pop }.emit place .closer ")" column
  | none => (r.emit place .unknown ")" column).fault place .strayCloser column

/-- What has been found. -/
def reading (r : Registers) : Reading := ⟨r.tokens.toList, r.diagnostics.toList⟩

/-- What has been found when a semicolon ends the line. -/
def terminated (place : Place) (r : Registers) (column : Nat) : Reading :=
  ((r.emit place .terminator ";" column).faultAt place .unclosedParen r.innermost?).reading

/-- Reads one character outside strings. -/
def outside (depth : Nat) (place : Place) (r : Registers) (column : Nat) (c : Char) :
    Except Halt Registers :=
  match Text.Role.of c with
  | .blank => .ok r
  | .letter => .ok (r.letter place column c)
  | .terminator => .error (.terminated ((r.settle place).terminated place column))
  | .opener => (r.settle place).openParen depth place column
  | .closer => .ok ((r.settle place).closeParen place column)
  | .quote => .ok { r.settle place with quote? := some column }
  | .other => .ok ((r.settle place).unknown place (String.singleton c) column)

/-- Reads the character at a column of the line. -/
def step (depth : Nat) (place : Place) (line : List Char) (r : Registers) (column : Nat)
    (c : Char) : Except Halt Registers :=
  match r.quote? with
  | some quote => if c = '"' then r.closeString place line quote column else .ok r
  | none => r.outside depth place column c

/-- Reads the characters from a column of the line on, until they are used up or one stops the
machine. -/
def run (depth : Nat) (place : Place) (line : List Char) (r : Registers) (column : Nat) :
    List Char → Except Halt Registers
  | [] => .ok r
  | c :: cs =>
    match r.step depth place line column c with
    | .ok r' => r'.run depth place line (column + c.utf8Size) cs
    | .error h => .error h

/-! ## A whole line -/

/-- Where a missing semicolon is told of. -/
def missing? (r : Registers) : Option Nat :=
  match r.tokens.back?, r.quote? with
  | some t, _ => if t.kind = .terminator then none else some t.column
  | none, quote? => quote?

/-- What has been found when the line is over and no semicolon came. -/
def exhausted (place : Place) (r : Registers) : Reading :=
  let r := r.faultAt place .unclosedString r.quote?
  let r := r.faultAt place .unclosedParen r.innermost?
  (r.faultAt place .unterminated r.missing?).reading

/-- What a line is read to in registers. There is nothing if a string is torn. -/
def lex? (limits : Limits) (place : Place) (text : String) : Option (Except Overrun Reading) :=
  let line := Text.dropEnding text
  if limits.length < line.utf8ByteSize then
    some (.error
      ((⟨.tooLong line.utf8ByteSize limits.length, limits.length⟩ : Excess).atPlace place))
  else match run limits.depth place line.toList {} 0 line.toList with
    | .ok r => some (.ok ((r.settle place).exhausted place))
    | .error (.terminated r) => some (.ok r)
    | .error (.exceeded o) => some (.error o)
    | .error .torn => none

theorem reading_faultAt (r : Registers) (x : Fault.Cause) (n? : Option Nat) :
    (r.faultAt place x n?).reading =
      ⟨r.reading.tokens,
        r.reading.diagnostics ++ n?.toList.map fun n => (⟨x, n⟩ : Fault).atPlace place⟩ := by
  cases n? <;> simp [faultAt, fault, reading]

@[simp] theorem innermost?_faultAt (r : Registers) (x : Fault.Cause) (n? : Option Nat) :
    (r.faultAt place x n?).innermost? = r.innermost? := by
  cases n? <;> rfl

@[simp] theorem missing?_faultAt (r : Registers) (x : Fault.Cause) (n? : Option Nat) :
    (r.faultAt place x n?).missing? = r.missing? := by
  cases n? <;> rfl

theorem run_append (depth : Nat) (place : Place) (line : List Char) (r : Registers) (column : Nat)
    (a b : List Char) :
    r.run depth place line column (a ++ b) =
      r.run depth place line column a >>= fun r' =>
        r'.run depth place line (column + utf8Len a) b := by
  induction a generalizing r column with
  | nil => rfl
  | cons c a ih =>
    rw [List.cons_append, run, run]
    cases r.step depth place line column c with
    | error h => rfl
    | ok r' =>
      show run depth place line r' (column + c.utf8Size) (a ++ b) = _
      rw [ih, String.utf8Len_cons]
      have hcolumn : column + c.utf8Size + utf8Len a = column + (utf8Len a + c.utf8Size) := by
        omega
      rw [hcolumn]

/-! ## What the registers show -/

/-- The registers show the state of a scan of the line at `place`. -/
structure Shows (place : Place) (r : Registers) (s : Scan) : Prop where
  tokens : r.tokens = s.lexemes.map (·.onLine place.line)
  diagnostics : r.diagnostics = s.faults.map (·.atPlace place)
  opened : r.opened.toList = s.opened.reverse.map (.opener place.line)
  quote : r.quote? = s.openQuote?
  letters : r.word.toList = s.letters
  start : ∀ start letters, s.pending = .word start letters → r.wordStart = start ∧ letters ≠ ""

theorem shows_start (place : Place) : Shows place {} .start where
  tokens := by simp [Scan.start]
  diagnostics := by simp [Scan.start]
  opened := rfl
  quote := rfl
  letters := rfl
  start := by simp [Scan.start]

namespace Shows

theorem back?_opened (h : r.Shows place s) :
    r.opened.back? = s.opened.head?.map (.opener place.line) := by
  rw [← Array.getLast?_toList, h.opened, List.getLast?_map, List.getLast?_reverse]

theorem innermost?_eq (h : r.Shows place s) : r.innermost? = s.opened.head? := by
  rw [innermost?, h.back?_opened, Option.map_map]
  cases s.opened.head? <;> rfl

theorem size_opened (h : r.Shows place s) : r.opened.size = s.opened.length := by
  rw [← Array.length_toList, h.opened, List.length_map, List.length_reverse]

/-- A word in the registers is what the scan is in the middle of. -/
theorem pending_of_word (h : r.Shows place s) (hw : r.word ≠ "") :
    s.pending = .word r.wordStart r.word := by
  have hletters := h.letters
  unfold Scan.letters at hletters
  cases hp : s.pending with
  | nothing =>
    rw [hp] at hletters
    exact absurd (String.toList_inj.1 hletters) hw
  | word start letters =>
    rw [hp] at hletters
    rw [String.toList_inj.1 hletters, (h.start start letters hp).1]
  | string quote body =>
    rw [hp] at hletters
    exact absurd (String.toList_inj.1 hletters) hw

/-- Without a word in the registers the scan is in the middle of no word. -/
theorem pending_ne_word (h : r.Shows place s) (hw : r.word = "") (start : Nat)
    (letters : String) : s.pending ≠ .word start letters := by
  intro hp
  have hletters := h.letters
  simp only [Scan.letters, hp, String.toList_inj] at hletters
  exact (h.start start letters hp).2 (hletters.symm.trans hw)

/-- The next letter belongs to a word that starts here. -/
theorem wordStart_eq (h : r.Shows place s) :
    (if r.word = "" then s.column else r.wordStart) = s.wordStart := by
  by_cases hw : r.word = ""
  · rw [if_pos hw, Scan.wordStart]
    split
    next start letters hp => exact absurd hp (h.pending_ne_word hw start letters)
    next => rfl
  · rw [if_neg hw, Scan.wordStart, h.pending_of_word hw]

/-! ## Each operation -/

theorem advance (h : r.Shows place s) (c : Char) : r.Shows place (s.advance c) :=
  ⟨h.tokens, h.diagnostics, h.opened, h.quote, h.letters, h.start⟩

theorem emit (h : r.Shows place s) (k : Lexeme.Kind) (text : String) (n : Nat) :
    (r.emit place k text n).Shows place (s.emit k text n) :=
  ⟨by simp [Registers.emit, Scan.emit, h.tokens], h.diagnostics, h.opened, h.quote, h.letters,
    h.start⟩

theorem fault (h : r.Shows place s) (x : Fault.Cause) (n : Nat) :
    (r.fault place x n).Shows place (s.fault x n) :=
  ⟨h.tokens, by simp [Registers.fault, Scan.fault, h.diagnostics], h.opened, h.quote, h.letters,
    h.start⟩

theorem unknown (h : r.Shows place s) (text : String) (n : Nat) :
    (r.unknown place text n).Shows place (s.unknown text n) := by
  unfold Registers.unknown Scan.unknown
  rw [h.innermost?_eq]
  exact (h.emit _ _ _).fault _ _

/-- The word goes, and where it started stays behind. -/
theorem settle (h : r.Shows place s) : (r.settle place).Shows place s.settle := by
  by_cases hw : r.word = ""
  · rw [Registers.settle, if_pos hw, Scan.settle]
    split
    next start letters hp => exact absurd hp (h.pending_ne_word hw start letters)
    next => exact h
  · have hp := h.pending_of_word hw
    have hgone : { r with word := "" }.Shows place { s with pending := .nothing } :=
      ⟨h.tokens, h.diagnostics, h.opened, h.quote.trans (Scan.openQuote?_of_word hp), rfl, by simp⟩
    rw [Registers.settle, if_neg hw]
    simp only [Scan.settle, hp]
    exact hgone.unknown _ _

theorem letter (h : r.Shows place s) (hq : s.openQuote? = none) (c : Char) :
    (r.letter place s.column c).Shows place (s.letter c) := by
  have hquote : r.quote? = none := h.quote.trans hq
  have hpush : r.word.push c = String.ofList (s.letters ++ [c]) :=
    String.toList_inj.1 (by simp [h.letters])
  simp only [Registers.letter, h.wordStart_eq, hpush]
  by_cases hk : s.letters ++ [c] = keyword.toList
  · have hkeyword : String.ofList (s.letters ++ [c]) = keyword := by
      rw [hk, String.ofList_toList]
    have hgone : { r with word := "", wordStart := s.wordStart }.Shows place
        { s with pending := .nothing } :=
      ⟨h.tokens, h.diagnostics, h.opened, hquote, rfl, by simp⟩
    rw [if_pos hkeyword, hkeyword, Scan.letter_of_keyword hk]
    exact hgone.emit _ _ _
  · have hne : String.ofList (s.letters ++ [c]) ≠ keyword := by
      intro heq
      apply hk
      rw [← heq, String.toList_ofList]
    rw [if_neg hne, Scan.letter_of_ne_keyword hk]
    refine ⟨h.tokens, h.diagnostics, h.opened, hquote, rfl, ?_⟩
    intro start letters hp
    obtain ⟨rfl, rfl⟩ : s.wordStart = start ∧ String.ofList (s.letters ++ [c]) = letters := by
      simpa using hp
    refine ⟨rfl, ?_⟩
    simp [String.ext_iff]

theorem openParen (h : r.Shows place s) (hd : s.opened.length < depth) :
    ∃ r', r.openParen depth place s.column = .ok r' ∧ r'.Shows place s.openParen := by
  have hroom : r.opened.size < depth := by rwa [h.size_opened]
  have hpushed : { r with opened := r.opened.push (.opener place.line s.column) }.Shows place
      { s with opened := s.column :: s.opened } :=
    ⟨h.tokens, h.diagnostics, by simp [h.opened], h.quote, h.letters, h.start⟩
  exact ⟨_, if_pos hroom, hpushed.emit _ _ _⟩

theorem closeParen (h : r.Shows place s) :
    (r.closeParen place s.column).Shows place s.closeParen := by
  have hback := h.back?_opened
  cases ho : s.opened with
  | nil =>
    rw [ho] at hback
    rw [Scan.closeParen_of_nil ho, Registers.closeParen, hback]
    exact (h.emit _ _ _).fault _ _
  | cons column outer =>
    have hpopped : { r with opened := r.opened.pop }.Shows place { s with opened := outer } :=
      ⟨h.tokens, h.diagnostics, by simp [h.opened, ho], h.quote, h.letters, h.start⟩
    rw [ho] at hback
    rw [Scan.closeParen_of_cons ho, Registers.closeParen, hback]
    exact hpopped.emit _ _ _

/-- A string is opened when the word has gone. -/
theorem openString (h : r.Shows place s) (hp : s.pending = .nothing) :
    { r with quote? := some s.column }.Shows place s.openString := by
  have hletters : r.word.toList = [] := by
    rw [h.letters, Scan.letters, hp]
  exact ⟨h.tokens, h.diagnostics, h.opened, rfl, hletters, by simp⟩

theorem word_of_string {quote : Nat} {body : String} (h : r.Shows place s)
    (hp : s.pending = .string quote body) : r.word.toList = [] := by
  rw [h.letters, Scan.letters, hp]

/-- The text of the string is in the line, so the string is not torn. -/
theorem closeString {quote : Nat} {body : String} (h : r.Shows place s)
    (hr : Scan.run depth .start a = .ok s) (hp : s.pending = .string quote body)
    (hline : line = a ++ '"' :: b) :
    ∃ r', r.closeString place line quote s.column = .ok r' ∧
      r'.Shows place (s.inString quote body '"') := by
  obtain ⟨-, hslice⟩ := Scan.slice?_of_closed hr hp hline
  have hclosed : { r with quote? := none }.Shows place { s with pending := .nothing } :=
    ⟨h.tokens, h.diagnostics, h.opened, rfl, h.word_of_string hp, by simp⟩
  refine ⟨_, by rw [Registers.closeString, hslice], ?_⟩
  rw [String.ofList_toList]
  exact hclosed.emit _ _ _

/-- A character of the string leaves the registers as they are. -/
theorem inString {quote : Nat} {body : String} (h : r.Shows place s)
    (hp : s.pending = .string quote body) (hc : c ≠ '"') :
    r.Shows place (s.inString quote body c) := by
  rw [Scan.inString, if_neg hc]
  exact ⟨h.tokens, h.diagnostics, h.opened, h.quote.trans (Scan.openQuote?_of_string hp),
    h.word_of_string hp, by simp⟩

/-! ## One character -/

theorem step_eq_outside (h : r.Shows place s) (hq : s.openQuote? = none) (column : Nat)
    (c : Char) : r.step depth place line column c = r.outside depth place column c := by
  rw [Registers.step, h.quote, hq]

/-- The registers go along with a scan that goes on. -/
theorem step (h : r.Shows place s) (hr : Scan.run depth .start a = .ok s)
    (hline : line = a ++ c :: b) (hc : Scan.Reads depth s c t) :
    ∃ r', r.step depth place line s.column c = .ok r' ∧ r'.Shows place t := by
  cases hc with
  | @inString quote body _ hp =>
    rw [Registers.step, h.quote, Scan.openQuote?_of_string hp]
    by_cases hend : c = '"'
    · subst hend
      obtain ⟨r', hr', hshows⟩ := h.closeString hr hp hline
      exact ⟨r', hr', hshows.advance _⟩
    · exact ⟨r, if_neg hend, (h.inString hp hend).advance _⟩
  | blank hq hb =>
    rw [h.step_eq_outside hq, outside, Text.Role.of_eq_blank_iff.2 hb]
    exact ⟨_, rfl, h.advance _⟩
  | letter hq hl =>
    rw [h.step_eq_outside hq, outside, Text.Role.of_eq_letter_iff.2 hl]
    exact ⟨_, rfl, (h.letter hq c).advance _⟩
  | opener hq hd =>
    have hroom : s.settle.opened.length < depth := by simpa using hd
    obtain ⟨r', hr', hshows⟩ := h.settle.openParen hroom
    rw [Scan.column_settle] at hr'
    rw [h.step_eq_outside hq, outside, Text.Role.of_eq_opener_iff.2 rfl]
    exact ⟨r', hr', hshows.advance _⟩
  | closer hq =>
    have hshows := h.settle.closeParen
    rw [Scan.column_settle] at hshows
    rw [h.step_eq_outside hq, outside, Text.Role.of_eq_closer_iff.2 rfl]
    exact ⟨_, rfl, hshows.advance _⟩
  | quote hq =>
    have hshows := h.settle.openString (Scan.pending_settle hq)
    rw [Scan.column_settle] at hshows
    rw [h.step_eq_outside hq, outside, Text.Role.of_eq_quote_iff.2 rfl]
    exact ⟨_, rfl, hshows.advance _⟩
  | other hq ho =>
    rw [h.step_eq_outside hq, outside, ho]
    exact ⟨_, rfl, (h.settle.unknown _ _).advance _⟩

/-! ## The end of a line -/

theorem reading_eq (h : r.Shows place s) :
    r.reading = Findings.atPlace ⟨s.lexemes.toList, s.faults.toList⟩ place := by
  simp [reading, Findings.atPlace, h.tokens, h.diagnostics]

theorem terminated_eq (h : r.Shows place s) :
    r.terminated place s.column = s.terminated.atPlace place := by
  have hemit := (h.emit .terminator ";" s.column).reading_eq
  rw [Registers.terminated, reading_faultAt, hemit, h.innermost?_eq]
  simp [Findings.atPlace, Scan.terminated, Scan.unclosedParen, Function.comp_def]

theorem missing?_eq (h : r.Shows place s)
    (hrunning : ∀ l ∈ s.lexemes.toList, l.kind ≠ .terminator) :
    r.missing? = ((s.lexemes.back?.map (·.column)) <|> s.openQuote?) := by
  have hback : r.tokens.back? = s.lexemes.back?.map (·.onLine place.line) := by
    rw [h.tokens, ← Array.getLast?_toList, Array.toList_map, List.getLast?_map,
      Array.getLast?_toList]
  rw [missing?, hback, h.quote]
  cases hl : s.lexemes.back? with
  | none => rfl
  | some l =>
    have hkind := hrunning l (List.mem_of_getLast? (by rw [Array.getLast?_toList, hl]))
    simp [hkind]

theorem exhausted_eq (h : r.Shows place s)
    (hrunning : ∀ l ∈ s.lexemes.toList, l.kind ≠ .terminator) :
    r.exhausted place = s.exhausted.atPlace place := by
  simp only [Registers.exhausted, reading_faultAt, innermost?_faultAt, missing?_faultAt,
    h.reading_eq, h.quote, h.innermost?_eq, h.missing?_eq hrunning]
  simp [Findings.atPlace, Scan.exhausted, Scan.unclosedString, Scan.unclosedParen,
    Scan.unterminated, Function.comp_def]

end Shows

/-- What stops a scan, at the place of the line. -/
def Halt.ofScan (place : Place) : Scan.Halt → Halt
  | .terminated f => .terminated (f.atPlace place)
  | .exceeded e => .exceeded (e.atPlace place)

theorem Shows.step_of_error {x : Scan.Halt} (h : r.Shows place s)
    (he : Scan.step depth s c = .error x) :
    r.step depth place line s.column c = .error (.ofScan place x) := by
  obtain ⟨hq, ⟨rfl, rfl⟩ | ⟨rfl, hd, rfl⟩⟩ := Scan.step_eq_error_iff.1 he
  · rw [h.step_eq_outside hq, outside, Text.Role.of_eq_terminator_iff.2 rfl]
    have hend := h.settle.terminated_eq
    rw [Scan.column_settle] at hend
    simp only [hend, Halt.ofScan]
  · rw [h.step_eq_outside hq, outside, Text.Role.of_eq_opener_iff.2 rfl]
    have hfull : ¬ (r.settle place).opened.size < depth := by
      rw [h.settle.size_opened, Scan.opened_settle]
      omega
    simp only [Registers.openParen, if_neg hfull, Halt.ofScan]

/-! ## A stretch of a line -/

/-- What follows is read from the column on that a scan has come to. -/
theorem run_append_of_scan (hr : run depth place line {} 0 a = .ok r)
    (hs : Scan.run depth .start a = .ok s) (b : List Char) :
    run depth place line {} 0 (a ++ b) = r.run depth place line s.column b := by
  have hcolumn : s.column = 0 + utf8Len a := by
    rw [(Scan.tracks_of_run hs).column, Nat.zero_add]
  rw [run_append, hr, hcolumn]
  rfl

/-- As far as a scan gets the registers get, and they show its state. -/
theorem exists_run_of_scan (place : Place) (hr : Scan.run depth .start a = .ok s)
    (hline : line = a ++ b) : ∃ r, run depth place line {} 0 a = .ok r ∧ r.Shows place s := by
  -- a string is cut out of the whole line, so what follows `a` has to stay in the induction
  refine Scan.reached_induction
    (P := fun a s => ∀ b, line = a ++ b → ∃ r, run depth place line {} 0 a = .ok r ∧
      r.Shows place s) ?_ ?_ hr b hline
  · intro b _
    exact ⟨{}, rfl, shows_start place⟩
  · intro a s c t hs ih hc b hline
    have hline : line = a ++ c :: b := by simpa using hline
    obtain ⟨r, hrun, hshows⟩ := ih (c :: b) hline
    obtain ⟨r', hstep, hshows'⟩ := hshows.step hs hline hc
    refine ⟨r', ?_, hshows'⟩
    rw [run_append_of_scan hrun hs, run, hstep]
    rfl

/-- Where a scan stops the registers stop, and for the same reason. -/
theorem run_of_scan_error {x : Scan.Halt} (he : Scan.run depth .start a = .error x)
    (hline : line = a ++ b) : run depth place line {} 0 a = .error (.ofScan place x) := by
  obtain ⟨front, c, rest, s, rfl, hs, hc⟩ := Scan.run_eq_error_iff.1 he
  obtain ⟨r, hrun, hshows⟩ := exists_run_of_scan place hs (hline.trans (List.append_assoc _ _ _))
  rw [run_append_of_scan hrun hs, run, hshows.step_of_error hc]

/-- The registers get no further than a scan. -/
theorem exists_scan_of_run (hr : run depth place line {} 0 a = .ok r) (hline : line = a ++ b) :
    ∃ s, Scan.run depth .start a = .ok s ∧ r.Shows place s := by
  cases hs : Scan.run depth .start a with
  | ok s =>
    obtain ⟨r', hr', hshows⟩ := exists_run_of_scan place hs hline
    obtain rfl : r = r' := by simpa [hr] using hr'
    exact ⟨s, rfl, hshows⟩
  | error x =>
    rw [run_of_scan_error hs hline] at hr
    cases hr

/-- In registers a line is read to what it is read to at all. No string is torn. -/
theorem lex?_eq (limits : Limits) (place : Place) (text : String) :
    lex? limits place text = some (limits.lex place text) := by
  have hline : (Text.dropEnding text).toList = (Text.dropEnding text).toList ++ [] := by simp
  unfold lex? Limits.lex
  by_cases hlong : limits.length < (Text.dropEnding text).utf8ByteSize
  · rw [if_pos hlong, Limits.scan, if_pos hlong]
  · rw [if_neg hlong, Limits.scan_of_le (by omega)]
    cases hs : Scan.run limits.depth .start (Text.dropEnding text).toList with
    | ok s =>
      obtain ⟨r, hr, hshows⟩ := exists_run_of_scan place hs hline
      rw [hr]
      simp only [hshows.settle.exhausted_eq (Scan.kind_ne_terminator_of_run hs), Scan.outcome]
    | error x =>
      rw [run_of_scan_error hs hline]
      cases x <;> rfl

end Registers

/-! ## Two places -/

/-- What has been found, without the labels. -/
def Reading.findings (r : Reading) : Findings :=
  ⟨r.tokens.map (·.toLexeme), r.diagnostics.map (·.toFault)⟩

/-- The reading with the labels of another place. -/
def Reading.relabel (q : Place) (r : Reading) : Reading := r.findings.atPlace q

def Overrun.relabel (q : Place) (o : Overrun) : Overrun := o.toExcess.atPlace q

namespace Registers

variable {depth : Nat} {line : List Char}

/-- The registers with the labels of another place. -/
def relabel (q : Place) (r : Registers) : Registers :=
  { r with
    tokens := r.tokens.map (·.toLexeme.onLine q.line)
    diagnostics := r.diagnostics.map (·.toFault.atPlace q)
    opened := r.opened.map (·.toLexeme.onLine q.line) }

def Halt.relabel (q : Place) : Halt → Halt
  | .terminated r => .terminated (r.relabel q)
  | .exceeded o => .exceeded (o.relabel q)
  | .torn => .torn

/-- How far the machine has got, with the labels of another place. -/
def relabelOutcome (q : Place) (x : Except Halt Registers) : Except Halt Registers :=
  (x.map (relabel q)).mapError (Halt.relabel q)

theorem relabel_emit (p q : Place) (r : Registers) (k : Lexeme.Kind) (text : String) (n : Nat) :
    (r.emit p k text n).relabel q = (r.relabel q).emit q k text n := by
  simp [relabel, emit]

theorem relabel_fault (p q : Place) (r : Registers) (x : Fault.Cause) (n : Nat) :
    (r.fault p x n).relabel q = (r.relabel q).fault q x n := by
  simp [relabel, fault]

theorem relabel_faultAt (p q : Place) (r : Registers) (x : Fault.Cause) (n? : Option Nat) :
    (r.faultAt p x n?).relabel q = (r.relabel q).faultAt q x n? := by
  cases n? with
  | none => rfl
  | some n => exact relabel_fault p q r x n

theorem innermost?_relabel (q : Place) (r : Registers) :
    (r.relabel q).innermost? = r.innermost? := by
  simp [innermost?, relabel, Function.comp_def]

theorem missing?_relabel (q : Place) (r : Registers) : (r.relabel q).missing? = r.missing? := by
  have hback : (r.relabel q).tokens.back? = r.tokens.back?.map (·.toLexeme.onLine q.line) := by
    simp [relabel]
  rw [missing?, hback, missing?]
  cases r.tokens.back? <;> rfl

theorem relabel_reading (q : Place) (r : Registers) :
    r.reading.relabel q = (r.relabel q).reading := by
  simp [reading, relabel, Reading.relabel, Reading.findings, Findings.atPlace, Function.comp_def]

theorem relabel_unknown (p q : Place) (r : Registers) (text : String) (n : Nat) :
    (r.unknown p text n).relabel q = (r.relabel q).unknown q text n := by
  rw [unknown, relabel_fault, relabel_emit, unknown, innermost?_relabel]

theorem relabel_settle (p q : Place) (r : Registers) :
    (r.settle p).relabel q = (r.relabel q).settle q := by
  rw [settle, apply_ite (relabel q), relabel_unknown]
  rfl

theorem relabel_letter (p q : Place) (r : Registers) (n : Nat) (c : Char) :
    (r.letter p n c).relabel q = (r.relabel q).letter q n c := by
  simp only [letter, apply_ite (relabel q), relabel_emit]
  rfl

theorem relabelOutcome_closeString (p q : Place) (r : Registers) (quote n : Nat) :
    relabelOutcome q (r.closeString p line quote n) = (r.relabel q).closeString q line quote n := by
  unfold closeString
  cases Text.slice? line (quote + 1) n with
  | none => rfl
  | some body => exact congrArg Except.ok (relabel_emit p q { r with quote? := none } _ _ _)

theorem relabelOutcome_openParen (p q : Place) (r : Registers) (n : Nat) :
    relabelOutcome q (r.openParen depth p n) = (r.relabel q).openParen depth q n := by
  have hsize : (r.relabel q).opened.size = r.opened.size := Array.size_map
  have hpush : { r with opened := r.opened.push (.opener p.line n) }.relabel q =
      { r.relabel q with opened := (r.relabel q).opened.push (.opener q.line n) } := by
    simp [relabel, Token.opener]
  rw [openParen, openParen, hsize, ← hpush, ← relabel_emit p, apply_ite (relabelOutcome q)]
  rfl

theorem relabel_closeParen (p q : Place) (r : Registers) (n : Nat) :
    (r.closeParen p n).relabel q = (r.relabel q).closeParen q n := by
  have hback : (r.relabel q).opened.back? = r.opened.back?.map (·.toLexeme.onLine q.line) := by
    simp [relabel]
  have hpop : { r with opened := r.opened.pop }.relabel q =
      { r.relabel q with opened := (r.relabel q).opened.pop } := by
    simp [relabel]
  rw [closeParen, closeParen, hback]
  cases r.opened.back? with
  | none => rw [relabel_fault, relabel_emit]; rfl
  | some t => rw [relabel_emit, hpop]; rfl

theorem relabel_terminated (p q : Place) (r : Registers) (n : Nat) :
    (r.terminated p n).relabel q = (r.relabel q).terminated q n := by
  rw [terminated, relabel_reading, relabel_faultAt, relabel_emit, terminated, innermost?_relabel]

theorem relabel_exhausted (p q : Place) (r : Registers) :
    (r.exhausted p).relabel q = (r.relabel q).exhausted q := by
  simp only [exhausted, relabel_reading, relabel_faultAt, innermost?_faultAt, missing?_faultAt,
    innermost?_relabel, missing?_relabel]
  rfl

theorem relabelOutcome_outside (p q : Place) (r : Registers) (n : Nat) (c : Char) :
    relabelOutcome q (r.outside depth p n c) = (r.relabel q).outside depth q n c := by
  unfold outside
  rw [← relabel_settle p]
  cases Text.Role.of c with
  | blank => rfl
  | letter => exact congrArg Except.ok (relabel_letter p q r n c)
  | terminator =>
    rw [← relabel_terminated p]
    rfl
  | opener => exact relabelOutcome_openParen p q _ n
  | closer => exact congrArg Except.ok (relabel_closeParen p q _ n)
  | quote => rfl
  | other => exact congrArg Except.ok (relabel_unknown p q _ _ n)

/-- A character does the same at both places. -/
theorem relabelOutcome_step (p q : Place) (r : Registers) (n : Nat) (c : Char) :
    relabelOutcome q (r.step depth p line n c) = (r.relabel q).step depth q line n c := by
  have hquote : (r.relabel q).quote? = r.quote? := rfl
  rw [step, step, hquote]
  cases r.quote? with
  | none => exact relabelOutcome_outside p q r n c
  | some quote =>
    simp only [apply_ite (relabelOutcome q), relabelOutcome_closeString]
    rfl

/-- So does a stretch of the line. -/
theorem relabelOutcome_run (p q : Place) (r : Registers) (n : Nat) (cs : List Char) :
    relabelOutcome q (r.run depth p line n cs) = (r.relabel q).run depth q line n cs := by
  induction cs generalizing r n with
  | nil => rfl
  | cons c cs ih =>
    rw [run, run, ← relabelOutcome_step p]
    cases r.step depth p line n c with
    | error h => rfl
    | ok r' => exact ih r' (n + c.utf8Size)

theorem relabel_empty (q : Place) : relabel q {} = {} := by
  simp [relabel]

/-- In registers a line is read at `q` as it is at `p`, with the labels of `q`. -/
theorem lex?_relabel (limits : Limits) (p q : Place) (text : String) :
    lex? limits q text = (lex? limits p text).map fun x =>
      (x.map (Reading.relabel q)).mapError (Overrun.relabel q) := by
  let line := (Text.dropEnding text).toList
  have hrun : run limits.depth q line {} 0 line =
      relabelOutcome q (run limits.depth p line {} 0 line) := by
    rw [relabelOutcome_run, relabel_empty]
  unfold lex?
  by_cases hlong : limits.length < (Text.dropEnding text).utf8ByteSize
  · rw [if_pos hlong, if_pos hlong]
    rfl
  · rw [if_neg hlong, if_neg hlong, hrun]
    cases run limits.depth p line {} 0 line with
    | ok r =>
      have hend : ((r.relabel q).settle q).exhausted q = ((r.settle p).exhausted p).relabel q := by
        rw [relabel_exhausted, relabel_settle]
      exact congrArg (some ∘ Except.ok) hend
    | error h => cases h <;> rfl

/-- Labels that are put on while a line is read are labels and no more: at another place the same is
found, or nothing there either. -/
theorem relabelled_lex? (limits : Limits) (p q : Place) (text : String) :
    Option.Rel (Relabelled p q) (lex? limits p text) (lex? limits q text) := by
  -- read at `p` twice, a line has the labels of `p` alone
  have hp := lex?_relabel limits p p text
  rw [lex?_relabel limits p q]
  cases hx : lex? limits p text with
  | none => exact .none
  | some x =>
    rw [hx, Option.map_some, Option.some.injEq] at hp
    refine .some ?_
    cases x with
    | ok r =>
      have hr : r = r.findings.atPlace p := Except.ok.inj hp
      have h := Relabelled.ok (p := p) (q := q) r.findings
      rwa [← hr] at h
    | error o =>
      have ho : o = o.toExcess.atPlace p := Except.error.inj hp
      have h := Relabelled.error (p := p) (q := q) o.toExcess
      rwa [← ho] at h

end Registers
end LineLexer
