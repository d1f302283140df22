import LineLexer.Proofs.WellFormed
/-!
# Which faults a line has

`diagnosis` reads the faults of a line off its text and its lexemes, with the partners of the
parentheses found among the lexemes. These are the faults a scan reports, in this order and no
others (`lex_diagnostics_eq`).
-/
namespace LineLexer

variable {depth : Nat} {s t : Scan} {c : Char} {l : Lexeme} {ls : List Lexeme} {a : List Char}

/-! ## Partners -/

/-- How many parentheses a stretch closes that were opened before it. -/
def surplus : List Lexeme → Nat
  | [] => 0
  | l :: ls =>
    if l.kind = .opener then surplus ls - 1
    else if l.kind = .closer then surplus ls + 1
    else surplus ls

/-- The opening parentheses that nothing after them closes, innermost last. -/
def unmatched : List Lexeme → List Lexeme
  | [] => []
  | l :: ls => if l.kind = .opener ∧ surplus ls = 0 then l :: unmatched ls else unmatched ls

theorem surplus_concat_opener (h : l.kind = .opener) (ls : List Lexeme) :
    surplus (ls ++ [l]) = surplus ls := by
  induction ls with
  | nil => simp [surplus, h]
  | cons x ls ih => simp only [List.cons_append, surplus, ih]

theorem unmatched_concat_opener (h : l.kind = .opener) (ls : List Lexeme) :
    unmatched (ls ++ [l]) = unmatched ls ++ [l] := by
  induction ls with
  | nil => simp [unmatched, surplus, h]
  | cons x ls ih =>
    simp only [List.cons_append, unmatched, surplus_concat_opener h, ih]
    split <;> rfl

theorem surplus_concat_of_ne (ho : l.kind ≠ .opener) (hc : l.kind ≠ .closer) (ls : List Lexeme) :
    surplus (ls ++ [l]) = surplus ls := by
  induction ls with
  | nil => simp [surplus, ho, hc]
  | cons x ls ih => simp only [List.cons_append, surplus, ih]

theorem unmatched_concat_of_ne (ho : l.kind ≠ .opener) (hc : l.kind ≠ .closer)
    (ls : List Lexeme) : unmatched (ls ++ [l]) = unmatched ls := by
  induction ls with
  | nil => simp [unmatched, ho]
  | cons x ls ih => simp only [List.cons_append, unmatched, surplus_concat_of_ne ho hc, ih]

/-- A closing parenthesis takes the innermost opening one as its partner, and is a surplus if there
is none. -/
theorem concat_closer (h : l.kind = .closer) (ls : List Lexeme) :
    unmatched (ls ++ [l]) = (unmatched ls).dropLast ∧
      surplus (ls ++ [l]) = if unmatched ls = [] then surplus ls + 1 else surplus ls := by
  induction ls with
  | nil => simp [unmatched, surplus, h]
  | cons x ls ih =>
    obtain ⟨hunmatched, hsurplus⟩ := ih
    simp only [List.cons_append, unmatched, surplus, hunmatched, hsurplus]
    by_cases hx : x.kind = .opener
    · -- the partner is behind `x`, or else `x` itself if it has none yet
      by_cases hnil : unmatched ls = [] <;> by_cases hzero : surplus ls = 0 <;>
        simp [hx, hnil, hzero, List.dropLast_cons_of_ne_nil]
      omega
    · by_cases hnil : unmatched ls = [] <;> simp [hx, hnil]
      split <;> rfl

/-! ## The faults of a line -/

/-- The innermost parenthesis open after some lexemes. -/
def innermost? (ls : List Lexeme) : Option Nat := (unmatched ls).getLast?.map (·.column)

/-- The fault of a lexeme that comes after `before`. Only a text without use has one: a closing
parenthesis points at itself, any other at the innermost open parenthesis, if there is one. -/
def Lexeme.fault? (before : List Lexeme) (l : Lexeme) : Option Fault :=
  if l.kind ≠ .unknown then none
  else if l.text = ")" then some ⟨.strayCloser, l.column⟩
  else some ⟨.unknown l.text, (innermost? before).getD l.column⟩

/-- The faults of the lexemes that come after `before`, one by one. -/
def faultsAfter (before : List Lexeme) : List Lexeme → List Fault
  | [] => []
  | l :: ls => (l.fault? before).toList ++ faultsAfter (before ++ [l]) ls

theorem faultsAfter_concat (before ls : List Lexeme) (l : Lexeme) :
    faultsAfter before (ls ++ [l]) =
      faultsAfter before ls ++ (l.fault? (before ++ ls)).toList := by
  induction ls generalizing before with
  | nil => simp [faultsAfter]
  | cons x ls ih => simp [faultsAfter, ih]

/-- A line that is not blank needs a semicolon. If it has none, that is told of at its last lexeme,
or at the quote of the string that it never leaves. -/
def missingTerminator (line : List Char) (ls : List Lexeme) : List Fault :=
  if line.all Text.isBlank then []
  else if ls.getLast?.map (·.kind) = some .terminator then []
  else (ls.getLast?.map (·.column) <|> Text.unclosedQuote? line).toList.map (⟨.unterminated, ·⟩)

/-- The faults of a line with these lexemes: those of the lexemes in their order, then a string
without an end, the innermost parenthesis without one, and an expression without one. -/
def diagnosis (line : List Char) (ls : List Lexeme) : List Fault :=
  faultsAfter [] ls ++
    (Text.unclosedQuote? line).toList.map (⟨.unclosedString, ·⟩) ++
    (innermost? ls).toList.map (⟨.unclosedParen, ·⟩) ++
    missingTerminator line ls

namespace Scan

/-! ## What a scan reports -/

/-- The stack and the faults of a scan are those of its lexemes. -/
structure Diagnosed (s : Scan) : Prop where
  opened : s.opened = ((unmatched s.lexemes.toList).map (·.column)).reverse
  faults : s.faults.toList = faultsAfter [] s.lexemes.toList

theorem diagnosed_start : Diagnosed start := ⟨rfl, rfl⟩

theorem Diagnosed.innermost? (h : Diagnosed s) :
    s.opened.head? = LineLexer.innermost? s.lexemes.toList := by
  rw [h.opened, List.head?_reverse, List.getLast?_map]
  rfl

theorem Diagnosed.of_eq (h : Diagnosed s) (hl : t.lexemes = s.lexemes) (hf : t.faults = s.faults)
    (ho : t.opened = s.opened) : Diagnosed t := by
  refine ⟨?_, ?_⟩
  · rw [ho, hl, h.opened]
  · rw [hf, hl, h.faults]

/-- A lexeme that is of use and no parenthesis changes neither. -/
theorem Diagnosed.concat (h : Diagnosed s) (hl : t.lexemes.toList = s.lexemes.toList ++ [l])
    (hf : t.faults = s.faults) (ho : t.opened = s.opened) (hunknown : l.kind ≠ .unknown)
    (hopener : l.kind ≠ .opener) (hcloser : l.kind ≠ .closer) : Diagnosed t := by
  refine ⟨?_, ?_⟩
  · rw [ho, hl, unmatched_concat_of_ne hopener hcloser, h.opened]
  · rw [hf, hl, faultsAfter_concat, h.faults]
    simp [Lexeme.fault?, hunknown]

theorem Diagnosed.openParen (h : Diagnosed s) : Diagnosed s.openParen := by
  refine ⟨?_, ?_⟩
  · rw [lexemes_openParen, unmatched_concat_opener rfl, opened_openParen, h.opened]
    simp
  · rw [lexemes_openParen, faultsAfter_concat, faults_openParen, h.faults]
    simp [Lexeme.fault?]

theorem Diagnosed.closeParen (h : Diagnosed s) : Diagnosed s.closeParen := by
  cases ho : s.opened with
  | nil =>
    have hl : s.closeParen.lexemes.toList = s.lexemes.toList ++ [⟨.unknown, ")", s.column⟩] := by
      simp [ho]
    refine ⟨?_, ?_⟩
    · rw [hl, unmatched_concat_of_ne (by simp) (by simp), ← h.opened]
      simp [ho]
    · rw [hl, faultsAfter_concat, ← h.faults, closeParen_of_nil ho]
      simp [Lexeme.fault?]
  | cons column outer =>
    have hl : s.closeParen.lexemes.toList = s.lexemes.toList ++ [⟨.closer, ")", s.column⟩] := by
      simp [ho]
    refine ⟨?_, ?_⟩
    · rw [hl, (concat_closer rfl _).1, opened_closeParen, h.opened, List.tail_reverse,
        List.map_dropLast]
    · rw [hl, faultsAfter_concat, ← h.faults, closeParen_of_cons ho]
      simp [Lexeme.fault?]

/-- A text without use points at the innermost open parenthesis. -/
theorem Diagnosed.unknown {text : String} (h : Diagnosed s) (htext : text ≠ ")") (column : Nat) :
    Diagnosed (s.unknown text column) := by
  refine ⟨?_, ?_⟩
  · rw [lexemes_unknown, unmatched_concat_of_ne (by simp) (by simp), opened_unknown, h.opened]
  · rw [lexemes_unknown, faultsAfter_concat, faults_unknown, h.faults, h.innermost?]
    simp [Lexeme.fault?, htext]

theorem Diagnosed.settle (h : Diagnosed s) (hlexed : Lexed depth s) : Diagnosed s.settle := by
  unfold Scan.settle
  split
  next start letters hp =>
    have hword := hlexed.word start letters hp
    have hnothing : Diagnosed { s with pending := .nothing } := h.of_eq rfl rfl rfl
    exact hnothing.unknown hword.ne_closer start
  next => exact h

theorem Diagnosed.letter (h : Diagnosed s) (c : Char) : Diagnosed (s.letter c) := by
  by_cases hk : s.letters ++ [c] = keyword.toList
  · rw [letter_of_keyword hk]
    exact h.concat (lexemes_emit _ _ _ _) rfl rfl (by simp) (by simp) (by simp)
  · rw [letter_of_ne_keyword hk]
    exact h.of_eq rfl rfl rfl

theorem Diagnosed.inString (h : Diagnosed s) (quote : Nat) (body : String) (c : Char) :
    Diagnosed (s.inString quote body c) := by
  by_cases hc : c = '"'
  · have hl : (s.inString quote body c).lexemes.toList =
        s.lexemes.toList ++ [⟨.literal, body, quote⟩] := by simp [hc]
    exact h.concat hl (by simp) (by simp) (by simp) (by simp) (by simp)
  · have hl : (s.inString quote body c).lexemes = s.lexemes := by simp [Scan.inString, hc]
    exact h.of_eq hl (by simp) (by simp)

theorem Diagnosed.step (h : Diagnosed s) (hlexed : Lexed depth s) (hr : Reads depth s c t) :
    Diagnosed t := by
  have hsettle := h.settle hlexed
  cases hr with
  | inString hp => exact (h.inString _ _ _).of_eq rfl rfl rfl
  | blank hq hc => exact h.of_eq rfl rfl rfl
  | letter hq hc => exact (h.letter c).of_eq rfl rfl rfl
  | opener hq hd => exact hsettle.openParen.of_eq rfl rfl rfl
  | closer hq => exact hsettle.closeParen.of_eq rfl rfl rfl
  | quote hq => exact hsettle.of_eq rfl rfl rfl
  | other hq hc =>
    obtain ⟨-, -, hmarks⟩ := Text.Role.of_eq_other_iff.1 hc
    exact (hsettle.unknown (singleton_ne_closer hmarks) _).of_eq rfl rfl rfl

theorem diagnosed_of_run (hr : run depth start a = .ok s) : Diagnosed s :=
  reached_induction (P := fun _ s => Diagnosed s) diagnosed_start
    (fun hrun h hc => h.step (lexed_of_run hrun) hc) hr

/-! ## Whole lines -/

theorem unterminated_settle (hr : run depth start a = .ok s) :
    s.settle.unterminated = missingTerminator a s.settle.lexemes.toList := by
  have hrunning : s.settle.lexemes.toList.getLast?.map (·.kind) ≠ some .terminator := by
    intro hlast
    obtain ⟨l, hl, hkind⟩ := Option.map_eq_some_iff.1 hlast
    exact kind_ne_terminator_of_run hr l (List.mem_of_getLast? hl) hkind
  have hquote : s.settle.openQuote? = Text.unclosedQuote? a := by
    rw [openQuote?_settle, (tracks_of_run hr).openQuote?_eq]
  by_cases hblank : a.all Text.isBlank = true
  · rw [missingTerminator, if_pos hblank, unterminated_eq_nil_iff hr]
    exact List.all_eq_true.1 hblank
  · rw [missingTerminator, if_neg hblank, if_neg hrunning, ← hquote, Array.getLast?_toList]
    rfl

theorem faults_exhausted (hr : run depth start a = .ok s) :
    s.settle.exhausted.faults = diagnosis a s.settle.exhausted.lexemes := by
  have h := (diagnosed_of_run hr).settle (lexed_of_run hr)
  have hquote : s.settle.openQuote? = Text.unclosedQuote? a := by
    rw [openQuote?_settle, (tracks_of_run hr).openQuote?_eq]
  simp only [exhausted, diagnosis, h.faults, unclosedString, hquote, unclosedParen, h.innermost?,
    unterminated_settle hr]

/-- At the semicolon only an open parenthesis is told of. -/
theorem faults_terminated {b : List Char} (hr : run depth start a = .ok s)
    (hq : s.openQuote? = none) :
    s.settle.terminated.faults = diagnosis (a ++ ';' :: b) s.settle.terminated.lexemes := by
  have h := (diagnosed_of_run hr).settle (lexed_of_run hr)
  have hl : s.settle.terminated.lexemes =
      s.settle.lexemes.toList ++ [⟨.terminator, ";", s.settle.column⟩] := lexemes_emit _ _ _ _
  have hfaults : faultsAfter [] s.settle.terminated.lexemes = s.settle.faults.toList := by
    rw [hl, faultsAfter_concat, h.faults]
    simp [Lexeme.fault?]
  have hquote : Text.unclosedQuote? (a ++ ';' :: b) = none := by
    have hmem : ';' ∈ Text.outside (a ++ ';' :: b) :=
      Text.mem_outside_iff.2 ⟨a, b, rfl, (tracks_of_run hr).even hq⟩
    rw [Text.unclosedQuote?, if_pos (.inl hmem)]
  have hinnermost : LineLexer.innermost? s.settle.terminated.lexemes = s.settle.opened.head? := by
    rw [hl, LineLexer.innermost?, unmatched_concat_of_ne (by simp) (by simp), h.innermost?]
    rfl
  have hmissing : missingTerminator (a ++ ';' :: b) s.settle.terminated.lexemes = [] := by
    simp [missingTerminator, hl]
  rw [diagnosis, hfaults, hquote, hinnermost, hmissing, List.append_nil]
  simp [terminated, unclosedParen]

end Scan

theorem scan_faults_eq {limits : Limits} {line : String} {f : Findings}
    (hf : limits.scan line = .ok f) : f.faults = diagnosis line.toList f.lexemes := by
  obtain ⟨-, ⟨s, hs, rfl⟩ | hend⟩ := Limits.scan_eq_ok_iff.1 hf
  · exact Scan.faults_exhausted hs
  · obtain ⟨a, b, t, hline, ht, hq, rfl⟩ := Scan.run_eq_terminated_iff.1 hend
    rw [hline]
    exact Scan.faults_terminated ht hq

/-- A line without a lexeme is blank, or all it holds is a string without an end. -/
theorem exists_unclosedQuote {limits : Limits} {line : String} {f : Findings}
    (hf : limits.scan line = .ok f) (hl : f.lexemes = [])
    (hc : ∃ c ∈ line.toList, Text.isBlank c = false) :
    ∃ quote, Text.unclosedQuote? line.toList = some quote := by
  obtain ⟨-, ⟨s, hs, rfl⟩ | hend⟩ := Limits.scan_eq_ok_iff.1 hf
  · have hlexemes : s.settle.lexemes.toList = [] := hl
    have hmissing : missingTerminator line.toList [] ≠ [] := by
      rw [← hlexemes, ← Scan.unterminated_settle hs, Ne, Scan.unterminated_eq_nil_iff hs]
      simpa using hc
    rw [← Option.ne_none_iff_exists']
    intro hnone
    apply hmissing
    simp [missingTerminator, hnone]
  · obtain ⟨a, b, t, -, -, -, rfl⟩ := Scan.run_eq_terminated_iff.1 hend
    simp [Scan.terminated] at hl

/-- The diagnostics of a line are exactly these, all of them at the place of the line. Where a
semicolon is missed there is a column to tell of it. -/
theorem lex_diagnostics_eq {limits : Limits} {place : Place} {text : String} {r : Reading}
    (hr : limits.lex place text = .ok r) :
    r.diagnostics =
        (diagnosis (Text.dropEnding text).toList (r.tokens.map (·.toLexeme))).map
          (·.atPlace place) ∧
      (r.tokens = [] → (∃ c ∈ (Text.dropEnding text).toList, Text.isBlank c = false) →
        ∃ quote, Text.unclosedQuote? (Text.dropEnding text).toList = some quote) := by
  obtain ⟨f, hf, rfl⟩ := Limits.lex_eq_ok_iff.1 hr
  have hlexemes : (f.atPlace place).tokens.map (·.toLexeme) = f.lexemes := by
    simp [Findings.atPlace, Function.comp_def]
  rw [hlexemes, ← scan_faults_eq hf]
  refine ⟨rfl, fun htokens hc => exists_unclosedQuote hf ?_ hc⟩
  simpa [Findings.atPlace] using htokens

/-- A line with a fault of each kind, the second text without use within a parenthesis. -/
theorem lex_diagnostics_each :
    ∃ r, Limits.lex {} ⟨"f", 3⟩ ")ab (+\"x;" = .ok r ∧
      r.diagnostics.map (·.toFault) =
        [⟨.strayCloser, 0⟩, ⟨.unknown "ab", 1⟩, ⟨.unknown "+", 4⟩, ⟨.unclosedString, 6⟩,
          ⟨.unclosedParen, 4⟩, ⟨.unterminated, 5⟩] ∧
      r.diagnostics =
        (diagnosis (Text.dropEnding ")ab (+\"x;").toList (r.tokens.map (·.toLexeme))).map
          (·.atPlace ⟨"f", 3⟩) := by
  have hr : Limits.lex {} ⟨"f", 3⟩ ")ab (+\"x;" = .ok
      ⟨[⟨⟨.unknown, ")", 0⟩, 3⟩, ⟨⟨.unknown, "ab", 1⟩, 3⟩, ⟨⟨.opener, "(", 4⟩, 3⟩,
          ⟨⟨.unknown, "+", 5⟩, 3⟩],
        [⟨⟨.strayCloser, 0⟩, ⟨"f", 3⟩⟩, ⟨⟨.unknown "ab", 1⟩, ⟨"f", 3⟩⟩,
          ⟨⟨.unknown "+", 4⟩, ⟨"f", 3⟩⟩, ⟨⟨.unclosedString, 6⟩, ⟨"f", 3⟩⟩,
          ⟨⟨.unclosedParen, 4⟩, ⟨"f", 3⟩⟩, ⟨⟨.unterminated, 5⟩, ⟨"f", 3⟩⟩]⟩ := by decide
  exact ⟨_, hr, rfl, (lex_diagnostics_eq hr).1⟩

end LineLexer
