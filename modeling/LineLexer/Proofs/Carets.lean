import LineLexer.Proofs.Excess
import LineLexer.Proofs.Lines
import LineLexer.Proofs.Pins
import LineLexer.Proofs.Script
import LineLexer.Proofs.Slices
/-!
# What is found can be shown

Columns come from the line and not from the limits: they are positions of characters in it, whatever
is allowed (`carets_on_characters`). So for a text that does not fill half of all counts, no printed
column is beyond the last count, the text between two quotes can be cut out of the line, and a
script never runs out of line numbers.
-/
namespace LineLexer

open String (utf8Len)

variable {depth n : Nat} {limits : Limits} {text file : String} {place : Place} {s : Scan}
  {line a b : List Char} {lines : List String} {f : Findings}

theorem Text.lt_utf8Len_of_charAt? {c : Char} {p : Nat} (h : Text.charAt? line p = some c) :
    p < utf8Len line := by
  obtain ⟨a, b, rfl, rfl⟩ := Text.charAt?_eq_some_iff.1 h
  have := c.utf8Size_pos
  rw [String.utf8Len_append, String.utf8Len_cons]
  omega

/-! ## Strings -/

/-- When a string ends, its text is what stands in the line between the quotes. -/
theorem Scan.slice?_of_closed {quote : Nat} {body : String}
    (hr : Scan.run depth .start a = .ok s) (hp : s.pending = .string quote body)
    (hline : line = a ++ '"' :: b) :
    quote + 1 ≤ s.column ∧ Text.slice? line (quote + 1) s.column = some body.toList := by
  have htracks := Scan.tracks_of_run hr
  obtain ⟨before, ha, hquote, -, -⟩ := htracks.string quote body hp
  have hsize : '"'.utf8Size = 1 := rfl
  have hcolumn : s.column = quote + 1 + utf8Len body.toList := by
    rw [htracks.column, ha, hquote, String.utf8Len_append, String.utf8Len_cons, hsize]
    omega
  refine ⟨by omega, Text.slice?_eq_some_iff.2 ⟨before ++ ['"'], '"' :: b, ?_, ?_, hcolumn.symm⟩⟩
  · simp [hline, ha]
  · simp [hquote, hsize]

/-! ## Columns -/

/-- A lexeme starts with a character that is seen. -/
theorem exists_charAt?_of_mem_lexemes {l : Lexeme} (hf : limits.scan text = .ok f)
    (hl : l ∈ f.lexemes) :
    ∃ c, Text.charAt? text.toList l.column = some c ∧ Text.isBlank c = false := by
  obtain ⟨ps, b, rest, hline, hlexemes, htiles⟩ := exists_tiles_of_scan hf
  rw [hlexemes] at hl
  obtain ⟨p, hp, rfl⟩ := List.mem_map.1 hl
  obtain ⟨y, z, rfl, hcolumn, -, hcovers⟩ := htiles.exists_of_mem hp
  obtain ⟨c, hc, hblank⟩ := hcovers.head
  obtain ⟨x, hx⟩ := List.head?_eq_some_iff.1 hc
  refine ⟨c, Text.charAt?_eq_some_iff.2 ⟨y, x ++ z ++ rest, ?_, hcolumn.symm⟩, hblank⟩
  simp [hline, hx]

/-- So does what a fault points at, be it a lexeme or the quote of a string without an end. -/
theorem exists_charAt?_of_mem_faults {x : Fault} (hf : limits.scan text = .ok f)
    (hx : x ∈ f.faults) :
    (∃ c, Text.charAt? text.toList x.column = some c ∧ Text.isBlank c = false) ∧
      ((∃ l ∈ f.lexemes, l.column = x.column) ∨
        Text.unclosedQuote? text.toList = some x.column) := by
  rw [scan_faults_eq hf] at hx
  have hpoints := (mem_diagnosis hx).1
  refine ⟨?_, hpoints⟩
  rcases hpoints with ⟨l, hl, hcolumn⟩ | hquote
  · rw [← hcolumn]
    exact exists_charAt?_of_mem_lexemes hf hl
  · obtain ⟨a, b, hline, hcolumn⟩ := exists_of_unclosedQuote? hquote
    exact ⟨'"', Text.charAt?_eq_some_iff.2 ⟨a, b, hline, hcolumn⟩, rfl⟩

/-- A line is given up within the line: at the limit it is longer than, or at a parenthesis. -/
theorem column_lt_of_scan_error {e : Excess} (he : limits.scan text = .error e) :
    e.column < text.utf8ByteSize := by
  rcases scan_error_iff.1 he with ⟨hlong, rfl⟩ | ⟨-, p, rfl, hp, -⟩
  · exact hlong
  · obtain ⟨a, b, hline, hcolumn, -⟩ := hp
    rw [← String.utf8Len_toList]
    exact Text.lt_utf8Len_of_charAt? (Text.charAt?_eq_some_iff.2 ⟨a, b, hline, hcolumn⟩)

/-- No column within a text of this size is the last count. -/
theorem lt_last_of_lt_size {column : Nat} (hsize : text.utf8ByteSize < 2 ^ 63)
    (h : column < (Text.dropEnding text).utf8ByteSize) : column < Count.last :=
  calc
    column < (Text.dropEnding text).utf8ByteSize := h
    _ ≤ text.utf8ByteSize := Text.utf8ByteSize_dropEnding_le text
    _ < 2 ^ 63 := hsize
    _ ≤ Count.last := by decide

/-! ## Line numbers -/

/-- Reads lines from `place` down, while line numbers last. After each line that is read there has
to be a place below. -/
def Limits.lexDown? (limits : Limits) (place : Place) :
    List String → Option (Except Overrun (List ScriptLine))
  | [] => some (.ok [])
  | line :: rest =>
    match limits.lex place line with
    | .error o => some (.error o)
    | .ok r =>
      match place.next? with
      | none => none
      | some below => (limits.lexDown? below rest).map (·.map (⟨place.line, line, r⟩ :: ·))

/-- As long as they last the line numbers are no part of the outcome. -/
theorem lexDown?_eq (h : n + lines.length < UInt64.size) :
    limits.lexDown? ⟨file, n⟩ lines = some (limits.lexLines file n lines) := by
  induction lines generalizing n with
  | nil => rfl
  | cons line rest ih =>
    obtain ⟨hnext, hlast⟩ := next?_of_length_lt file h
    rw [Limits.lexDown?, lexLines_cons, hnext]
    cases limits.lex ⟨file, n⟩ line with
    | error o => rfl
    | ok r => simp only [ih hlast, Option.map_some]

/-- There are no more lines than bytes, but for the one that may follow the last newline. -/
theorem length_lines_le (script : String) :
    (Text.lines script).length ≤ script.utf8ByteSize + 1 := by
  have hcount : script.toList.count '\n' ≤ utf8Len script.toList := by
    generalize script.toList = cs
    induction cs with
    | nil => simp
    | cons c cs ih =>
      have hpos := c.utf8Size_pos
      rw [List.count_cons, String.utf8Len_cons]
      split <;> omega
  rw [String.utf8Len_toList] at hcount
  rw [Text.lines, List.length_map, Text.length_pieces]
  split <;> omega

/-! ## All that is found -/

/-- Within a text that does not fill half of all counts, whatever the limits: the text of a string
can be cut out of the line between its quotes; each diagnostic points at a character of the line
that the report shows, and no blank; a line that is given up is so at one of its bytes; hence all of
these can be shown, and a script read to its end as far as line numbers go. -/
theorem carets_on_characters {text : String} (hsize : text.utf8ByteSize < 2 ^ 63)
    (limits : Limits) :
    let line := Text.dropEnding text
    (∀ a b s quote body, line.toList = a ++ '"' :: b →
      Scan.run limits.depth .start a = .ok s → s.pending = .string quote body →
      quote + 1 ≤ s.column ∧
      Text.slice? line.toList (quote + 1) s.column = some body.toList ∧
      ∃ t, Scan.step limits.depth s '"' = .ok t ∧
        t.lexemes.toList = s.lexemes.toList ++ [⟨.literal, body, quote⟩]) ∧
    (∀ place r, limits.lex place text = .ok r →
      (∀ d ∈ r.diagnostics,
        (∃ c, Text.charAt? line.toList d.column = some c ∧ Text.isBlank c = false) ∧
        ((∃ t ∈ r.tokens, t.column = d.column) ∨
          Text.unclosedQuote? line.toList = some d.column) ∧
        d.display? = some d.display ∧
        d.render? text =
          some (Report.row line ++ Report.row (Report.caret d.column) ++ Report.row d.display)) ∧
      ∀ ds, ds.Sublist r.diagnostics → Report.render? ds text = some (Report.render ds text)) ∧
    (∀ place o, limits.lex place text = .error o →
      o.column < line.utf8ByteSize ∧ o.display? = some o.display) ∧
    ∀ file, limits.lexDown? (.top file) (Text.lines text) = some (limits.lexScript file text) := by
  intro line
  refine ⟨?_, ?_, ?_, ?_⟩
  · intro a b s quote body hline hr hp
    obtain ⟨hle, hslice⟩ := Scan.slice?_of_closed hr hp hline
    exact ⟨hle, hslice, _, Scan.step_string hp '"', by simp⟩
  · intro place r hr
    obtain ⟨f, hf, rfl⟩ := Limits.lex_eq_ok_iff.1 hr
    have hlast : ∀ d ∈ (f.atPlace place).diagnostics, d.column < Count.last := by
      intro d hd
      obtain ⟨x, hx, rfl⟩ := List.mem_map.1 hd
      exact lt_last_of_lt_size hsize (column_lt_of_mem_faults hf hx)
    refine ⟨?_, fun ds hds => Report.render?_of_lt (fun d hd => hlast d (hds.subset hd)) text⟩
    intro d hd
    refine ⟨?_, ?_, Diagnostic.display?_of_lt (hlast d hd),
      Diagnostic.render?_of_lt (hlast d hd) text⟩
    · obtain ⟨x, hx, rfl⟩ := List.mem_map.1 hd
      exact (exists_charAt?_of_mem_faults hf hx).1
    · obtain ⟨x, hx, rfl⟩ := List.mem_map.1 hd
      refine (exists_charAt?_of_mem_faults hf hx).2.imp_left ?_
      rintro ⟨l, hl, hcolumn⟩
      exact ⟨l.onLine place.line, List.mem_map_of_mem hl, hcolumn⟩
  · intro place o ho
    obtain ⟨e, he, rfl⟩ := Limits.lex_eq_error_iff.1 ho
    have hlt := column_lt_of_scan_error he
    exact ⟨hlt, Overrun.display?_of_lt (lt_last_of_lt_size hsize hlt)⟩
  · intro file
    refine lexDown?_eq ?_
    have hlength := length_lines_le text
    have hcounts : 2 ^ 63 + 2 ≤ UInt64.size := by decide
    omega

/-- With the greatest limits and on the last line there can be: a string with a character of two
bytes, and faults of three kinds. With no depth to be had the line is given up at its first byte. -/
theorem carets_on_characters_last :
    "(\"é\" + \"x\r\n".utf8ByteSize < 2 ^ 63 ∧
      (∃ s, Scan.run Count.last .start "(\"é".toList = .ok s ∧ s.pending = .string 1 "é" ∧
        Text.slice? "(\"é\" + \"x".toList 2 s.column = some ['é']) ∧
      (∃ r, Limits.lex ⟨Count.last, Count.last⟩ ⟨"f", Count.last⟩ "(\"é\" + \"x\r\n" = .ok r ∧
        r.diagnostics.map (·.toFault) = [⟨.unknown "+", 0⟩, ⟨.unclosedString, 8⟩,
          ⟨.unclosedParen, 0⟩, ⟨.unterminated, 6⟩] ∧
        ∀ d ∈ r.diagnostics, d.display? = some d.display) ∧
      (∃ o, Limits.lex ⟨0, Count.last⟩ ⟨"f", Count.last⟩ "(\"é\" + \"x\r\n" = .error o ∧
        o.column < 10 ∧ o.display? = some o.display) ∧
      Limits.lexDown? ⟨0, Count.last⟩ (.top "f") (Text.lines "(\"é\" + \"x\r\n") =
        some (Limits.lexScript ⟨0, Count.last⟩ "f" "(\"é\" + \"x\r\n") := by
  have hsize : "(\"é\" + \"x\r\n".utf8ByteSize < 2 ^ 63 := by decide
  have hline : Text.dropEnding "(\"é\" + \"x\r\n" = "(\"é\" + \"x" := by decide
  have hs : Scan.run Count.last .start "(\"é".toList =
      .ok ⟨4, #[⟨.opener, "(", 0⟩], #[], [0], .string 1 "é"⟩ := by decide
  have hr : Limits.lex ⟨Count.last, Count.last⟩ ⟨"f", Count.last⟩ "(\"é\" + \"x\r\n" = .ok
      ⟨[⟨⟨.opener, "(", 0⟩, Count.last⟩, ⟨⟨.literal, "é", 1⟩, Count.last⟩,
          ⟨⟨.unknown, "+", 6⟩, Count.last⟩],
        [⟨⟨.unknown "+", 0⟩, ⟨"f", Count.last⟩⟩, ⟨⟨.unclosedString, 8⟩, ⟨"f", Count.last⟩⟩,
          ⟨⟨.unclosedParen, 0⟩, ⟨"f", Count.last⟩⟩, ⟨⟨.unterminated, 6⟩, ⟨"f", Count.last⟩⟩]⟩ := by
    decide
  have ho : Limits.lex ⟨0, Count.last⟩ ⟨"f", Count.last⟩ "(\"é\" + \"x\r\n" =
      .error ⟨⟨.tooDeep 0, 0⟩, ⟨"f", Count.last⟩⟩ := by decide
  obtain ⟨hclosed, hread, -⟩ := carets_on_characters hsize ⟨Count.last, Count.last⟩
  obtain ⟨-, -, hgiven, hscript⟩ := carets_on_characters hsize ⟨0, Count.last⟩
  obtain ⟨hlt, hdisplay⟩ := hgiven _ _ ho
  obtain ⟨-, hslice, -⟩ := hclosed "(\"é".toList " + \"x".toList _ 1 "é" (by decide) hs rfl
  rw [hline] at hslice
  exact ⟨hsize, ⟨_, hs, rfl, hslice⟩, ⟨_, hr, rfl, fun d hd => ((hread _ _ hr).1 d hd).2.2.1⟩,
    ⟨_, ho, by decide, hdisplay⟩, hscript "f"⟩

end LineLexer
