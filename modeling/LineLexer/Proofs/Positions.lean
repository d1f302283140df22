import LineLexer.Proofs.Balance
import LineLexer.Proofs.Slices
import LineLexer.Proofs.Tiling
/-!
# Where tokens stand

A token is read from a stretch of its line that starts at its column. Between the quotes of a string
stands its text, byte for byte; any other stretch is the text with blanks in between. The stretches
do not overlap and stand in the order of the tokens, so there are no more tokens, and no longer
texts, than the line has bytes (`lex_positions_exact`).
-/
namespace LineLexer

open String (utf8Len)

variable {ps : List (Lexeme × List Char)} {line b rest : List Char} {l : Lexeme}

/-- A stretch is the part of the line from the column of its lexeme on. -/
theorem Tiles.slice? {p : Lexeme × List Char} (h : Tiles [] ps b) (hline : line = b ++ rest)
    (hp : p ∈ ps) :
    Text.slice? line p.1.column (p.1.column + utf8Len p.2) = some p.2 ∧ p.1.Covers p.2 := by
  obtain ⟨y, z, rfl, hcolumn, -, hcovers⟩ := h.exists_of_mem hp
  refine ⟨Text.slice?_eq_some_iff.2 ⟨y, z ++ rest, ?_, hcolumn.symm, rfl⟩, hcovers⟩
  simp [hline]

/-- A string stands between two quotes. -/
theorem Lexeme.Covers.quotes {x : List Char} {column : Nat} (h : l.Covers x)
    (hl : l.kind = .literal) (hx : Text.slice? line column (column + utf8Len x) = some x) :
    Text.charAt? line column = some '"' ∧
      Text.slice? line (column + 1) (column + 1 + l.text.utf8ByteSize) = some l.text.toList ∧
      Text.charAt? line (column + 1 + l.text.utf8ByteSize) = some '"' := by
  have hquote : '"'.utf8Size = 1 := rfl
  obtain ⟨y, z, hline, hy, -⟩ := Text.slice?_eq_some_iff.1 hx
  rw [h.eq_quoted hl] at hline
  refine ⟨Text.charAt?_eq_some_iff.2 ⟨y, l.text.toList ++ '"' :: z, by simp [hline], hy⟩,
    Text.slice?_eq_some_iff.2 ⟨y ++ ['"'], '"' :: z, by simp [hline], by simp [hy, hquote], by simp⟩,
    Text.charAt?_eq_some_iff.2 ⟨y ++ '"' :: l.text.toList, z, by simp [hline], ?_⟩⟩
  simp only [String.utf8Len_append, String.utf8Len_cons, String.utf8Len_toList, hy, hquote]
  omega

/-- The tokens of a line stand in their order, on the line they were read from, each read from the
part of it that starts at its column. No two of these parts overlap. -/
theorem lex_positions_exact {limits : Limits} {place : Place} {text : String} {r : Reading}
    (hr : limits.lex place text = .ok r) :
    let line := Text.dropEnding text
    (r.tokens.map (·.column)).Pairwise (· < ·) ∧
    (∀ t ∈ r.tokens, t.line = place.line) ∧
    (∀ t ∈ r.tokens, t.kind = .literal →
      Text.charAt? line.toList t.column = some '"' ∧
      Text.slice? line.toList (t.column + 1) (t.column + 1 + t.text.utf8ByteSize) =
        some t.text.toList ∧
      Text.charAt? line.toList (t.column + 1 + t.text.utf8ByteSize) = some '"') ∧
    (∃ ps : List (Token × List Char), ps.map (·.1) = r.tokens ∧
      (∀ p ∈ ps, Text.slice? line.toList p.1.column (p.1.column + utf8Len p.2) = some p.2 ∧
        p.1.Covers p.2) ∧
      ps.Pairwise fun p q => p.1.column + utf8Len p.2 ≤ q.1.column) ∧
    (r.tokens.map (·.text.utf8ByteSize)).sum + 2 * tally .literal r.tokens ≤ line.utf8ByteSize ∧
    r.tokens.length ≤ line.utf8ByteSize := by
  intro line
  obtain ⟨f, hf, rfl⟩ := Limits.lex_eq_ok_iff.1 hr
  obtain ⟨ps, b, rest, hline, hlexemes, htiles⟩ := exists_tiles_of_scan hf
  have htokens : (f.atPlace place).tokens = ps.map fun p => p.1.onLine place.line := by
    rw [Findings.atPlace, hlexemes, List.map_map]
    rfl
  have hsize : utf8Len b ≤ line.utf8ByteSize := by
    rw [← String.utf8Len_toList, hline, String.utf8Len_append]
    omega
  rw [htokens]
  refine ⟨?_, ?_, ?_, ⟨ps.map fun p => (p.1.onLine place.line, p.2), ?_, ?_, ?_⟩, ?_, ?_⟩
  · have hcolumns := columns_increasing_of_scan hf
    rw [hlexemes] at hcolumns
    simpa [columns, Function.comp_def] using hcolumns
  · simp only [List.forall_mem_map, Lexeme.line_onLine, implies_true]
  · simp only [List.forall_mem_map, Lexeme.toLexeme_onLine]
    intro p hp hl
    obtain ⟨hslice, hcovers⟩ := htiles.slice? hline hp
    exact hcovers.quotes hl hslice
  · simp
  · simp only [List.forall_mem_map, Lexeme.toLexeme_onLine]
    exact fun p hp => htiles.slice? hline hp
  · rw [List.pairwise_map]
    exact htiles.pairwise
  · have htexts := htiles.texts_le
    have htally : tally .literal (ps.map fun p => p.1.onLine place.line) =
        ps.countP fun p => p.1.kind = .literal := by
      rw [tally, List.countP_map]
      rfl
    simp only [List.map_map, Function.comp_def, Lexeme.toLexeme_onLine, htally]
    omega
  · have hlength := htiles.length_le
    rw [List.length_map]
    omega

/-- Blanks within the keyword and the word, and characters of two bytes before and within the
string. -/
theorem lex_positions_exact_wide :
    ∃ r, Limits.lex {} ⟨"f", 7⟩ "é ex\tposed\"ß x\"a b \r\n" = .ok r ∧
      r.tokens.map (·.toLexeme) = [⟨.unknown, "é", 0⟩, ⟨.print, "exposed", 3⟩,
        ⟨.literal, "ß x", 11⟩, ⟨.unknown, "ab", 17⟩] ∧
      (r.tokens.map (·.column)).Pairwise (· < ·) ∧
      Text.slice? "é ex\tposed\"ß x\"a b ".toList 12 16 = some "ß x".toList ∧
      (r.tokens.map (·.text.utf8ByteSize)).sum + 2 * tally .literal r.tokens ≤ 21 := by
  have hr : Limits.lex {} ⟨"f", 7⟩ "é ex\tposed\"ß x\"a b \r\n" = .ok
      ⟨[⟨⟨.unknown, "é", 0⟩, 7⟩, ⟨⟨.print, "exposed", 3⟩, 7⟩, ⟨⟨.literal, "ß x", 11⟩, 7⟩,
          ⟨⟨.unknown, "ab", 17⟩, 7⟩],
        [⟨⟨.unknown "é", 0⟩, ⟨"f", 7⟩⟩, ⟨⟨.unknown "ab", 17⟩, ⟨"f", 7⟩⟩,
          ⟨⟨.unterminated, 17⟩, ⟨"f", 7⟩⟩]⟩ := by decide
  have hline : Text.dropEnding "é ex\tposed\"ß x\"a b \r\n" = "é ex\tposed\"ß x\"a b " := by decide
  have hsize : "é ex\tposed\"ß x\"a b ".utf8ByteSize = 21 := by decide
  obtain ⟨hcolumns, -, hliteral, -, htexts, -⟩ := lex_positions_exact hr
  rw [hline] at hliteral htexts
  rw [hsize] at htexts
  obtain ⟨-, hslice, -⟩ := hliteral ⟨⟨.literal, "ß x", 11⟩, 7⟩ (by simp) rfl
  have hstop : 11 + 1 + "ß x".utf8ByteSize = 16 := by decide
  rw [hstop] at hslice
  exact ⟨_, hr, rfl, hcolumns, hslice, htexts⟩

end LineLexer
