import LineLexer.Proofs.Diagnosis
import LineLexer.Proofs.Tiling
/-!
# Where faults point

Every fault points at a lexeme of its line or at the quote of a string without an end, so at a
column within the line (`column_lt_of_mem_faults`). A text that a fault shows is that of a lexeme
without use, and holds no line break.
-/
namespace LineLexer

open String (utf8Len)

variable {before ls : List Lexeme} {l : Lexeme} {x : Fault} {line : List Char} {column : Nat}

/-! ## Columns of faults -/

theorem unmatched_sublist (ls : List Lexeme) : (unmatched ls).Sublist ls := by
  induction ls with
  | nil => exact .slnil
  | cons l ls ih =>
    rw [unmatched]
    split
    · exact ih.cons_cons l
    · exact ih.cons l

theorem exists_mem_of_innermost? (h : innermost? ls = some column) :
    ∃ l ∈ ls, l.column = column := by
  obtain ⟨l, hl, rfl⟩ := Option.map_eq_some_iff.1 h
  exact ⟨l, (unmatched_sublist ls).subset (List.mem_of_getLast? hl), rfl⟩

/-- The fault of a lexeme points at the lexeme or at one before it, and shows no text but its own. -/
theorem Lexeme.fault?_eq_some (h : l.fault? before = some x) :
    l.kind = .unknown ∧ (∀ text, x.cause = .unknown text → text = l.text) ∧
      ∃ m ∈ before ++ [l], m.column = x.column := by
  unfold Lexeme.fault? at h
  split_ifs at h with hkind htext
  · obtain rfl := Option.some.inj h
    exact ⟨not_not.1 hkind, by simp, l, by simp, rfl⟩
  · obtain rfl := Option.some.inj h
    refine ⟨not_not.1 hkind, by simp [eq_comm], ?_⟩
    cases hopen : innermost? before with
    | none => exact ⟨l, by simp, by simp⟩
    | some column =>
      obtain ⟨m, hm, hcolumn⟩ := exists_mem_of_innermost? hopen
      exact ⟨m, by simp [hm], by simp [hcolumn]⟩

theorem mem_faultsAfter (h : x ∈ faultsAfter before ls) :
    (∀ text, x.cause = .unknown text → ∃ l ∈ ls, l.content = (.unknown, text)) ∧
      ∃ m ∈ before ++ ls, m.column = x.column := by
  induction ls generalizing before with
  | nil => simp [faultsAfter] at h
  | cons l ls ih =>
    rw [faultsAfter, List.mem_append, Option.mem_toList] at h
    rcases h with h | h
    · obtain ⟨hkind, htext, m, hm, hcolumn⟩ := Lexeme.fault?_eq_some h
      refine ⟨fun text hcause => ⟨l, by simp, ?_⟩, m, ?_, hcolumn⟩
      · rw [Lexeme.content, hkind, htext text hcause]
      · simp only [List.mem_append, List.mem_cons] at hm ⊢
        tauto
    · obtain ⟨htext, m, hm, hcolumn⟩ := ih h
      refine ⟨fun text hcause => ?_, m, by simpa using hm, hcolumn⟩
      obtain ⟨k, hk, hcontent⟩ := htext text hcause
      exact ⟨k, by simp [hk], hcontent⟩

theorem mem_missingTerminator (h : x ∈ missingTerminator line ls) :
    x.cause = .unterminated ∧
      ((∃ l ∈ ls, l.column = x.column) ∨ Text.unclosedQuote? line = some x.column) := by
  unfold missingTerminator at h
  split_ifs at h
  · simp at h
  · simp at h
  · obtain ⟨column, hcolumn, rfl⟩ := List.mem_map.1 h
    refine ⟨rfl, ?_⟩
    rw [Option.mem_toList] at hcolumn
    cases hlast : ls.getLast? with
    | none => exact .inr (by simpa [hlast] using hcolumn)
    | some l =>
      exact .inl ⟨l, List.mem_of_getLast? hlast, by simpa [hlast] using hcolumn⟩

/-- What a fault points at, and what text it shows. -/
theorem mem_diagnosis (h : x ∈ diagnosis line ls) :
    ((∃ l ∈ ls, l.column = x.column) ∨ Text.unclosedQuote? line = some x.column) ∧
      ∀ text, x.cause = .unknown text → ∃ l ∈ ls, l.content = (.unknown, text) := by
  simp only [diagnosis, List.mem_append, List.mem_map, Option.mem_toList] at h
  rcases h with ((h | ⟨quote, hquote, rfl⟩) | ⟨column, hopen, rfl⟩) | h
  · obtain ⟨htext, m, hm, hcolumn⟩ := mem_faultsAfter h
    exact ⟨.inl ⟨m, by simpa using hm, hcolumn⟩, htext⟩
  · exact ⟨.inr hquote, by simp⟩
  · exact ⟨.inl (exists_mem_of_innermost? hopen), by simp⟩
  · obtain ⟨hcause, hcolumn⟩ := mem_missingTerminator h
    exact ⟨hcolumn, by simp [hcause]⟩

/-! ## Within the line -/

/-- The quote of a string without an end is a quote of the line. -/
theorem exists_of_unclosedQuote? (h : Text.unclosedQuote? line = some column) :
    ∃ a b, line = a ++ '"' :: b ∧ utf8Len a = column := by
  unfold Text.unclosedQuote? at h
  split_ifs at h with hclosed
  have hmem : '"' ∈ line.reverse := by
    rw [List.mem_reverse]
    by_contra hmem
    exact hclosed (.inr (by simp [List.count_eq_zero_of_not_mem hmem]))
  obtain ⟨body, front, hline, hbody⟩ := List.eq_append_cons_of_mem hmem
  have hline : line = front.reverse ++ '"' :: body.reverse := by
    simpa using congrArg List.reverse hline
  refine ⟨front.reverse, body.reverse, hline, ?_⟩
  rw [← Option.some.inj h, hline, Text.beforeLastQuote_append (by simpa using hbody)]

theorem column_lt_of_unclosedQuote? (h : Text.unclosedQuote? line = some column) :
    column < utf8Len line := by
  obtain ⟨a, b, rfl, rfl⟩ := exists_of_unclosedQuote? h
  have := Char.utf8Size_pos '"'
  rw [String.utf8Len_append, String.utf8Len_cons]
  omega

variable {limits : Limits} {text : String} {f : Findings}

/-- A lexeme starts within its line. -/
theorem column_lt_of_mem_lexemes (hf : limits.scan text = .ok f) (hl : l ∈ f.lexemes) :
    l.column < text.utf8ByteSize := by
  obtain ⟨ps, b, rest, hline, hlexemes, htiles⟩ := exists_tiles_of_scan hf
  rw [hlexemes] at hl
  obtain ⟨p, hp, rfl⟩ := List.mem_map.1 hl
  obtain ⟨-, -, -, -, -, hcovers⟩ := htiles.exists_of_mem hp
  have hend := htiles.end_le hp
  have hpos := hcovers.utf8Len_pos
  rw [← String.utf8Len_toList, hline, String.utf8Len_append]
  rw [List.nil_append] at hend
  omega

/-- A fault points at a column within its line. -/
theorem column_lt_of_mem_faults (hf : limits.scan text = .ok f) (hx : x ∈ f.faults) :
    x.column < text.utf8ByteSize := by
  rw [scan_faults_eq hf] at hx
  rcases (mem_diagnosis hx).1 with ⟨l, hl, hcolumn⟩ | hquote
  · rw [← hcolumn]
    exact column_lt_of_mem_lexemes hf hl
  · rw [← String.utf8Len_toList]
    exact column_lt_of_unclosedQuote? hquote

theorem Text.utf8ByteSize_dropEnding_le (s : String) :
    (Text.dropEnding s).utf8ByteSize ≤ s.utf8ByteSize := by
  rw [Text.dropEnding, String.utf8ByteSize_ofList, ← String.utf8Len_toList s]
  exact String.utf8Len_le_of_prefix (Text.chomp_isPrefix s.toList)

/-! ## Texts that are shown -/

/-- A text without use is a character other than a blank, or letters. -/
theorem Fits.newline_not_mem {text : String} (h : Fits (.unknown, text)) : '\n' ∉ text.toList := by
  cases h with
  | stray => decide
  | @other c hletter hblank hmarks =>
    intro hmem
    obtain rfl : '\n' = c := by simpa using hmem
    simp [Text.isBlank] at hblank
  | word hword =>
    intro hmem
    exact absurd (hword.letters _ hmem) (by decide)

theorem newline_not_mem_of_mem_faults {shown : String} (hf : limits.scan text = .ok f)
    (hx : x ∈ f.faults) (hcause : x.cause = .unknown shown) : '\n' ∉ shown.toList := by
  rw [scan_faults_eq hf] at hx
  obtain ⟨l, hl, hcontent⟩ := (mem_diagnosis hx).2 shown hcause
  have hfits := fits_of_mem hf hl
  rw [hcontent] at hfits
  exact hfits.newline_not_mem

end LineLexer
