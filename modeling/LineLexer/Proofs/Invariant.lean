import LineLexer.Proofs.Balance
import LineLexer.Proofs.Registers
/-!
# What the registers hold of a line

Between any two characters of a line the registers are what the line and the tokens make them
(`registers_invariant`). A word is the line from its first letter up to there, less the blanks, and
no string is open; the quote of an open string is the last quote before; the open parentheses are
the tokens that no later token closes; the diagnostics are one for each token without use. The
registers show the state of a scan, so each of these is a fact about scans.
-/
namespace LineLexer

open String (utf8Len)

variable {depth : Nat} {place : Place} {line a b x : List Char} {r : Registers} {s : Scan}
  {l : Lexeme} {ls : List Lexeme}

/-- What the registers hold when `a` has been read of a line. -/
structure Registers.Invariant (depth : Nat) (place : Place) (line a : List Char) (r : Registers) :
    Prop where
  letters : ∀ c ∈ r.word.toList, Text.isLetter c = true
  noKeyword : ¬ keyword.toList <+: r.word.toList
  /-- A word stands outside strings, starts at its first letter and goes up to here. -/
  word : r.word ≠ "" → r.quote? = none ∧
    Text.charAt? line r.wordStart = r.word.toList.head? ∧
    ∃ x, Text.slice? line r.wordStart (utf8Len a) = some x ∧
      x.filter (fun c => !Text.isBlank c) = r.word.toList
  /-- A string starts at a quote and has none up to here. -/
  string : ∀ quote, r.quote? = some quote →
    Text.charAt? line quote = some '"' ∧
    ∃ x, Text.slice? line (quote + 1) (utf8Len a) = some x ∧ '"' ∉ x
  /-- The open parentheses are the tokens that no later token closes. -/
  opened : r.opened.toList.Sublist r.tokens.toList ∧
    r.opened.toList.map (·.toLexeme) = unmatched (r.tokens.toList.map (·.toLexeme))
  increasing : (r.opened.toList.map (·.column)).Pairwise (· < ·)
  shallow : r.opened.size ≤ depth
  running : ∀ t ∈ r.tokens.toList, t.kind ≠ .terminator
  /-- The diagnostics are those of the tokens, one by one. -/
  diagnostics : r.diagnostics.toList =
    (faultsAfter [] (r.tokens.toList.map (·.toLexeme))).map (·.atPlace place)
  counted : r.diagnostics.size = tally .unknown r.tokens.toList

/-! ## Words and strings -/

/-- A stretch starts where the text that is spread over it starts. -/
theorem Text.Spread.head?_eq {w : List Char} (h : Text.Spread w x) : x.head? = w.head? := by
  obtain ⟨c, hc, hblank⟩ := h.head
  obtain ⟨y, rfl⟩ := List.head?_eq_some_iff.1 hc
  rw [← h.text]
  simp [hblank]

namespace Scan

/-- The word that a scan is in is the line up to here, from its first letter on. -/
theorem slice?_of_word {start : Nat} {letters : String} (hr : run depth Scan.start a = .ok s)
    (hp : s.pending = .word start letters) (hline : line = a ++ b) :
    Text.charAt? line start = letters.toList.head? ∧
      ∃ x, Text.slice? line start (utf8Len a) = some x ∧
        x.filter (fun c => !Text.isBlank c) = letters.toList := by
  -- the word is the last of the stretches that the line has been read from
  obtain ⟨htiled, -⟩ := tiled_of_run (s := Scan.start) tracks_start rfl hr
  cases htiled with
  | nothing _ hp' => simp [hp] at hp'
  | string _ _ _ hp' => simp [hp] at hp'
  | word ps front x gap letters' hp' _ _ _ hx hgap ha =>
    obtain ⟨rfl, rfl⟩ : start = utf8Len front ∧ letters = letters' := by simpa [hp] using hp'
    refine ⟨?_, x ++ gap, Text.slice?_eq_some_iff.2 ⟨front, b, ?_, rfl, ?_⟩, ?_⟩
    · obtain ⟨c, hc, -⟩ := hx.head
      obtain ⟨y, rfl⟩ := List.head?_eq_some_iff.1 hc
      rw [← hx.head?_eq, hc]
      exact Text.charAt?_eq_some_iff.2 ⟨front, y ++ gap ++ b, by simp [hline, ha], rfl⟩
    · rw [hline, ha, List.append_assoc]
    · simp [ha]
    · rw [List.filter_append, hx.text, Text.filter_of_blanks hgap, List.append_nil]

/-- The string that a scan is in goes from its quote up to here. -/
theorem slice?_of_string {quote : Nat} (hr : run depth start a = .ok s)
    (hq : s.openQuote? = some quote) (hline : line = a ++ b) :
    Text.charAt? line quote = some '"' ∧
      ∃ x, Text.slice? line (quote + 1) (utf8Len a) = some x ∧ '"' ∉ x := by
  have hsize : '"'.utf8Size = 1 := rfl
  cases hp : s.pending with
  | nothing => simp [openQuote?_of_nothing hp] at hq
  | word start letters => simp [openQuote?_of_word hp] at hq
  | string quote' body =>
    obtain rfl : quote' = quote := by simpa [openQuote?_of_string hp] using hq
    obtain ⟨front, ha, rfl, -, hbody⟩ := (tracks_of_run hr).string quote' body hp
    refine ⟨Text.charAt?_eq_some_iff.2 ⟨front, body.toList ++ b, by simp [hline, ha], rfl⟩,
      body.toList, Text.slice?_eq_some_iff.2 ⟨front ++ ['"'], b, ?_, ?_, ?_⟩, hbody⟩
    · simp [hline, ha]
    · simp [hsize]
    · rw [ha, String.utf8Len_append, String.utf8Len_cons, hsize]
      omega

end Scan

/-! ## Parentheses -/

theorem kind_of_mem_unmatched (h : l ∈ unmatched ls) : l.kind = .opener := by
  induction ls with
  | nil => simp [unmatched] at h
  | cons x ls ih =>
    rw [unmatched] at h
    split at h
    next hx =>
      rcases List.mem_cons.1 h with rfl | h
      · exact hx.1
      · exact ih h
    next => exact ih h

theorem Fits.text_of_opener {w : Content} (h : Fits w) (hw : w.1 = .opener) : w.2 = "(" := by
  cases h <;> simp at hw ⊢

namespace Scan

/-- An open parenthesis is known by its column. -/
theorem map_opened (hr : run depth start a = .ok s) (n : Nat) :
    s.opened.reverse.map (.opener n) = (unmatched s.lexemes.toList).map (·.onLine n) := by
  rw [(diagnosed_of_run hr).opened, List.reverse_reverse, List.map_map]
  refine List.map_congr_left fun l hl => ?_
  have hmem : l ∈ s.lexemes.toList := (unmatched_sublist _).subset hl
  have hkind := kind_of_mem_unmatched hl
  have hfits : Fits l.content := (lexed_of_run hr).wellFormed.fits (List.mem_map_of_mem hmem)
  have htext : l.text = "(" := hfits.text_of_opener hkind
  obtain ⟨kind, text, column⟩ := l
  obtain rfl : kind = .opener := hkind
  obtain rfl : text = "(" := htext
  rfl

theorem pairwise_opened (hr : run depth start a = .ok s) :
    s.opened.reverse.Pairwise (· < ·) := by
  have hcolumns := (List.pairwise_append.1 (ordered_of_run hr).increasing).1
  rw [(diagnosed_of_run hr).opened, List.reverse_reverse]
  exact hcolumns.sublist ((unmatched_sublist _).map _)

theorem length_opened_le (hr : run depth start a = .ok s) : s.opened.length ≤ depth := by
  have h := lexed_of_run hr
  have hlevel := h.wellFormed.level_mem.2
  rw [h.level] at hlevel
  omega

end Scan

/-! ## Diagnostics -/

/-- A lexeme has a fault if it is without use, and one only. -/
theorem length_faultsAfter (before ls : List Lexeme) :
    (faultsAfter before ls).length = ls.countP (·.kind = .unknown) := by
  induction ls generalizing before with
  | nil => rfl
  | cons l ls ih =>
    rw [faultsAfter, List.length_append, ih, List.countP_cons, Lexeme.fault?]
    by_cases hkind : l.kind = .unknown
    · by_cases htext : l.text = ")"
      · simp [hkind, htext]
        omega
      · simp [hkind, htext]
        omega
    · simp [hkind]

/-! ## All of them -/

theorem Registers.Shows.invariant (h : r.Shows place s) (hr : Scan.run depth .start a = .ok s)
    (hline : line = a ++ b) : r.Invariant depth place line a := by
  have hlexed := Scan.lexed_of_run hr
  have htokens : r.tokens.toList = s.lexemes.toList.map (·.onLine place.line) := by
    rw [h.tokens, Array.toList_map]
  have hlexemes : r.tokens.toList.map (·.toLexeme) = s.lexemes.toList := by
    simp [htokens, Function.comp_def]
  have hopened := h.opened.trans (Scan.map_opened hr place.line)
  have hdiagnostics : r.diagnostics.toList =
      (faultsAfter [] (r.tokens.toList.map (·.toLexeme))).map (·.atPlace place) := by
    rw [h.diagnostics, Array.toList_map, (Scan.diagnosed_of_run hr).faults, hlexemes]
  refine
    { letters := ?_
      noKeyword := ?_
      word := ?_
      string := ?_
      opened := ⟨?_, ?_⟩
      increasing := ?_
      shallow := ?_
      running := ?_
      diagnostics := hdiagnostics
      counted := ?_ }
  · rw [h.letters]
    exact hlexed.letters.1
  · rw [h.letters]
    exact hlexed.letters.2
  · intro hw
    have hp := h.pending_of_word hw
    refine ⟨?_, Scan.slice?_of_word hr hp hline⟩
    rw [h.quote, Scan.openQuote?_of_word hp]
  · intro quote hq
    rw [h.quote] at hq
    exact Scan.slice?_of_string hr hq hline
  · rw [hopened, htokens]
    exact (unmatched_sublist _).map _
  · rw [hopened, hlexemes]
    simp [Function.comp_def]
  · have hcolumns : r.opened.toList.map (·.column) = s.opened.reverse := by
      rw [h.opened, List.map_map]
      exact List.map_id' _
    rw [hcolumns]
    exact Scan.pairwise_opened hr
  · rw [h.size_opened]
    exact Scan.length_opened_le hr
  · intro t ht
    rw [htokens] at ht
    obtain ⟨l, hl, rfl⟩ := List.mem_map.1 ht
    exact hlexed.running l.content (List.mem_map_of_mem hl)
  · rw [← Array.length_toList, hdiagnostics, List.length_map, length_faultsAfter, hlexemes, tally,
      htokens, List.countP_map]
    rfl

/-- As far as a scan gets in a line the registers get, and show its state; wherever they get, they
hold what the line and their tokens say; and at the end of the line they come to its reading. -/
theorem registers_invariant (limits : Limits) (place : Place) (text : String) :
    let line := (Text.dropEnding text).toList
    (∀ a b, line = a ++ b →
      (∀ s, Scan.run limits.depth .start a = .ok s →
        ∃ r, Registers.run limits.depth place line {} 0 a = .ok r ∧ r.Shows place s) ∧
      ∀ r, Registers.run limits.depth place line {} 0 a = .ok r →
        r.Invariant limits.depth place line a) ∧
    Registers.lex? limits place text = some (limits.lex place text) := by
  intro line
  refine ⟨?_, Registers.lex?_eq limits place text⟩
  intro a b hline
  refine ⟨fun s hs => Registers.exists_run_of_scan place hs hline, ?_⟩
  intro r hr
  obtain ⟨s, hs, hshows⟩ := Registers.exists_scan_of_run hr hline
  exact hshows.invariant hs hline

/-- Within a word with a blank in it, behind a string with a character of two bytes; and within a
string, where the start of the word before is left over. -/
theorem registers_invariant_word_string :
    let line := "(\"é\" e x) \"y".toList
    (∃ r, Registers.run 1 ⟨"f", 4⟩ line {} 0 "(\"é\" e x".toList = .ok r ∧
      r.word = "ex" ∧ Text.charAt? line 6 = some 'e' ∧
      (∃ x, Text.slice? line 6 9 = some x ∧
        x.filter (fun c => !Text.isBlank c) = ['e', 'x']) ∧
      r.opened.toList.map (·.toLexeme) = unmatched (r.tokens.toList.map (·.toLexeme))) ∧
    ∃ r, Registers.run 1 ⟨"f", 4⟩ line {} 0 line = .ok r ∧
      r.wordStart = 6 ∧ r.quote? = some 11 ∧ Text.charAt? line 11 = some '"' ∧
      r.diagnostics.size = tally .unknown r.tokens.toList := by
  intro line
  have hline : (Text.dropEnding "(\"é\" e x) \"y\r\n").toList = line := by decide
  have hword : Registers.run 1 ⟨"f", 4⟩ line {} 0 "(\"é\" e x".toList = .ok
      { tokens := #[.opener 4 0, ⟨⟨.literal, "é", 1⟩, 4⟩]
        opened := #[.opener 4 0]
        word := "ex"
        wordStart := 6 } := by decide
  have hstring : Registers.run 1 ⟨"f", 4⟩ line {} 0 line = .ok
      { tokens := #[.opener 4 0, ⟨⟨.literal, "é", 1⟩, 4⟩, ⟨⟨.unknown, "ex", 6⟩, 4⟩,
          ⟨⟨.closer, ")", 9⟩, 4⟩]
        diagnostics := #[⟨⟨.unknown "ex", 0⟩, ⟨"f", 4⟩⟩]
        wordStart := 6
        quote? := some 11 } := by decide
  obtain ⟨hinvariant, -⟩ := registers_invariant ⟨1, 20⟩ ⟨"f", 4⟩ "(\"é\" e x) \"y\r\n"
  rw [hline] at hinvariant
  have h := (hinvariant "(\"é\" e x".toList ") \"y".toList (by decide)).2 _ hword
  have h' := (hinvariant line [] (by decide)).2 _ hstring
  obtain ⟨-, hstart, hslice⟩ := h.word (by decide)
  exact ⟨⟨_, hword, rfl, hstart, hslice, h.opened.2⟩, _, hstring, rfl, rfl, (h'.string 11 rfl).1,
    h'.counted⟩

end LineLexer
