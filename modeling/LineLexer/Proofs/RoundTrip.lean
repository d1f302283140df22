import Mathlib.Data.List.Induction
import LineLexer.Proofs.WellFormed
/-!
# Reading what was printed

Contents that are well formed, printed without a blank between them and read again, are found as
they were: no two of them merge, none is split, and each parenthesis has the partner it had
(`exists_run_printed`). With `wellFormed_of_scan` this says which contents lines have
(`lex_printed_iff`).
-/
namespace LineLexer

open String (utf8Len)

variable {depth : Nat} {s t : Scan} {c : Char} {w : Content} {ws : List Content} {ls : List Char}

/-- The lexemes of contents that stand one right after the other from `column` on. -/
def layOut (column : Nat) : List Content → List Lexeme
  | [] => []
  | w :: ws => ⟨w.1, w.2, column⟩ :: layOut (column + utf8Len w.printed) ws

theorem layOut_concat (column : Nat) (ws : List Content) (w : Content) :
    layOut column (ws ++ [w]) =
      layOut column ws ++ [⟨w.1, w.2, column + utf8Len (printed ws)⟩] := by
  induction ws generalizing column with
  | nil => rfl
  | cons u ws ih =>
    have hcolumn : column + utf8Len u.printed + utf8Len (printed ws) =
        column + utf8Len (printed (u :: ws)) := by
      simp only [printed, List.flatMap_cons, String.utf8Len_append]
      omega
    simp only [List.cons_append, layOut, ih, hcolumn]

theorem map_content_layOut (column : Nat) (ws : List Content) :
    (layOut column ws).map Lexeme.content = ws := by
  induction ws generalizing column with
  | nil => rfl
  | cons w ws ih => simp only [layOut, List.map_cons, ih, Lexeme.content]

namespace Scan

/-! ## Words and keywords -/

/-- Letters join the word as long as it does not spell the keyword. -/
theorem run_letters (hq : s.openQuote? = none) (hne : ls ≠ [])
    (hls : ∀ c ∈ ls, Text.isLetter c = true)
    (hk : ∀ v, v <+: ls → v ≠ [] → s.letters ++ v ≠ keyword.toList) :
    run depth s ls = .ok { s with
      column := s.column + utf8Len ls
      pending := .word s.wordStart (String.ofList (s.letters ++ ls)) } := by
  induction ls generalizing s with
  | nil => exact absurd rfl hne
  | cons c ls ih =>
    have hr : Reads depth s c ((s.letter c).advance c) := .letter hq (hls c (by simp))
    have hletter := letter_of_ne_keyword (hk [c] (by simp) (by simp))
    rw [run_cons_of_reads hr, hletter]
    by_cases hnil : ls = []
    · subst hnil
      simp [advance]
    · rw [ih rfl hnil (fun x hx => hls x (by simp [hx]))]
      · simp only [advance, wordStart, Scan.letters, String.toList_ofList, List.append_assoc,
          List.singleton_append, String.utf8Len_cons, Except.ok.injEq, Scan.mk.injEq, and_true]
        omega
      · intro v hv _
        simpa [Scan.letters, hletter] using hk (c :: v) (by simpa using hv) (by simp)

/-- A word without use is read as a whole, and waits to be given up. -/
theorem run_word {text : String} (hp : s.pending = .nothing) (hw : StrayWord text) :
    run depth s text.toList = .ok { s with
      column := s.column + utf8Len text.toList
      pending := .word s.column text } := by
  have hk : ∀ v, v <+: text.toList → v ≠ [] → s.letters ++ v ≠ keyword.toList := by
    intro v hv _ heq
    apply hw.noKeyword
    rw [← heq]
    simpa [Scan.letters, hp] using hv
  rw [run_letters (openQuote?_of_nothing hp) (by simpa using hw.nonempty) hw.letters hk]
  simp [wordStart, Scan.letters, hp]

/-- The keyword is found at its last letter. -/
theorem run_keyword (hp : s.pending = .nothing) :
    run depth s keyword.toList = .ok
      ({ s with column := s.column + utf8Len keyword.toList }.emit .print keyword s.column) := by
  have hletters : "expose".toList.all Text.isLetter = true := by decide
  have hexpose : StrayWord "expose" := ⟨by decide, List.all_eq_true.1 hletters, by decide⟩
  have hsplit : keyword.toList = "expose".toList ++ ['d'] := by decide
  -- the word before the last letter, and what the last letter makes of it
  have hword : run depth s "expose".toList = .ok _ := run_word hp hexpose
  have hlast : ∀ t : Scan, t.pending = .word s.column "expose" → Reads depth t 'd'
      (({ t with pending := .nothing }.emit .print keyword s.column).advance 'd') := by
    intro t ht
    have hq := openQuote?_of_word ht
    have hr : Reads depth t 'd' ((t.letter 'd').advance 'd') := .letter hq rfl
    rwa [letter_of_keyword (by simp [Scan.letters, ht, hsplit]), wordStart, ht] at hr
  rw [hsplit, run_append_of_ok hword, run_cons_of_reads (hlast _ rfl), run_nil]
  simp only [emit, advance, hp, String.utf8Len_append, String.utf8Len_cons, String.utf8Len_nil,
    Except.ok.injEq, Scan.mk.injEq, and_true]
  omega

/-! ## One content after the other -/

/-- What a scan has made of contents printed one right after the other. -/
structure Prints (ws : List Content) (s : Scan) : Prop where
  lexemes : s.settle.lexemes.toList = layOut 0 ws
  column : s.column = utf8Len (printed ws)
  outside : s.openQuote? = none
  level : level ws = s.opened.length
  /-- Only a word leaves something behind. -/
  idle : s.pending = .nothing ∨ ∃ w, ws.getLast? = some w ∧ w.IsWord

theorem prints_start : Prints [] start where
  lexemes := rfl
  column := rfl
  outside := rfl
  level := rfl
  idle := .inl rfl

/-- What starts with a letter finds no word to join. -/
theorem Prints.pending (h : Prints ws s) (hw : Admits depth ws w)
    (hletter : w.1 = .print ∨ w.IsWord) : s.pending = .nothing := by
  rcases h.idle with hp | ⟨u, hu, hword⟩
  · exact hp
  · obtain ⟨hprint, hnot⟩ := hw.apart u hu hword
    rcases hletter with hp | hw'
    · exact absurd hp hprint
    · exact absurd hw' hnot

/-- A scan that found one content more, where it stood. -/
theorem Prints.concat (h : Prints ws s)
    (hlexemes : t.settle.lexemes.toList = s.settle.lexemes.toList ++ [⟨w.1, w.2, s.column⟩])
    (hcolumn : t.column = s.column + utf8Len w.printed) (hq : t.openQuote? = none)
    (hlevel : LineLexer.level (ws ++ [w]) = t.opened.length)
    (hidle : t.pending = .nothing ∨ w.IsWord) : Prints (ws ++ [w]) t where
  lexemes := by rw [hlexemes, h.lexemes, layOut_concat, h.column, Nat.zero_add]
  column := by rw [hcolumn, h.column, printed_concat, String.utf8Len_append]
  outside := hq
  level := hlevel
  idle := by
    rcases hidle with hp | hword
    · exact .inl hp
    · exact .inr ⟨w, by simp, hword⟩

/-- A character that is a content of its own, whatever it ends. -/
theorem Prints.exists_run_mark (h : Prints ws s) (hr : Reads depth s c t) (hw : w.printed = [c])
    (hlexemes : t.lexemes.toList = s.settle.lexemes.toList ++ [⟨w.1, w.2, s.column⟩])
    (hcolumn : t.column = s.column + c.utf8Size) (hp : t.pending = .nothing)
    (hlevel : LineLexer.level (ws ++ [w]) = t.opened.length) :
    ∃ t, run depth s w.printed = .ok t ∧ Prints (ws ++ [w]) t := by
  refine ⟨t, ?_, h.concat ?_ ?_ ?_ hlevel (.inl hp)⟩
  · rw [hw, run_cons_of_reads hr, run_nil]
  · rw [settle_of_nothing hp, hlexemes]
  · simp [hcolumn, hw]
  · exact openQuote?_of_nothing hp

/-- Whatever is admitted is read as it was printed. -/
theorem Prints.exists_run (h : Prints ws s) (hw : Admits depth ws w) (hterm : w.1 ≠ .terminator) :
    ∃ t, run depth s w.printed = .ok t ∧ Prints (ws ++ [w]) t := by
  have hq := h.outside
  have hp' := pending_settle hq
  cases hw.fits with
  | print =>
    have hp := h.pending hw (.inl rfl)
    refine ⟨_, run_keyword hp, h.concat ?_ rfl hq ?_ (.inl hp)⟩
    · rw [settle_of_nothing hp, settle_of_nothing (by exact hp)]
      simp
    · simp [level_concat, h.level]
  | terminator => exact absurd rfl hterm
  | opener =>
    have hd : s.opened.length < depth := by
      have := hw.opener rfl
      rw [h.level] at this
      exact_mod_cast this
    refine h.exists_run_mark (.opener hq hd) rfl (by simp) (by simp) (by simp [hp']) ?_
    simp [level_concat, h.level]
  | closer =>
    have ho : s.opened ≠ [] := by
      rintro ho
      have := hw.closer rfl
      simp [h.level, ho] at this
    refine h.exists_run_mark (.closer hq) rfl (by simp [ho]) (by simp) (by simp [hp']) ?_
    have hlength := List.length_pos_of_ne_nil ho
    simp [level_concat, h.level]
    omega
  | stray =>
    have ho : s.opened = [] := by
      have := hw.stray rfl
      rw [h.level] at this
      simpa using this
    refine h.exists_run_mark (.closer hq) rfl (by simp [ho]) (by simp) (by simp [hp']) ?_
    simp [level_concat, h.level, ho]
  | literal hbody =>
    have hr : run depth s _ = .ok _ := run_string hq hbody
    refine ⟨_, by simpa [Content.printed] using hr, h.concat ?_ ?_ rfl ?_ (.inl rfl)⟩
    · rw [settle_of_nothing rfl]
      simp
    · simp [Content.printed]
    · simp [level_concat, h.level]
  | @other c hletter hblank hmarks =>
    have hrole : Text.Role.of c = .other := Text.Role.of_eq_other_iff.2 ⟨hletter, hblank, hmarks⟩
    refine h.exists_run_mark (.other hq hrole) (by simp [Content.printed]) (by simp) (by simp)
      (by simp [hp']) ?_
    simp [level_concat, h.level]
  | word hword =>
    have hp := h.pending hw (.inr hword.isWord)
    refine ⟨_, run_word hp hword, h.concat ?_ rfl rfl ?_ (.inr hword.isWord)⟩
    · rw [settle_of_nothing hp]
      simp [settle]
    · simp [level_concat, h.level]

end Scan

/-- Well formed contents without a semicolon are found one by one as they were printed. -/
theorem exists_run_printed (h : WellFormed depth ws) (hrunning : ∀ w ∈ ws, w.1 ≠ .terminator) :
    ∃ s, Scan.run depth .start (printed ws) = .ok s ∧ Scan.Prints ws s := by
  induction ws using List.reverseRecOn with
  | nil => exact ⟨.start, rfl, Scan.prints_start⟩
  | append_singleton ws w ih =>
    obtain ⟨hws, hw⟩ := wellFormed_concat_iff.1 h
    obtain ⟨s, hs, hprints⟩ := ih hws fun u hu => hrunning u (by simp [hu])
    obtain ⟨t, ht, hprints'⟩ := hprints.exists_run hw (hrunning w (by simp))
    refine ⟨t, ?_, hprints'⟩
    rw [printed_concat, Scan.run_append_of_ok hs]
    exact ht

/-! ## Whole lines -/

theorem exists_scan_printed {limits : Limits} (h : WellFormed limits.depth ws)
    (hlength : utf8Len (printed ws) ≤ limits.length) :
    ∃ f, limits.scan (String.ofList (printed ws)) = .ok f ∧ f.lexemes = layOut 0 ws := by
  simp only [Limits.scan_eq_ok_iff, String.toList_ofList, String.utf8ByteSize_ofList]
  by_cases hrunning : ∀ w ∈ ws, w.1 ≠ .terminator
  · obtain ⟨s, hs, hprints⟩ := exists_run_printed h hrunning
    exact ⟨_, ⟨hlength, .inl ⟨s, hs, rfl⟩⟩, hprints.lexemes⟩
  · -- nothing follows a semicolon, so it is the last of the contents
    rcases List.eq_nil_or_concat' ws with rfl | ⟨init, w, rfl⟩
    · simp at hrunning
    · obtain ⟨hinit, hw⟩ := wellFormed_concat_iff.1 h
      have hterm : w.1 = .terminator := by
        by_contra hne
        refine hrunning fun u hu => ?_
        rcases List.mem_append.1 hu with hu | hu
        · exact hw.running u hu
        · rwa [List.mem_singleton.1 hu]
      obtain rfl : w = (.terminator, ";") := by
        cases hw.fits <;> simp_all
      obtain ⟨s, hs, hprints⟩ := exists_run_printed hinit hw.running
      refine ⟨_, ⟨hlength, .inr (Scan.run_eq_terminated_iff.2
        ⟨printed init, [], s, by simp [Content.printed], hs, hprints.outside, rfl⟩)⟩, ?_⟩
      simp [Scan.terminated, layOut_concat, hprints.lexemes, hprints.column]

theorem Fits.getLast?_printed (h : Fits w) :
    ∃ c, w.printed.getLast? = some c ∧ Text.isBlank c = false := by
  cases h with
  | print => exact ⟨'d', rfl, rfl⟩
  | terminator => exact ⟨';', rfl, rfl⟩
  | opener => exact ⟨'(', rfl, rfl⟩
  | closer => exact ⟨')', rfl, rfl⟩
  | literal => exact ⟨'"', List.getLast?_concat, rfl⟩
  | stray => exact ⟨')', rfl, rfl⟩
  | @other c _ hblank => exact ⟨c, by simp [Content.printed], hblank⟩
  | @word text hword =>
    have hne : text.toList ≠ [] := by simpa using hword.nonempty
    refine ⟨text.toList.getLast hne, ?_, ?_⟩
    · simp [Content.printed, List.getLast?_eq_some_getLast hne]
    · exact Text.not_isBlank_of_isLetter (hword.letters _ (List.getLast_mem hne))

/-- What is printed last is no line ending. -/
theorem dropEnding_printed (h : WellFormed depth ws) :
    Text.dropEnding (String.ofList (printed ws)) = String.ofList (printed ws) := by
  have hlast : (printed ws).getLast? ≠ some '\n' := by
    rcases List.eq_nil_or_concat' ws with rfl | ⟨init, w, rfl⟩
    · simp
    · obtain ⟨-, hw⟩ := wellFormed_concat_iff.1 h
      obtain ⟨c, hc, hblank⟩ := hw.fits.getLast?_printed
      rw [printed_concat, List.getLast?_append, hc]
      rintro heq
      obtain rfl : c = '\n' := by simpa using heq
      exact absurd hblank (by decide)
  rw [Text.dropEnding, String.toList_ofList, Text.chomp_of_getLast? hlast]

/-- The contents of lines are the well formed ones that fit in a line. Printed, they are a line
themselves, on which each stands right after the one before. -/
theorem lex_printed_iff (limits : Limits) (place : Place) (ws : List Content) :
    (WellFormed limits.depth ws ∧ utf8Len (printed ws) ≤ limits.length ↔
      ∃ r, limits.lex place (String.ofList (printed ws)) = .ok r ∧ r.contents = ws ∧
        r.tokens = (layOut 0 ws).map (·.onLine place.line)) ∧
    (WellFormed limits.depth ws ∧ utf8Len (printed ws) ≤ limits.length ↔
      ∃ text r, limits.lex place text = .ok r ∧ r.contents = ws) := by
  have hread : WellFormed limits.depth ws ∧ utf8Len (printed ws) ≤ limits.length →
      ∃ r, limits.lex place (String.ofList (printed ws)) = .ok r ∧ r.contents = ws ∧
        r.tokens = (layOut 0 ws).map (·.onLine place.line) := by
    rintro ⟨hwf, hlength⟩
    obtain ⟨f, hf, hlexemes⟩ := exists_scan_printed hwf hlength
    refine ⟨f.atPlace place, Limits.lex_eq_ok_iff.2 ⟨f, ?_, rfl⟩, ?_, ?_⟩
    · rw [dropEnding_printed hwf]
      exact hf
    · rw [Reading.contents_atPlace, Findings.contents, hlexemes, map_content_layOut]
    · rw [Findings.atPlace, hlexemes]
  have hfound : ∀ text r, limits.lex place text = .ok r → r.contents = ws →
      WellFormed limits.depth ws ∧ utf8Len (printed ws) ≤ limits.length := by
    rintro text r hr rfl
    obtain ⟨f, hf, rfl⟩ := Limits.lex_eq_ok_iff.1 hr
    rw [Reading.contents_atPlace]
    refine ⟨wellFormed_of_scan hf, ?_⟩
    obtain ⟨hlength, -⟩ := Limits.scan_eq_ok_iff.1 hf
    have := String.utf8Len_le_of_sublist (printed_sublist_of_scan hf)
    rw [String.utf8Len_toList] at this
    omega
  refine ⟨⟨hread, ?_⟩, ⟨?_, ?_⟩⟩
  · rintro ⟨r, hr, hws, -⟩
    exact hfound _ r hr hws
  · intro h
    obtain ⟨r, hr, hws, -⟩ := hread h
    exact ⟨_, r, hr, hws⟩
  · rintro ⟨text, r, hr, hws⟩
    exact hfound text r hr hws

end LineLexer
