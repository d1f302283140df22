import LineLexer.Proofs.Outside
/-!
# Where lexemes stand

Lexemes are found in the order in which they stand in the line, though not where they start: a
string is found at its last quote, a word at the character behind it. `Scan.frontier` is the column
that the next lexeme can have at the earliest, and `Scan.Ordered` the invariant that all found so
far start before it. What has been found once stays found (`exists_run_of_scan`).
-/
namespace LineLexer

variable {depth : Nat} {s t : Scan} {c : Char} {l : Lexeme} {a b : List Char}

/-- The columns of lexemes, in their order. -/
def columns (ls : List Lexeme) : List Nat := ls.map (·.column)

@[simp] theorem columns_concat (ls : List Lexeme) (l : Lexeme) :
    columns (ls ++ [l]) = columns ls ++ [l.column] := by
  simp [columns]

namespace Scan

/-! ## The next column -/

/-- Where the next lexeme starts, if it is in the making, and where it would start otherwise. -/
def frontier (s : Scan) : Nat :=
  match s.pending with
  | .nothing => s.column
  | .word start _ => start
  | .string quote _ => quote

theorem frontier_of_nothing (h : s.pending = .nothing) : s.frontier = s.column := by
  simp [frontier, h]

theorem frontier_of_word {start : Nat} {letters : String} (h : s.pending = .word start letters) :
    s.frontier = start := by
  simp [frontier, h]

theorem frontier_of_string {quote : Nat} {body : String} (h : s.pending = .string quote body) :
    s.frontier = quote := by
  simp [frontier, h]

/-- Outside strings a lexeme in the making is a word. -/
theorem wordStart_eq_frontier (hq : s.openQuote? = none) : s.wordStart = s.frontier := by
  cases hp : s.pending with
  | nothing => simp [wordStart, frontier, hp]
  | word start letters => simp [wordStart, frontier, hp]
  | string quote body => simp [openQuote?_of_string hp] at hq

/-- The lexemes found stand one after the other, and what is in the making after them. -/
structure Ordered (s : Scan) : Prop where
  increasing : (columns s.lexemes.toList ++ [s.frontier]).Pairwise (· < ·)
  begun : s.pending = .nothing ∨ s.frontier < s.column

theorem ordered_start : Ordered start := ⟨by simp [columns, start], .inl rfl⟩

theorem Ordered.frontier_le (h : Ordered s) : s.frontier ≤ s.column := by
  rcases h.begun with hp | hlt
  · exact (frontier_of_nothing hp).le
  · exact hlt.le

theorem Ordered.column_lt_frontier (h : Ordered s) (hl : l ∈ s.lexemes.toList) :
    l.column < s.frontier :=
  (List.pairwise_append.1 h.increasing).2.2 l.column (List.mem_map_of_mem hl) s.frontier (by simp)

/-- Nothing is found, and the frontier does not go back. -/
theorem Ordered.mono (h : Ordered s) (hl : t.lexemes = s.lexemes) (hf : s.frontier ≤ t.frontier)
    (hp : t.pending = .nothing ∨ t.frontier < t.column) : Ordered t where
  increasing := by
    have hs := List.pairwise_append.1 h.increasing
    rw [hl]
    refine List.pairwise_append.2 ⟨hs.1, List.pairwise_singleton _ _, ?_⟩
    intro x hx y hy
    have := hs.2.2 x hx s.frontier (by simp)
    rw [List.mem_singleton.1 hy]
    omega
  begun := hp

/-- A lexeme is found where it was to start, and the scan has moved on since. -/
theorem Ordered.concat (h : Ordered s) (hl : t.lexemes.toList = s.lexemes.toList ++ [l])
    (hcolumn : l.column = s.frontier) (hp : t.pending = .nothing) (hlt : s.frontier < t.column) :
    Ordered t where
  increasing := by
    rw [hl, columns_concat, hcolumn, frontier_of_nothing hp]
    refine List.pairwise_append.2 ⟨h.increasing, List.pairwise_singleton _ _, ?_⟩
    have hs := (List.pairwise_append.1 h.increasing).2.2
    intro x hx y hy
    rw [List.mem_singleton.1 hy]
    rcases List.mem_append.1 hx with hx | hx
    · have := hs x hx s.frontier (by simp)
      omega
    · rwa [List.mem_singleton.1 hx]
  begun := .inl hp

theorem Ordered.settle (h : Ordered s) : Ordered s.settle := by
  cases hp : s.pending with
  | nothing => rwa [settle_of_nothing hp]
  | word start letters =>
    have hlt := h.begun.resolve_left (by simp [hp])
    exact h.concat (lexemes_settle_of_word hp) (frontier_of_word hp).symm
      (pending_settle (openQuote?_of_word hp)) (by simpa using hlt)
  | string quote body => rwa [settle_of_openQuote? (by simp [openQuote?_of_string hp])]

/-- A mark is a lexeme at its own column, behind the word it ends. -/
theorem Ordered.mark (h : Ordered s) (hq : s.openQuote? = none)
    (hl : t.lexemes.toList = s.settle.lexemes.toList ++ [l]) (hcolumn : l.column = s.column)
    (hp : t.pending = .nothing) (hlt : s.column < t.column) : Ordered t := by
  have hfrontier : s.settle.frontier = s.column := by
    rw [frontier_of_nothing (pending_settle hq), column_settle]
  exact h.settle.concat hl (by rw [hcolumn, hfrontier]) hp (by rwa [hfrontier])

theorem Ordered.letter (h : Ordered s) (hq : s.openQuote? = none) (c : Char) :
    Ordered ((s.letter c).advance c) := by
  have hle := h.frontier_le
  have hpos := c.utf8Size_pos
  by_cases hk : s.letters ++ [c] = keyword.toList
  · rw [letter_of_keyword hk]
    refine h.concat (lexemes_emit _ _ _ _) (wordStart_eq_frontier hq) rfl ?_
    simp only [advance, column_emit]
    omega
  · rw [letter_of_ne_keyword hk]
    have hfrontier := wordStart_eq_frontier hq
    refine h.mono rfl hfrontier.symm.le (.inr ?_)
    simp only [frontier, advance]
    omega

theorem Ordered.inString {quote : Nat} {body : String} (h : Ordered s)
    (hp : s.pending = .string quote body) (c : Char) :
    Ordered ((s.inString quote body c).advance c) := by
  have hfrontier := frontier_of_string hp
  have hlt := h.begun.resolve_left (by simp [hp])
  by_cases hc : c = '"'
  · refine h.concat (l := ⟨.literal, body, quote⟩) (by simp [hc]) hfrontier.symm (by simp [hc]) ?_
    simp
    omega
  · have hpending : ((s.inString quote body c).advance c).pending = .string quote (body.push c) := by
      simp [hc]
    have ht := frontier_of_string hpending
    refine h.mono (by simp [Scan.inString, hc]) (by rw [ht, hfrontier]) (.inr ?_)
    rw [ht, column_advance, column_inString]
    omega

theorem Ordered.step (h : Ordered s) (hr : Reads depth s c t) : Ordered t := by
  have hpos := c.utf8Size_pos
  cases hr with
  | inString hp => exact h.inString hp c
  | blank hq hc =>
    rcases h.begun with hp | hlt
    · refine h.mono rfl ?_ (.inl hp)
      simp [frontier, hp]
    · have ht : (s.advance c).frontier = s.frontier := by
        cases hp : s.pending with
        | nothing => simp [frontier_of_nothing hp] at hlt
        | word start letters => simp [frontier, hp]
        | string quote body => simp [frontier, hp]
      refine h.mono rfl ht.ge (.inr ?_)
      rw [ht, column_advance]
      omega
  | letter hq hc => exact h.letter hq c
  | opener hq hd =>
    exact h.mark hq (lexemes_openParen _) (by simp) (by simp [pending_settle hq]) (by simpa)
  | closer hq =>
    exact h.mark hq (lexemes_closeParen _) (by simp) (by simp [pending_settle hq]) (by simpa)
  | quote hq =>
    have hp := pending_settle hq
    refine h.settle.mono rfl (frontier_of_nothing hp).le (.inr ?_)
    simpa [frontier] using hpos
  | other hq hc =>
    exact h.mark hq (lexemes_unknown _ _ _) rfl (by simp [pending_settle hq]) (by simpa)

theorem ordered_of_run (hr : run depth start a = .ok s) : Ordered s :=
  reached_induction (P := fun _ s => Ordered s) ordered_start (fun _ h hc => h.step hc) hr

/-! ## Lexemes stay -/

theorem lexemes_isPrefix_settle (s : Scan) : s.lexemes.toList <+: s.settle.lexemes.toList := by
  unfold settle
  split
  next => simp
  next => exact List.prefix_rfl

theorem Reads.lexemes_isPrefix (hr : Reads depth s c t) :
    s.lexemes.toList <+: t.lexemes.toList := by
  have hs := lexemes_isPrefix_settle s
  cases hr with
  | inString => simp
  | blank => exact List.prefix_rfl
  | letter =>
    by_cases hk : s.letters ++ [c] = keyword.toList
    · simp [letter_of_keyword hk]
    · simp [letter_of_ne_keyword hk]
  | opener => exact hs.trans (by simp)
  | closer => exact hs.trans (by simp)
  | quote => exact hs
  | other => exact hs.trans (by simp)

theorem lexemes_isPrefix_of_run (hr : run depth s a = .ok t) :
    s.lexemes.toList <+: t.lexemes.toList :=
  run_induction (P := fun _ t => s.lexemes.toList <+: t.lexemes.toList) (a := [])
    (fun h hr => h.trans hr.lexemes_isPrefix) List.prefix_rfl hr

theorem lexemes_isPrefix_of_outcome {f : Findings} (ho : outcome (run depth s a) = .ok f) :
    s.lexemes.toList <+: f.lexemes := by
  rcases outcome_eq_ok_iff.1 ho with ⟨t, hr, rfl⟩ | hr
  · exact (lexemes_isPrefix_of_run hr).trans (lexemes_isPrefix_settle t)
  · obtain ⟨b, rest, t, -, ht, -, rfl⟩ := run_eq_terminated_iff.1 hr
    refine (lexemes_isPrefix_of_run ht).trans ((lexemes_isPrefix_settle t).trans ?_)
    simp [terminated]

end Scan

/-! ## Whole lines -/

/-- A line is read as far as no semicolon outside strings has come, and the rest from there. -/
theorem exists_outcome_of_scan {limits : Limits} {line : String} {f : Findings}
    (hf : limits.scan line = .ok f) (hline : line.toList = a ++ b)
    (hrunning : ';' ∉ Text.outside a) :
    ∃ s, Scan.run limits.depth .start a = .ok s ∧
      Scan.outcome (Scan.run limits.depth s b) = .ok f := by
  obtain ⟨hfits, -⟩ := Limits.scan_eq_ok_iff.1 hf
  rw [Limits.scan_of_le hfits, hline, Scan.run_append] at hf
  cases hs : Scan.run limits.depth .start a with
  | ok s =>
    rw [hs] at hf
    exact ⟨s, rfl, hf⟩
  | error h =>
    rw [hs] at hf
    obtain ⟨t, ht, -⟩ | hend := Scan.outcome_eq_ok_iff.1 hf
    · cases ht
    · -- the semicolon that ends the line would be part of `a`
      obtain rfl : h = .terminated f := by simpa [bind, Except.bind] using hend
      obtain ⟨a', b', t, rfl, ht, hq, -⟩ := Scan.run_eq_terminated_iff.1 hs
      exact absurd (Text.mem_outside_iff.2 ⟨a', b', rfl, (Scan.tracks_of_run ht).even hq⟩) hrunning

/-- What has been found by then comes first in what is found at all. -/
theorem exists_run_of_scan {limits : Limits} {line : String} {f : Findings}
    (hf : limits.scan line = .ok f) (hline : line.toList = a ++ b)
    (hrunning : ';' ∉ Text.outside a) :
    ∃ s, Scan.run limits.depth .start a = .ok s ∧ s.lexemes.toList <+: f.lexemes := by
  obtain ⟨s, hs, ho⟩ := exists_outcome_of_scan hf hline hrunning
  exact ⟨s, hs, Scan.lexemes_isPrefix_of_outcome ho⟩

/-- Each lexeme of a line stands after those before it. -/
theorem columns_increasing_of_scan {limits : Limits} {line : String} {f : Findings}
    (hf : limits.scan line = .ok f) : (columns f.lexemes).Pairwise (· < ·) := by
  obtain ⟨-, ⟨s, hs, rfl⟩ | hend⟩ := Limits.scan_eq_ok_iff.1 hf
  · exact (List.pairwise_append.1 (Scan.ordered_of_run hs).settle.increasing).1
  · obtain ⟨a, b, t, -, ht, hq, rfl⟩ := Scan.run_eq_terminated_iff.1 hend
    have h := (Scan.ordered_of_run ht).settle.increasing
    rw [Scan.frontier_of_nothing (Scan.pending_settle hq)] at h
    simpa [Scan.terminated] using h

end LineLexer
