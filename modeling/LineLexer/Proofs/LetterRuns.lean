import Mathlib.Data.List.Induction
import Mathlib.Order.Bounds.Basic
import LineLexer.Proofs.Columns
import LineLexer.Proofs.Tiling
import LineLexer.Proofs.WellFormed
/-!
# Runs of letters

Outside strings a line falls into runs of letters and blanks (`Text.LetterRun`) and the marks
between them. A scan looks for the keyword letter by letter and starts anew after each one; what
comes of a whole run depends on its letters only: as many keywords as they start with, and one word
of the letters behind these (`Recognised`). Keywords and words come from nowhere else
(`lex_letter_runs`).
-/
namespace LineLexer

open String (utf8Len)

variable {depth : Nat} {s t : Scan} {c : Char} {a b x y w : List Char} {found ls : List Lexeme}
  {columns : List Nat} {k n : Nat}

namespace Text

/-! ## Where letters stand -/

/-- A character that does not end a word. -/
def isInRun (c : Char) : Bool := isLetter c || isBlank c

/-- The part `x` of a line stands outside strings and before any semicolon there. It has letters and
blanks only, and neither next to it. -/
structure LetterRun (line a x b : List Char) : Prop where
  line_eq : line = a ++ x ++ b
  bare : Bare a
  inside : ∀ c ∈ x, isInRun c = true
  left : ∀ c, a.getLast? = some c → isInRun c = false
  right : ∀ c, b.head? = some c → isInRun c = false

/-- The columns of the letters of a text that starts at `column`. -/
def letterColumns (column : Nat) : List Char → List Nat
  | [] => []
  | c :: cs =>
    if isLetter c then column :: letterColumns (column + c.utf8Size) cs
    else letterColumns (column + c.utf8Size) cs

theorem letterColumns_concat (column : Nat) (x : List Char) (c : Char) :
    letterColumns column (x ++ [c]) =
      letterColumns column x ++ if isLetter c then [column + utf8Len x] else [] := by
  induction x generalizing column with
  | nil => simp [letterColumns]
  | cons d x ih =>
    have hcolumn : column + d.utf8Size + utf8Len x = column + utf8Len (d :: x) := by
      rw [String.utf8Len_cons]
      omega
    simp only [List.cons_append, letterColumns, ih, hcolumn]
    split <;> rfl

theorem isInRun_marks {c : Char} (h : isInRun c = true) : c ≠ ';' ∧ c ≠ '"' := by
  constructor <;> rintro rfl <;> exact absurd h (by decide)

/-- Letters and blanks bring no string and no semicolon. -/
theorem bare_append_iff (hx : ∀ c ∈ x, isInRun c = true) : Bare (a ++ x) ↔ Bare a := by
  have hquote : x.count '"' = 0 :=
    List.count_eq_zero_of_not_mem fun hm => (isInRun_marks (hx _ hm)).2 rfl
  have hterminator : ';' ∉ outsideAfter (a.count '"') x := by
    intro hm
    obtain ⟨y, z, rfl, -⟩ := mem_outsideAfter_iff.1 hm
    exact (isInRun_marks (hx ';' (by simp))).1 rfl
  have hcount : (a ++ x).count '"' = a.count '"' := by rw [List.count_append, hquote, Nat.add_zero]
  have hmem : ';' ∈ outside (a ++ x) ↔ ';' ∈ outside a := by
    rw [outside_append, List.mem_append, or_iff_left hterminator]
  exact ⟨fun h => ⟨hcount ▸ h.even, fun hm => h.running (hmem.2 hm)⟩,
    fun h => ⟨hcount ▸ h.even, fun hm => h.running (hmem.1 hm)⟩⟩

/-- A run can be extended on both sides until it is bounded. -/
theorem exists_letterRun (hy : Bare y) (hx : ∀ c ∈ x, isInRun c = true) (b : List Char) :
    ∃ a u v z, LetterRun (y ++ x ++ b) a (u ++ x ++ v) z ∧ y = a ++ u := by
  have hall (cs : List Char) : ∀ c ∈ cs.takeWhile isInRun, isInRun c = true :=
    List.all_eq_true.1 List.all_takeWhile
  have hhead (cs : List Char) : ∀ c, (cs.dropWhile isInRun).head? = some c → isInRun c = false := by
    intro c hc
    have := List.head?_dropWhile_not isInRun cs
    rw [hc] at this
    simpa using this
  have hright := List.takeWhile_append_dropWhile (p := isInRun) (l := b)
  -- to the left of the run the text is read backwards
  have hleft :
      y = (y.reverse.dropWhile isInRun).reverse ++ (y.reverse.takeWhile isInRun).reverse := by
    rw [← List.reverse_append, List.takeWhile_append_dropWhile, List.reverse_reverse]
  have hu : ∀ c ∈ (y.reverse.takeWhile isInRun).reverse, isInRun c = true := fun c hc =>
    hall _ c (List.mem_reverse.1 hc)
  refine ⟨_, _, b.takeWhile isInRun, b.dropWhile isInRun, ⟨?_, ?_, ?_, ?_, hhead b⟩, hleft⟩
  · rw [← List.append_assoc, ← List.append_assoc, ← hleft, List.append_assoc (y ++ x), hright]
  · rw [hleft] at hy
    exact (bare_append_iff hu).1 hy
  · simp only [List.forall_mem_append]
    exact ⟨⟨hu, hx⟩, hall b⟩
  · intro c hc
    rw [List.getLast?_reverse] at hc
    exact hhead _ c hc

theorem length_letterColumns (column : Nat) (x : List Char) :
    (letterColumns column x).length = (x.filter isLetter).length := by
  induction x generalizing column with
  | nil => rfl
  | cons c x ih =>
    by_cases hc : isLetter c = true <;> simp [letterColumns, hc, ih]

/-! ## One word after the other -/

/-- A word `n` times over. -/
def copies (n : Nat) (u : List Char) : List Char := (List.replicate n u).flatten

theorem copies_succ (n : Nat) (u : List Char) : copies (n + 1) u = copies n u ++ u := by
  rw [copies, List.replicate_succ', List.flatten_concat, copies]

theorem length_copies (n : Nat) (u : List Char) : (copies n u).length = u.length * n := by
  simp [copies, Nat.mul_comm]

/-- A text that starts with `k` copies of a word, and not with one more. -/
theorem isGreatest_copies {u rest : List Char} (h : ¬ u <+: rest) (k : Nat) :
    IsGreatest {n | copies n u <+: copies k u ++ rest} k := by
  refine ⟨List.prefix_append _ _, ?_⟩
  intro n hn
  by_contra hlt
  obtain ⟨m, rfl⟩ : ∃ m, n = k + (m + 1) := ⟨n - k - 1, by omega⟩
  have hcopies : copies (k + (m + 1)) u = copies k u ++ (u ++ copies m u) := by
    rw [copies, List.replicate_add, List.flatten_append, List.replicate_succ, List.flatten_cons]
    rfl
  rw [Set.mem_ofPred_eq, hcopies, List.prefix_append_right_inj] at hn
  exact h ((List.prefix_append _ _).trans hn)

end Text

/-! ## What a run is read to -/

/-- The first `k` lexemes are keywords, each at the letter it starts with. -/
def KeywordsAt (columns : List Nat) (k : Nat) (ls : List Lexeme) : Prop :=
  ∀ j < k, ∃ column, columns[keyword.length * j]? = some column ∧
    ls[j]? = some ⟨.print, keyword, column⟩

/-- What comes of a run with the letters `w` at these columns: as many keywords as `w` starts with,
and a word of the letters that are left over. -/
structure Recognised (columns : List Nat) (w : List Char) (k : Nat) (ls : List Lexeme) : Prop where
  largest : IsGreatest {n | Text.copies n keyword.toList <+: w} k
  keywords : KeywordsAt columns k ls
  rest : keyword.length * k < w.length → ∃ column, columns[keyword.length * k]? = some column ∧
    ls[k]? = some ⟨.unknown, String.ofList (w.drop (keyword.length * k)), column⟩
  length : ls.length = k + if keyword.length * k < w.length then 1 else 0

theorem getElem?_append_of_eq_some {α : Type} {l : List α} {i : Nat} {x : α} (h : l[i]? = some x)
    (l' : List α) : (l ++ l')[i]? = some x := by
  obtain ⟨hlt, -⟩ := List.getElem?_eq_some_iff.1 h
  rw [List.getElem?_append_left hlt, h]

theorem KeywordsAt.append (h : KeywordsAt columns k ls) (columns' : List Nat)
    (ls' : List Lexeme) : KeywordsAt (columns ++ columns') k (ls ++ ls') := by
  intro j hj
  obtain ⟨column, hcolumn, hl⟩ := h j hj
  exact ⟨column, getElem?_append_of_eq_some hcolumn _, getElem?_append_of_eq_some hl _⟩

theorem KeywordsAt.succ (h : KeywordsAt columns k ls)
    (hcolumn : columns[keyword.length * k]? = some n)
    (hl : ls[k]? = some ⟨.print, keyword, n⟩) : KeywordsAt columns (k + 1) ls := by
  intro j hj
  rcases Nat.lt_succ_iff_lt_or_eq.1 hj with hlt | rfl
  · exact h j hlt
  · exact ⟨n, hcolumn, hl⟩

namespace Scan

/-- Of the letters `w` of a run so far the first ones spell keywords, and the others are the word
that the scan is in. -/
structure InRun (found : List Lexeme) (columns : List Nat) (w : List Char) (k : Nat)
    (s : Scan) : Prop where
  outside : s.openQuote? = none
  letters : w = Text.copies k keyword.toList ++ s.letters
  begun : s.pending = .nothing ∨ columns[keyword.length * k]? = some s.wordStart
  lexemes : ∃ ls, s.lexemes.toList = found ++ ls ∧ ls.length = k ∧ KeywordsAt columns k ls

theorem letters_of_nothing (h : s.pending = .nothing) : s.letters = [] := by
  simp [letters, h]

theorem inRun_nil (hp : s.pending = .nothing) : InRun s.lexemes.toList [] [] 0 s where
  outside := openQuote?_of_nothing hp
  letters := by simp [letters_of_nothing hp, Text.copies]
  begun := .inl hp
  lexemes := ⟨[], by simp, rfl, by simp [KeywordsAt]⟩

theorem InRun.blank (h : InRun found columns w k s) (c : Char) :
    InRun found columns w k (s.advance c) where
  outside := h.outside
  letters := h.letters
  begun := by
    cases hp : s.pending with
    | nothing => exact .inl hp
    | word start letters => simpa [hp, wordStart] using h.begun
    | string quote body => simpa [openQuote?_of_string hp] using h.outside
  lexemes := h.lexemes

/-- The word starts at the letter behind the keywords. -/
theorem InRun.wordStart (h : InRun found columns w k s) (hlength : columns.length = w.length) :
    (columns ++ [s.column])[keyword.length * k]? = some s.wordStart := by
  rcases h.begun with hp | hstart
  · have hk : keyword.length * k = columns.length := by
      rw [hlength, h.letters, letters_of_nothing hp, List.append_nil, Text.length_copies,
        String.length_toList]
    rw [hk, List.getElem?_concat_length]
    simp [Scan.wordStart, hp]
  · exact getElem?_append_of_eq_some hstart _

theorem InRun.letter (h : InRun found columns w k s) (hlength : columns.length = w.length)
    (c : Char) :
    ∃ k', InRun found (columns ++ [s.column]) (w ++ [c]) k' ((s.letter c).advance c) := by
  have hstart := h.wordStart hlength
  obtain ⟨ls, hl, hlast, hkeywords⟩ := h.lexemes
  by_cases hk : s.letters ++ [c] = keyword.toList
  · rw [letter_of_keyword hk]
    refine ⟨k + 1, rfl, ?_, .inl rfl, ls ++ [⟨.print, keyword, s.wordStart⟩],
      by simp [emit, hl], by simp [hlast], ?_⟩
    · rw [letters_of_nothing rfl, h.letters, List.append_assoc, hk, Text.copies_succ,
        List.append_nil]
    · refine (hkeywords.append _ _).succ hstart ?_
      rw [← hlast]
      exact List.getElem?_concat_length
  · rw [letter_of_ne_keyword hk]
    refine ⟨k, rfl, by simp [h.letters, Scan.letters], .inr hstart, ls, hl, hlast, ?_⟩
    simpa using hkeywords.append [s.column] []

/-- What has become of a run when the word it ends in is given up. -/
theorem InRun.recognised (h : InRun found columns w k s) (hlexed : Lexed depth s)
    (hlength : columns.length = w.length) :
    ∃ ls, s.settle.lexemes.toList = found ++ ls ∧ Recognised columns w k ls := by
  obtain ⟨ls, hl, hlast, hkeywords⟩ := h.lexemes
  have hw : w.length = keyword.length * k + s.letters.length := by
    rw [h.letters, List.length_append, Text.length_copies, String.length_toList]
  have hdrop : w.drop (keyword.length * k) = s.letters := by
    rw [h.letters, ← String.length_toList, ← Text.length_copies, List.drop_left]
  cases hp : s.pending with
  | nothing =>
    have hletters := letters_of_nothing hp
    have hshort : ¬ keyword.length * k < w.length := by
      rw [hw, hletters, List.length_nil]
      omega
    refine ⟨ls, by rw [settle_of_nothing hp, hl], ?_, hkeywords, fun hlt => ?_, ?_⟩
    · rw [h.letters, hletters]
      exact Text.isGreatest_copies (by decide) k
    · exact absurd hlt hshort
    · rw [if_neg hshort]
      exact hlast
  | word start letters =>
    have hletters : s.letters = letters.toList := by simp [Scan.letters, hp]
    have hstart : columns[keyword.length * k]? = some start := by
      simpa [hp, Scan.wordStart] using h.begun
    obtain ⟨hlt, -⟩ := List.getElem?_eq_some_iff.1 hstart
    have hword := hlexed.word start letters hp
    refine ⟨ls ++ [⟨.unknown, letters, start⟩], ?_, ?_, ?_, fun _ => ⟨start, hstart, ?_⟩, ?_⟩
    · rw [lexemes_settle_of_word hp, hl, List.append_assoc]
    · rw [h.letters, hletters]
      exact Text.isGreatest_copies hword.noKeyword k
    · simpa using hkeywords.append [] [⟨.unknown, letters, start⟩]
    · rw [hdrop, hletters, String.ofList_toList, ← hlast, List.getElem?_concat_length]
    · rw [if_pos (by omega), List.length_append, hlast, List.length_singleton]
  | string quote body => simpa [openQuote?_of_string hp] using h.outside

/-! ## From one end of a run to the other -/

theorem Reads.inRun (hr : Reads depth s c t) (h : InRun found columns w k s)
    (hlength : columns.length = w.length) (hc : Text.isInRun c = true) :
    ∃ k', InRun found (columns ++ if Text.isLetter c then [s.column] else [])
      (w ++ [c].filter Text.isLetter) k' t := by
  have hq := h.outside
  cases hr with
  | inString hp => simp [openQuote?_of_string hp] at hq
  | blank _ hblank =>
    simp only [Text.not_isLetter_of_isBlank hblank]
    exact ⟨k, by simpa [Text.not_isLetter_of_isBlank hblank] using h.blank c⟩
  | letter _ hletter => simpa [hletter] using h.letter hlength c
  | opener => exact absurd hc (by decide)
  | closer => exact absurd hc (by decide)
  | quote => exact absurd hc (by decide)
  | other _ hrole =>
    obtain ⟨hletter, hblank, -⟩ := Text.Role.of_eq_other_iff.1 hrole
    simp [Text.isInRun, hletter, hblank] at hc

theorem inRun_of_run (hp : s.pending = .nothing) (hx : ∀ c ∈ x, Text.isInRun c = true)
    (hr : run depth s x = .ok t) :
    t.column = s.column + utf8Len x ∧
      ∃ k, InRun s.lexemes.toList (Text.letterColumns s.column x) (x.filter Text.isLetter) k t := by
  -- the run grows at its end, where the scan is
  induction x using List.reverseRecOn generalizing t with
  | nil =>
    cases hr
    exact ⟨by simp, 0, inRun_nil hp⟩
  | append_singleton x c ih =>
    obtain ⟨u, hu, hlast⟩ := run_append_eq_ok_iff.1 hr
    obtain ⟨v, hc, hend⟩ := run_cons_eq_ok_iff.1 hlast
    cases hend
    rw [List.forall_mem_append, List.forall_mem_singleton] at hx
    obtain ⟨hcolumn, k, hrun⟩ := ih hx.1 hu
    refine ⟨?_, ?_⟩
    · rw [hc.column, hcolumn, String.utf8Len_append, Nat.add_assoc]
      simp
    · rw [Text.letterColumns_concat, List.filter_append, ← hcolumn]
      exact hc.inRun hrun (Text.length_letterColumns _ _) hx.2

/-- Behind a mark, and outside strings, nothing is pending. -/
theorem Reads.pending_of_mark (hr : Reads depth s c t) (hq : t.openQuote? = none)
    (hc : Text.isInRun c = false) : t.pending = .nothing := by
  cases hr with
  | @inString quote body _ hp =>
    by_cases hquote : c = '"'
    · simp [hquote]
    · simp [openQuote?, hquote] at hq
  | blank _ hblank => simp [Text.isInRun, hblank] at hc
  | letter _ hletter => simp [Text.isInRun, hletter] at hc
  | opener hq' => simp [pending_settle hq']
  | closer hq' => simp [pending_settle hq']
  | quote => simp [openQuote?] at hq
  | other hq' => simp [pending_settle hq']

/-- A run starts with nothing pending. -/
theorem pending_of_run (hr : run depth start a = .ok s) (hq : s.openQuote? = none)
    (hleft : ∀ c, a.getLast? = some c → Text.isInRun c = false) : s.pending = .nothing := by
  rcases List.eq_nil_or_concat' a with rfl | ⟨a', c, rfl⟩
  · cases hr
    rfl
  · obtain ⟨u, -, hu⟩ := run_append_eq_ok_iff.1 hr
    obtain ⟨v, hv, hend⟩ := run_cons_eq_ok_iff.1 hu
    cases hend
    exact hv.pending_of_mark hq (hleft c (by simp))

/-- Behind a run the word is given up. -/
theorem outcome_run_settle (hq : s.openQuote? = none)
    (hright : ∀ c, b.head? = some c → Text.isInRun c = false) :
    outcome (run depth s.settle b) = outcome (run depth s b) := by
  have hsettle : s.settle.settle = s.settle := settle_of_nothing (pending_settle hq)
  cases b with
  | nil => simp [outcome, hsettle]
  | cons c b =>
    have hc := hright c rfl
    have hstep : step depth s.settle c = step depth s c := by
      rw [step_outside (by simpa using hq), step_outside hq]
      unfold outside
      cases hrole : Text.Role.of c with
      | blank => simp [Text.isInRun, Text.Role.of_eq_blank_iff.1 hrole] at hc
      | letter => simp [Text.isInRun, Text.Role.of_eq_letter_iff.1 hrole] at hc
      | _ => rw [hsettle]
    rw [run_cons, run_cons, hstep]

theorem Tracks.settle (h : Tracks a s) (hq : s.openQuote? = none) : Tracks a s.settle where
  column := by simp [h.column]
  running := h.running
  nested := by simp [h.nested]
  even _ := h.even hq
  string := by simp [pending_settle hq]

end Scan

/-! ## Whole lines -/

variable {limits : Limits} {line : String} {f : Findings} {l : Lexeme}

/-- What a run is read to stands between what is read before it and what is read behind it. -/
theorem exists_recognised (hf : limits.scan line = .ok f)
    (hrun : Text.LetterRun line.toList a x b) :
    ∃ before ls after k, f.lexemes = before ++ ls ++ after ∧
      Recognised (Text.letterColumns (utf8Len a) x) (x.filter Text.isLetter) k ls ∧
      (∀ l ∈ before, l.column < utf8Len a) ∧ ∀ l ∈ after, utf8Len (a ++ x) ≤ l.column := by
  have hbare := (Text.bare_append_iff hrun.inside).2 hrun.bare
  obtain ⟨t, ht, ho⟩ := exists_outcome_of_scan hf hrun.line_eq hbare.running
  obtain ⟨s, hs, hx⟩ := Scan.run_append_eq_ok_iff.1 ht
  have hstracks := Scan.tracks_of_run hs
  have hsq := hstracks.openQuote?_eq_none_iff.2 hrun.bare.even
  have hsp := Scan.pending_of_run hs hsq hrun.left
  have httracks := Scan.tracks_of_run ht
  have htq := httracks.openQuote?_eq_none_iff.2 hbare.even
  obtain ⟨-, k, hinrun⟩ := Scan.inRun_of_run hsp hrun.inside hx
  obtain ⟨ls, hls, hrecognised⟩ :=
    hinrun.recognised (Scan.lexed_of_run ht) (Text.length_letterColumns _ _)
  rw [← Scan.outcome_run_settle htq hrun.right] at ho
  obtain ⟨ps, b', rest, -, hps, htiles⟩ :=
    Scan.exists_tiles_of_outcome (httracks.settle htq) (Scan.pending_settle htq) ho
  refine ⟨s.lexemes.toList, ls, ps.map (·.1), k, by rw [hps, hls], ?_, ?_, ?_⟩
  · rwa [hstracks.column] at hrecognised
  · intro l hl
    have hlt := (Scan.ordered_of_run hs).column_lt_frontier hl
    rwa [Scan.frontier_of_nothing hsp, hstracks.column] at hlt
  · simp only [List.forall_mem_map]
    intro p hp
    obtain ⟨y, z, -, hcolumn, -⟩ := htiles.exists_of_mem hp
    simp only [hcolumn, String.utf8Len_append]
    omega

/-- A text with a letter in it is all letters. -/
theorem Fits.isLetter {text : String} {kind : Lexeme.Kind} (h : Fits (kind, text))
    (hkind : kind = .print ∨ kind = .unknown ∧ ∃ c ∈ text.toList, Text.isLetter c = true) :
    kind ≠ .literal ∧ ∀ c ∈ text.toList, Text.isLetter c = true := by
  cases h with
  | print => exact ⟨by simp, List.all_eq_true.1 (by decide)⟩
  | word h => exact ⟨by simp, h.letters⟩
  | stray => simp [Text.isLetter] at hkind
  | other hc => simp [hc] at hkind
  | _ => simp at hkind

/-- What has letters is read from a run. -/
theorem exists_letterRun_of_mem (hf : limits.scan line = .ok f) (hl : l ∈ f.lexemes)
    (hkind : l.kind = .print ∨ l.kind = .unknown ∧ ∃ c ∈ l.text.toList, Text.isLetter c = true) :
    ∃ a x b, Text.LetterRun line.toList a x b ∧ utf8Len a ≤ l.column ∧
      l.column < utf8Len (a ++ x) := by
  obtain ⟨ps, y, rest, hline, hlexemes, htiles⟩ := exists_tiles_of_scan hf
  obtain ⟨hliteral, hletters⟩ := (fits_of_mem hf hl).isLetter hkind
  obtain ⟨p, hp, rfl⟩ : ∃ p ∈ ps, p.1 = l := by simpa [hlexemes] using hl
  obtain ⟨y', z, rfl, hcolumn, hbare, hcovers⟩ := htiles.exists_of_mem hp
  rw [List.nil_append] at hcolumn hbare
  have hspread := hcovers.spread hliteral
  have hinside : ∀ c ∈ p.2, Text.isInRun c = true := by
    intro c hc
    cases hblank : Text.isBlank c with
    | true => simp [Text.isInRun, hblank]
    | false =>
      have hmem : c ∈ p.1.text.toList := by
        rw [← hspread.text]
        simp [hc, hblank]
      simp [Text.isInRun, hletters c hmem]
  obtain ⟨a, u, v, b, hrun, hy⟩ := Text.exists_letterRun hbare hinside (z ++ rest)
  have hpos := hcovers.utf8Len_pos
  refine ⟨a, u ++ p.2 ++ v, b, ?_, ?_, ?_⟩
  · rw [hline]
    simpa using hrun
  · rw [hcolumn, hy, String.utf8Len_append]
    omega
  · rw [hcolumn, hy]
    simp only [String.utf8Len_append]
    omega

/-- A run of letters and blanks is read to as many keywords as its letters start with, each where
its first letter stands, and behind these to one word of the letters left over, if there are any.
Keywords, and texts without use that have a letter in them, are read from runs only. -/
theorem lex_letter_runs {place : Place} {text : String} {r : Reading}
    (hr : limits.lex place text = .ok r) :
    let line := (Text.dropEnding text).toList
    (∀ a x b, Text.LetterRun line a x b → ∃ before ts after k,
      r.tokens = before ++ ts ++ after ∧
      Recognised (Text.letterColumns (utf8Len a) x) (x.filter Text.isLetter) k
        (ts.map (·.toLexeme)) ∧
      (∀ t ∈ before, t.column < utf8Len a) ∧ ∀ t ∈ after, utf8Len (a ++ x) ≤ t.column) ∧
    ∀ t ∈ r.tokens,
      (t.kind = .print ∨ t.kind = .unknown ∧ ∃ c ∈ t.text.toList, Text.isLetter c = true) →
      ∃ a x b, Text.LetterRun line a x b ∧ utf8Len a ≤ t.column ∧ t.column < utf8Len (a ++ x) := by
  intro line
  obtain ⟨f, hf, rfl⟩ := Limits.lex_eq_ok_iff.1 hr
  refine ⟨fun a x b hrun => ?_, ?_⟩
  · obtain ⟨before, ls, after, k, hl, hrecognised, hbefore, hafter⟩ := exists_recognised hf hrun
    refine ⟨before.map (·.onLine place.line), ls.map (·.onLine place.line),
      after.map (·.onLine place.line), k, by simp [Findings.atPlace, hl], ?_, ?_, ?_⟩
    · simpa [Function.comp_def] using hrecognised
    · simpa only [List.forall_mem_map, Lexeme.toLexeme_onLine] using hbefore
    · simpa only [List.forall_mem_map, Lexeme.toLexeme_onLine] using hafter
  · simp only [Findings.atPlace, List.forall_mem_map, Lexeme.toLexeme_onLine]
    exact fun l hl hkind => exists_letterRun_of_mem hf hl hkind

/-- Two keywords with a tab in the first one and a word behind them, then a word between a string
and a semicolon. -/
theorem lex_letter_runs_two :
    ∃ r, Limits.lex {} ⟨"f", 1⟩ "(ex\tposedexposed ab\"exposed\"cd;exposed" = .ok r ∧
      r.tokens.map (·.toLexeme) = [⟨.opener, "(", 0⟩, ⟨.print, "exposed", 1⟩,
        ⟨.print, "exposed", 9⟩, ⟨.unknown, "ab", 17⟩, ⟨.literal, "exposed", 19⟩,
        ⟨.unknown, "cd", 28⟩, ⟨.terminator, ";", 30⟩] ∧
      (∃ before ts after k, r.tokens = before ++ ts ++ after ∧
        Recognised [1, 2, 4, 5, 6, 7, 8, 9, 10, 11, 12, 13, 14, 15, 17, 18]
          "exposedexposedab".toList k (ts.map (·.toLexeme)) ∧
        (∀ t ∈ before, t.column < 1) ∧ ∀ t ∈ after, 19 ≤ t.column) ∧
      ∃ a x b, Text.LetterRun "(ex\tposedexposed ab\"exposed\"cd;exposed".toList a x b ∧
        utf8Len a ≤ 28 ∧ 28 < utf8Len (a ++ x) := by
  have hr : Limits.lex {} ⟨"f", 1⟩ "(ex\tposedexposed ab\"exposed\"cd;exposed" = .ok
      ⟨[⟨⟨.opener, "(", 0⟩, 1⟩, ⟨⟨.print, "exposed", 1⟩, 1⟩, ⟨⟨.print, "exposed", 9⟩, 1⟩,
          ⟨⟨.unknown, "ab", 17⟩, 1⟩, ⟨⟨.literal, "exposed", 19⟩, 1⟩, ⟨⟨.unknown, "cd", 28⟩, 1⟩,
          ⟨⟨.terminator, ";", 30⟩, 1⟩],
        [⟨⟨.unknown "ab", 0⟩, ⟨"f", 1⟩⟩, ⟨⟨.unknown "cd", 0⟩, ⟨"f", 1⟩⟩,
          ⟨⟨.unclosedParen, 0⟩, ⟨"f", 1⟩⟩]⟩ := by decide
  have hline : Text.dropEnding "(ex\tposedexposed ab\"exposed\"cd;exposed" =
      "(ex\tposedexposed ab\"exposed\"cd;exposed" := by decide
  have hrun : Text.LetterRun "(ex\tposedexposed ab\"exposed\"cd;exposed".toList "(".toList
      "ex\tposedexposed ab".toList "\"exposed\"cd;exposed".toList :=
    ⟨by decide, ⟨by decide, by decide⟩, List.all_eq_true.1 (by decide),
      by simp [Text.isInRun, Text.isLetter, Text.isBlank],
      by simp [Text.isInRun, Text.isLetter, Text.isBlank]⟩
  obtain ⟨hruns, hwords⟩ := lex_letter_runs hr
  rw [hline] at hruns hwords
  refine ⟨_, hr, rfl, hruns _ _ _ hrun, ?_⟩
  exact hwords ⟨⟨.unknown, "cd", 28⟩, 1⟩ (by simp) (.inr ⟨rfl, 'c', by decide, by decide⟩)

end LineLexer
