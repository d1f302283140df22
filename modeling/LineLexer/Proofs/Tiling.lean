import Mathlib.Algebra.GroupWithZero.Nat
import LineLexer.Proofs.Outside
/-!
# What each lexeme is read from

A line is the stretches that its lexemes are read from, one after the other, with blanks in between
(`Tiles`); what follows the semicolon is left over, or a string without an end. Each stretch starts
outside strings. A scan keeps to this from any state in which nothing is pending, whatever it has
read before (`tiled_of_run`).
-/
namespace LineLexer

open String (utf8Len)

variable {depth : Nat} {s t : Scan} {c : Char} {l : Lexeme} {before : List Lexeme}
  {a b x front gap w : List Char} {ps : List (Lexeme × List Char)}

namespace Text

/-! ## Stretches -/

/-- The text `w` with blanks in between, and none around it. -/
structure Spread (w x : List Char) : Prop where
  text : x.filter (fun c => !isBlank c) = w
  head : ∃ c, x.head? = some c ∧ isBlank c = false
  last : ∃ c, x.getLast? = some c ∧ isBlank c = false

theorem spread_singleton (hc : isBlank c = false) : Spread [c] [c] where
  text := by simp [hc]
  head := ⟨c, rfl, hc⟩
  last := ⟨c, rfl, hc⟩

theorem filter_of_blanks (h : ∀ c ∈ gap, isBlank c = true) :
    gap.filter (fun c => !isBlank c) = [] := by
  simpa using h

theorem Spread.concat (h : Spread w x) (hgap : ∀ c ∈ gap, isBlank c = true)
    (hc : isBlank c = false) : Spread (w ++ [c]) (x ++ gap ++ [c]) where
  text := by simp [h.text, filter_of_blanks hgap, hc]
  head := by
    obtain ⟨d, hd, hblank⟩ := h.head
    exact ⟨d, by simp [hd], hblank⟩
  last := ⟨c, by simp, hc⟩

theorem Spread.utf8Len_le (h : Spread w x) : utf8Len w ≤ utf8Len x := by
  rw [← h.text]
  exact String.utf8Len_le_of_sublist List.filter_sublist

/-- The text ends outside strings, and no semicolon has ended the line. -/
structure Bare (cs : List Char) : Prop where
  even : cs.count '"' % 2 = 0
  running : ';' ∉ outside cs

end Text

/-- What a lexeme can be read from: a string from all between its quotes, anything else from a
stretch with blanks in it. -/
def Lexeme.Covers (l : Lexeme) (x : List Char) : Prop :=
  if l.kind = .literal then x = '"' :: l.text.toList ++ ['"'] else Text.Spread l.text.toList x

theorem Lexeme.covers_literal (body : String) (column : Nat) :
    Lexeme.Covers ⟨.literal, body, column⟩ ('"' :: body.toList ++ ['"']) := by
  simp [Lexeme.Covers]

theorem Lexeme.covers_of_spread (h : Text.Spread l.text.toList x) (hl : l.kind ≠ .literal) :
    l.Covers x := by
  rwa [Lexeme.Covers, if_neg hl]

theorem Lexeme.Covers.spread (h : l.Covers x) (hl : l.kind ≠ .literal) :
    Text.Spread l.text.toList x := by
  rwa [Lexeme.Covers, if_neg hl] at h

theorem Lexeme.Covers.eq_quoted (h : l.Covers x) (hl : l.kind = .literal) :
    x = '"' :: l.text.toList ++ ['"'] := by
  rwa [Lexeme.Covers, if_pos hl] at h

/-- A stretch starts with a character that is seen. -/
theorem Lexeme.Covers.head (h : l.Covers x) : ∃ c, x.head? = some c ∧ Text.isBlank c = false := by
  by_cases hl : l.kind = .literal
  · exact ⟨'"', by simp [h.eq_quoted hl], rfl⟩
  · exact (h.spread hl).head

theorem Lexeme.Covers.utf8Len_pos (h : l.Covers x) : 0 < utf8Len x := by
  obtain ⟨c, hc, -⟩ := h.head
  obtain ⟨y, rfl⟩ := List.head?_eq_some_iff.1 hc
  have := c.utf8Size_pos
  rw [String.utf8Len_cons]
  omega

/-- A stretch is no shorter than the text and its quotes. -/
theorem Lexeme.Covers.size_le (h : l.Covers x) :
    l.text.utf8ByteSize + (if l.kind = .literal then 2 else 0) ≤ utf8Len x := by
  rw [← String.utf8Len_toList]
  by_cases hl : l.kind = .literal
  · have hquote : '"'.utf8Size = 1 := rfl
    simp only [h.eq_quoted hl, hl, if_true, String.utf8Len_append, String.utf8Len_cons,
      String.utf8Len_nil, hquote]
    omega
  · simpa [hl] using (h.spread hl).utf8Len_le

/-! ## One stretch after the other -/

/-- The text `a` behind `front` is the stretches of these lexemes, and blanks around them. -/
inductive Tiles (front : List Char) : List (Lexeme × List Char) → List Char → Prop
  | nothing : Tiles front [] []
  | blank {ps : List (Lexeme × List Char)} {a : List Char} {c : Char} :
      Tiles front ps a → Text.isBlank c = true → Tiles front ps (a ++ [c])
  | lexeme {ps : List (Lexeme × List Char)} {a x : List Char} {l : Lexeme} :
      Tiles front ps a → Text.Bare (front ++ a) → l.column = utf8Len (front ++ a) → l.Covers x →
        Tiles front (ps ++ [(l, x)]) (a ++ x)

namespace Tiles

theorem blanks (h : Tiles front ps a) (hgap : ∀ c ∈ gap, Text.isBlank c = true) :
    Tiles front ps (a ++ gap) := by
  induction gap generalizing a with
  | nil => simpa using h
  | cons c gap ih =>
    simpa using ih (h.blank (hgap c (by simp))) fun d hd => hgap d (by simp [hd])

/-- Where a lexeme stands. -/
theorem exists_of_mem {p : Lexeme × List Char} (h : Tiles front ps a) (hp : p ∈ ps) :
    ∃ b rest, a = b ++ p.2 ++ rest ∧ p.1.column = utf8Len (front ++ b) ∧
      Text.Bare (front ++ b) ∧ p.1.Covers p.2 := by
  induction h with
  | nothing => simp at hp
  | @blank ps a c _ _ ih =>
    obtain ⟨b, rest, rfl, hb⟩ := ih hp
    exact ⟨b, rest ++ [c], by simp, hb⟩
  | @lexeme ps a x l _ hbare hcolumn hcovers ih =>
    rw [List.mem_append, List.mem_singleton] at hp
    rcases hp with hp | rfl
    · obtain ⟨b, rest, rfl, hb⟩ := ih hp
      exact ⟨b, rest ++ x, by simp, hb⟩
    · exact ⟨a, [], by simp, hcolumn, hbare, hcovers⟩

theorem end_le {p : Lexeme × List Char} (h : Tiles front ps a) (hp : p ∈ ps) :
    p.1.column + utf8Len p.2 ≤ utf8Len (front ++ a) := by
  obtain ⟨b, rest, rfl, hcolumn, -⟩ := h.exists_of_mem hp
  simp only [hcolumn, String.utf8Len_append]
  omega

/-- No stretch starts before the one in front of it has ended. -/
theorem pairwise (h : Tiles front ps a) :
    ps.Pairwise fun p q => p.1.column + utf8Len p.2 ≤ q.1.column := by
  induction h with
  | nothing => exact .nil
  | blank _ _ ih => exact ih
  | lexeme h _ hcolumn _ ih =>
    refine List.pairwise_append.2 ⟨ih, List.pairwise_singleton _ _, ?_⟩
    intro p hp q hq
    rw [List.mem_singleton.1 hq, hcolumn]
    exact h.end_le hp

/-- The texts, with the quotes of the strings, do not take up more than the text has. -/
theorem texts_le (h : Tiles front ps a) :
    (ps.map fun p => p.1.text.utf8ByteSize).sum + 2 * ps.countP (fun p => p.1.kind = .literal) ≤
      utf8Len a := by
  induction h with
  | nothing => simp
  | blank _ _ ih =>
    rw [String.utf8Len_append]
    omega
  | @lexeme ps a x l _ _ _ hcovers ih =>
    have hsize := hcovers.size_le
    simp only [List.map_append, List.map_cons, List.map_nil, List.sum_append, List.sum_cons,
      List.sum_nil, List.countP_append, List.countP_singleton, decide_eq_true_eq,
      String.utf8Len_append]
    split at hsize <;> simp [*] <;> omega

/-- No stretch is empty. -/
theorem length_le (h : Tiles front ps a) : ps.length ≤ utf8Len a := by
  induction h with
  | nothing => simp
  | blank _ _ ih =>
    rw [String.utf8Len_append]
    omega
  | lexeme _ _ _ hcovers ih =>
    have hpos := hcovers.utf8Len_pos
    rw [List.length_append, List.length_singleton, String.utf8Len_append]
    omega

end Tiles

namespace Scan

/-! ## What a scan has read them from -/

/-- What a scan has made of `a`, which it read behind `front` when the lexemes `before` had been
found. What is in the making starts where the last stretch and the blanks behind it end. -/
inductive Tiled (front : List Char) (before : List Lexeme) (a : List Char) (s : Scan) : Prop
  | nothing (ps : List (Lexeme × List Char)) : s.pending = .nothing →
      s.lexemes.toList = before ++ ps.map (·.1) → Tiles front ps a → Tiled front before a s
  | word (ps : List (Lexeme × List Char)) (b x gap : List Char) (letters : String) :
      s.pending = .word (utf8Len (front ++ b)) letters →
      s.lexemes.toList = before ++ ps.map (·.1) → Tiles front ps b → Text.Bare (front ++ b) →
      Text.Spread letters.toList x → (∀ c ∈ gap, Text.isBlank c = true) → a = b ++ (x ++ gap) →
      Tiled front before a s
  | string (ps : List (Lexeme × List Char)) (b : List Char) (body : String) :
      s.pending = .string (utf8Len (front ++ b)) body →
      s.lexemes.toList = before ++ ps.map (·.1) → Tiles front ps b → Text.Bare (front ++ b) →
      a = b ++ '"' :: body.toList → Tiled front before a s

theorem Tracks.bare (h : Tracks a s) (hq : s.openQuote? = none) : Text.Bare a :=
  ⟨h.even hq, h.running⟩

/-- Outside strings the word is a stretch like any other, once it is given up. -/
theorem Tiled.settle (h : Tiled front before a s) (hq : s.openQuote? = none) :
    ∃ ps, s.settle.lexemes.toList = before ++ ps.map (·.1) ∧ Tiles front ps a := by
  cases h with
  | nothing ps hp hl ht => exact ⟨ps, by rw [settle_of_nothing hp, hl], ht⟩
  | word ps b x gap letters hp hl ht hb hx hgap ha =>
    refine ⟨ps ++ [(⟨.unknown, letters, utf8Len (front ++ b)⟩, x)],
      by simp [lexemes_settle_of_word hp, hl], ?_⟩
    rw [ha, ← List.append_assoc]
    exact (ht.lexeme hb rfl (Lexeme.covers_of_spread hx (by simp))).blanks hgap
  | string _ _ _ hp => simp [openQuote?_of_string hp] at hq

/-- A character that is a lexeme of its own, and ends the word. -/
theorem Tiled.mark (h : Tiled front before a s) (ht : Tracks (front ++ a) s)
    (hq : s.openQuote? = none) (hc : Text.isBlank c = false)
    (hl : t.lexemes.toList = s.settle.lexemes.toList ++ [l]) (hkind : l.kind ≠ .literal)
    (htext : l.text.toList = [c]) (hcolumn : l.column = s.column) (hp : t.pending = .nothing) :
    Tiled front before (a ++ [c]) t := by
  obtain ⟨ps, hps, htiles⟩ := h.settle hq
  have hcovers : l.Covers [c] := by
    refine Lexeme.covers_of_spread ?_ hkind
    rw [htext]
    exact Text.spread_singleton hc
  refine .nothing (ps ++ [(l, [c])]) hp (by simp [hl, hps]) ?_
  exact htiles.lexeme (ht.bare hq) (by rw [hcolumn, ht.column]) hcovers

/-- Where the word starts that the next letter joins, and what it is read from then. -/
theorem Tiled.exists_word (h : Tiled front before a s) (ht : Tracks (front ++ a) s)
    (hq : s.openQuote? = none) (hc : Text.isBlank c = false) :
    ∃ ps b y, s.lexemes.toList = before ++ ps.map (·.1) ∧ Tiles front ps b ∧
      Text.Bare (front ++ b) ∧ s.wordStart = utf8Len (front ++ b) ∧ a = b ++ y ∧
      Text.Spread (s.letters ++ [c]) (y ++ [c]) := by
  cases h with
  | nothing ps hp hl htiles =>
    refine ⟨ps, a, [], hl, htiles, ht.bare hq, ?_, by simp, ?_⟩
    · simp [wordStart, hp, ht.column]
    · simpa [letters, hp] using Text.spread_singleton hc
  | word ps b x gap letters hp hl htiles hb hx hgap ha =>
    refine ⟨ps, b, x ++ gap, hl, htiles, hb, by simp [wordStart, hp], ha, ?_⟩
    simpa [Scan.letters, hp] using hx.concat hgap hc
  | string _ _ _ hp => simp [openQuote?_of_string hp] at hq

theorem Tiled.letter (h : Tiled front before a s) (ht : Tracks (front ++ a) s)
    (hq : s.openQuote? = none) (hc : Text.isLetter c = true) :
    Tiled front before (a ++ [c]) ((s.letter c).advance c) := by
  obtain ⟨ps, b, y, hl, htiles, hb, hstart, rfl, hspread⟩ :=
    h.exists_word ht hq (Text.not_isBlank_of_isLetter hc)
  by_cases hk : s.letters ++ [c] = keyword.toList
  · have hcovers : Lexeme.Covers ⟨.print, keyword, s.wordStart⟩ (y ++ [c]) := by
      refine Lexeme.covers_of_spread ?_ (by simp)
      rwa [← hk]
    rw [letter_of_keyword hk, List.append_assoc]
    refine .nothing (ps ++ [(⟨.print, keyword, s.wordStart⟩, y ++ [c])]) rfl ?_
      (htiles.lexeme hb hstart hcovers)
    simp [emit, hl]
  · rw [letter_of_ne_keyword hk, hstart]
    exact .word ps b (y ++ [c]) [] _ rfl hl htiles hb (by rwa [String.toList_ofList]) (by simp)
      (by simp)

theorem Tiled.inString {quote : Nat} {body : String} (h : Tiled front before a s)
    (hp : s.pending = .string quote body) (c : Char) :
    Tiled front before (a ++ [c]) ((s.inString quote body c).advance c) := by
  cases h with
  | nothing _ hp' => simp [hp] at hp'
  | word _ _ _ _ _ hp' => simp [hp] at hp'
  | string ps b body' hp' hl htiles hb ha =>
    obtain ⟨rfl, rfl⟩ : quote = utf8Len (front ++ b) ∧ body = body' := by simpa [hp] using hp'
    by_cases hc : c = '"'
    · have hcovers := Lexeme.covers_literal body (utf8Len (front ++ b))
      have htiles' := htiles.lexeme hb rfl hcovers
      refine .nothing
        (ps ++ [(⟨.literal, body, utf8Len (front ++ b)⟩, '"' :: body.toList ++ ['"'])])
        (by simp [hc]) (by simp [hc, hl]) ?_
      simpa [ha, hc] using htiles'
    · exact .string ps b (body.push c) (by simp [hc]) (by simp [hc, hl]) htiles hb (by simp [ha])

theorem Tiled.step (h : Tiled front before a s) (ht : Tracks (front ++ a) s)
    (hr : Reads depth s c t) : Tiled front before (a ++ [c]) t := by
  cases hr with
  | inString hp => exact h.inString hp c
  | blank hq hc =>
    cases h with
    | nothing ps hp hl htiles => exact .nothing ps hp hl (htiles.blank hc)
    | word ps b x gap letters hp hl htiles hb hx hgap ha =>
      refine .word ps b x (gap ++ [c]) letters hp hl htiles hb hx ?_ (by simp [ha])
      simpa [or_imp, forall_and, hc] using hgap
    | string _ _ _ hp => simp [openQuote?_of_string hp] at hq
  | letter hq hc => exact h.letter ht hq hc
  | opener hq hd =>
    exact h.mark ht hq rfl (lexemes_openParen _) (by simp) (by simp) (by simp)
      (by simp [pending_settle hq])
  | closer hq =>
    refine h.mark ht hq rfl (lexemes_closeParen _) ?_ (by simp) (by simp)
      (by simp [pending_settle hq])
    simp only
    split <;> simp
  | quote hq =>
    obtain ⟨ps, hl, htiles⟩ := h.settle hq
    refine .string ps a "" ?_ (by simpa using hl) htiles (ht.bare hq) (by simp)
    simp [ht.column]
  | other hq hc =>
    exact h.mark ht hq (Text.Role.of_eq_other_iff.1 hc).2.1 (lexemes_unknown _ _ _) (by simp)
      (by simp) rfl (by simp [pending_settle hq])

/-- From where nothing is pending, a scan reads stretch after stretch. -/
theorem tiled_of_run (ht : Tracks front s) (hp : s.pending = .nothing)
    (hr : run depth s a = .ok t) :
    Tiled front s.lexemes.toList a t ∧ Tracks (front ++ a) t := by
  refine run_induction (P := fun a t => Tiled front s.lexemes.toList a t ∧ Tracks (front ++ a) t)
    (a := []) ?_ ⟨.nothing [] hp (by simp) .nothing, by simpa using ht⟩ hr
  rintro a u c v ⟨h, htracks⟩ hc
  refine ⟨h.step htracks hc, ?_⟩
  rw [← List.append_assoc]
  exact htracks.step hc

/-- What is found from there to the end of the line is read from stretch after stretch, and what
does not count is left over. -/
theorem exists_tiles_of_outcome {f : Findings} (ht : Tracks front s) (hp : s.pending = .nothing)
    (ho : outcome (run depth s a) = .ok f) :
    ∃ ps b rest, a = b ++ rest ∧ f.lexemes = s.lexemes.toList ++ ps.map (·.1) ∧
      Tiles front ps b := by
  rcases outcome_eq_ok_iff.1 ho with ⟨t, hr, rfl⟩ | hr
  · obtain ⟨h, -⟩ := tiled_of_run ht hp hr
    by_cases hq : t.openQuote? = none
    · obtain ⟨ps, hl, htiles⟩ := h.settle hq
      exact ⟨ps, a, [], by simp, hl, htiles⟩
    · -- a string without an end is no lexeme
      have hsettle : t.settle.lexemes = t.lexemes := by rw [settle_of_openQuote? hq]
      cases h with
      | nothing _ hp' => exact absurd (openQuote?_of_nothing hp') hq
      | word _ _ _ _ _ hp' => exact absurd (openQuote?_of_word hp') hq
      | string ps b body hp' hl htiles _ ha =>
        exact ⟨ps, b, _, ha, by simp [exhausted, hsettle, hl], htiles⟩
  · obtain ⟨b, rest, t, rfl, hrun, hq, rfl⟩ := run_eq_terminated_iff.1 hr
    obtain ⟨h, htracks⟩ := tiled_of_run ht hp hrun
    obtain ⟨ps, hl, htiles⟩ := h.settle hq
    have hcovers : Lexeme.Covers ⟨.terminator, ";", t.settle.column⟩ [';'] := by
      refine Lexeme.covers_of_spread ?_ (by simp)
      simpa using Text.spread_singleton (c := ';') rfl
    have hcolumn : t.settle.column = utf8Len (front ++ b) := by rw [column_settle, htracks.column]
    refine ⟨ps ++ [(⟨.terminator, ";", t.settle.column⟩, [';'])], b ++ [';'], rest, by simp, ?_,
      htiles.lexeme (htracks.bare hq) hcolumn hcovers⟩
    simp [terminated, hl]

end Scan

/-- The lexemes of a line are read from stretches of it, one after the other. -/
theorem exists_tiles_of_scan {limits : Limits} {line : String} {f : Findings}
    (hf : limits.scan line = .ok f) :
    ∃ ps b rest, line.toList = b ++ rest ∧ f.lexemes = ps.map (·.1) ∧ Tiles [] ps b := by
  obtain ⟨hfits, -⟩ := Limits.scan_eq_ok_iff.1 hf
  rw [Limits.scan_of_le hfits] at hf
  exact Scan.exists_tiles_of_outcome Scan.tracks_start rfl hf

end LineLexer
