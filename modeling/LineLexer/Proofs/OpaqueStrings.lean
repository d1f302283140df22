import LineLexer.Proofs.After
import LineLexer.Proofs.Blanks
import LineLexer.Proofs.Pins
/-!
# What a string holds

Of what stands in a string a scan only keeps the text and counts the bytes. So a line in which a
string holds another text is read to the same, semicolons, parentheses and line breaks in the string
or not; what stands behind the string moves with its last quote (`lex_string_opaque`).
-/
namespace LineLexer

open String (utf8Len)

variable {depth : Nat} {s : Scan} {a b : List Char} {f : Nat → Nat} {l : Lexeme} {body : String}
  {x : Findings}

namespace Scan

/-! ## What stands before a column -/

/-- Outside strings every lexeme found stands before the next column. -/
theorem column_lt_of_mem_settle (hr : run depth start a = .ok s) (hq : s.openQuote? = none)
    (hl : l ∈ s.settle.lexemes.toList) : l.column < s.column := by
  have hlt := (ordered_of_run hr).settle.column_lt_frontier hl
  rwa [frontier_of_nothing (pending_settle hq), column_settle] at hlt

theorem fault_lt_of_mem_settle {y : Fault} (hr : run depth start a = .ok s)
    (hq : s.openQuote? = none) (hy : y ∈ s.settle.faults.toList) : y.column < s.column := by
  rw [((diagnosed_of_run hr).settle (lexed_of_run hr)).faults] at hy
  obtain ⟨-, l, hl, hcolumn⟩ := mem_faultsAfter hy
  rw [← hcolumn]
  exact column_lt_of_mem_settle hr hq (by simpa using hl)

theorem lt_column_of_mem_opened {p : Nat} (hr : run depth start a = .ok s)
    (hq : s.openQuote? = none) (hp : p ∈ s.opened) : p < s.column := by
  have hopened := ((diagnosed_of_run hr).settle (lexed_of_run hr)).opened
  rw [opened_settle] at hopened
  rw [hopened, List.mem_reverse, List.mem_map] at hp
  obtain ⟨l, hl, rfl⟩ := hp
  exact column_lt_of_mem_settle hr hq ((unmatched_sublist _).subset hl)

/-! ## Behind a string -/

/-- What has been found when a string that holds `body` is over. -/
def foundWith (s : Scan) (body : String) : Findings :=
  s.settle.found ++ ⟨[⟨.literal, body, s.column⟩], []⟩

/-- The scan when a string that holds `body` is over. -/
def behindString (s : Scan) (body : String) : Scan :=
  (fresh (s.column + (body.utf8ByteSize + 2)) s.opened).after (s.foundWith body)

theorem run_quoted (hq : s.openQuote? = none) (hbody : '"' ∉ body.toList) :
    run depth s ('"' :: (body.toList ++ ['"'])) = .ok (s.behindString body) := by
  have hquote : '"'.utf8Size = 1 := rfl
  have hwidth : utf8Len ('"' :: (body.toList ++ ['"'])) = body.utf8ByteSize + 2 := by
    simp only [String.utf8Len_cons, String.utf8Len_append, String.utf8Len_nil, hquote,
      String.utf8Len_toList]
  rw [run_string hq hbody, hwidth, String.ofList_toList, behindString, ← opened_settle s]
  exact congrArg Except.ok ((eq_fresh_after rfl).trans (by rw [found_emit]; rfl))

theorem columns_foundWith (s : Scan) (y : String) :
    columns (s.foundWith y).lexemes = columns (s.foundWith body).lexemes := by
  simp [foundWith, columns]

/-- Nothing found by then moves, if the columns up to the string stay. -/
theorem moved_foundWith (hr : run depth start a = .ok s) (hq : s.openQuote? = none)
    (hf : ∀ p ≤ s.column, f p = p) : (s.foundWith body).moved f = s.foundWith body := by
  refine Findings.moved_eq_self_iff.2 ⟨fun l hl => hf _ ?_, fun y hy => hf _ ?_⟩
  · rw [foundWith, Findings.lexemes_append, List.mem_append, List.mem_singleton] at hl
    rcases hl with hl | rfl
    · exact (column_lt_of_mem_settle hr hq hl).le
    · exact le_rfl
  · rw [foundWith, Findings.faults_append, List.append_nil] at hy
    exact (fault_lt_of_mem_settle hr hq hy).le

/-- The string may hold another text `y`: what is found is the same, if what stands behind the
string is moved by as much as its last quote. -/
theorem exists_outcome_behindString (hr : run depth start a = .ok s) (hq : s.openQuote? = none)
    (ho : outcome (run depth (s.behindString body) b) = .ok x) :
    ∃ g, x = s.foundWith body ++ g ∧ ∀ (y : String) (f : Nat → Nat), (∀ p ≤ s.column, f p = p) →
      (∀ n, f (s.column + (body.utf8ByteSize + 2) + n) = s.column + (y.utf8ByteSize + 2) + n) →
        outcome (run depth (s.behindString y) b) = .ok ((s.foundWith y ++ g).moved f) := by
  -- the text of the string is exchanged first, with the width it had; then all columns are moved
  obtain ⟨g, hx, hsame⟩ := exists_outcome_run_after ho
  refine ⟨g, hx, fun y f hbefore hbehind => ?_⟩
  have hopened : s.opened.map f = s.opened := by
    rw [List.map_congr_left fun p hp => hbefore p (lt_column_of_mem_opened hr hq hp).le]
    exact List.map_id' _
  have hend : f (s.column + (body.utf8ByteSize + 2)) = s.column + (y.utf8ByteSize + 2) := hbehind 0
  have hmoved : ((fresh (s.column + (body.utf8ByteSize + 2)) s.opened).after
      (s.foundWith y)).moved f = s.behindString y := by
    rw [moved_after, moved_fresh, moved_foundWith hr hq hbefore, hend, hopened]
    rfl
  rw [← hmoved]
  refine outcome_run_moved (fun n => ?_) (hsame _ (columns_foundWith s y))
  exact (hbehind n).trans (congrArg (· + n) hend.symm)

/-- Column `p`, put behind the `n` bytes at `c` if it is within them. -/
def putBehind (c n p : Nat) : Nat := if p ≤ c then p else max p (c + n)

theorem putBehind_eq_self_iff {c n p : Nat} : putBehind c n p = p ↔ p ≤ c ∨ c + n ≤ p := by
  unfold putBehind
  split <;> omega

/-- No column is within the string: if all are put behind it they stay where they are. -/
theorem columns_apart (hr : run depth start a = .ok s) (hq : s.openQuote? = none)
    (ho : outcome (run depth (s.behindString body) b) = .ok x) :
    (∀ l ∈ x.lexemes, l.column ≤ s.column ∨ s.column + (body.utf8ByteSize + 2) ≤ l.column) ∧
      ∀ y ∈ x.faults, y.column ≤ s.column ∨ s.column + (body.utf8ByteSize + 2) ≤ y.column := by
  obtain ⟨g, hx, hsame⟩ := exists_outcome_behindString hr hq ho
  have hout := hsame body (putBehind s.column (body.utf8ByteSize + 2))
    (fun p hp => putBehind_eq_self_iff.2 (.inl hp))
    (fun n => putBehind_eq_self_iff.2 (.inr (Nat.le_add_right _ n)))
  rw [← hx, ho] at hout
  obtain ⟨hlexemes, hfaults⟩ := Findings.moved_eq_self_iff.1 (Except.ok.inj hout).symm
  constructor
  · intro l hl
    exact putBehind_eq_self_iff.1 (hlexemes l hl)
  · intro y hy
    exact putBehind_eq_self_iff.1 (hfaults y hy)

/-- The string is the one lexeme of the line in its column. -/
theorem foundWith_append {g : Findings} {front back : List Lexeme}
    (hx : x = s.foundWith l.text ++ g) (hincreasing : (columns x.lexemes).Pairwise (· < ·))
    (hl : x.lexemes = front ++ l :: back) (hkind : l.kind = .literal)
    (hcolumn : s.column = l.column) (y : String) :
    s.foundWith y ++ g = ⟨front ++ { l with text := y } :: back, x.faults⟩ := by
  have hliteral : (⟨.literal, l.text, s.column⟩ : Lexeme) = l := by rw [← hkind, hcolumn]
  have hsplit : front ++ l :: back = s.settle.lexemes.toList ++ l :: g.lexemes := by
    rw [← hl, hx]
    simp [foundWith, found, hliteral]
  rw [hl, columns, List.map_append, List.map_cons] at hincreasing
  obtain ⟨-, hbehind, hbefore⟩ := List.pairwise_append.1 hincreasing
  -- a lexeme equal to the string would stand in its column
  have hfront : l ∉ front := fun hmem =>
    absurd (hbefore _ (List.mem_map_of_mem hmem) l.column (by simp)) (lt_irrefl _)
  have hback : l ∉ back := fun hmem =>
    absurd ((List.pairwise_cons.1 hbehind).1 _ (List.mem_map_of_mem hmem)) (lt_irrefl _)
  obtain ⟨rfl, -, rfl⟩ := (List.append_cons_inj_of_notMem hfront hback).1 hsplit
  rw [hx, hkind, ← hcolumn]
  refine congrArg₂ Findings.mk ?_ ?_
  · simp [foundWith, found]
  · simp [foundWith, found]

end Scan

/-! ## Whole lines -/

variable {limits : Limits} {place : Place} {text : String}

/-- Where a string of a line stands, and how the line is read up to it and behind it. -/
theorem exists_run_of_literal (hx : limits.scan (Text.dropEnding text) = .ok x)
    (hl : l ∈ x.lexemes) (hkind : l.kind = .literal) :
    ∃ a b s, text.toList = a ++ '"' :: (l.text.toList ++ '"' :: b) ∧
      Scan.run limits.depth .start a = .ok s ∧ s.openQuote? = none ∧
      s.column = l.column ∧ utf8Len a = l.column ∧
      Scan.outcome (Scan.run limits.depth (s.behindString l.text) b) = .ok x := by
  obtain ⟨ps, front, rest, hline, hlexemes, htiles⟩ := exists_tiles_of_scan hx
  rw [hlexemes] at hl
  obtain ⟨p, hp, rfl⟩ := List.mem_map.1 hl
  obtain ⟨a, back, rfl, hcolumn, ha, hcovers⟩ := htiles.exists_of_mem hp
  rw [List.nil_append] at hcolumn ha
  have hbody : '"' ∉ p.1.text.toList := by
    have hfits : Fits (.literal, p.1.text) := by
      rw [← hkind]
      exact fits_of_mem hx (hlexemes ▸ List.mem_map_of_mem hp)
    cases hfits with
    | literal h => exact h
  have hline' : (Text.dropEnding text).toList =
      a ++ ('"' :: (p.1.text.toList ++ ['"']) ++ (back ++ rest)) := by
    rw [hline, hcovers.eq_quoted hkind]
    simp
  obtain ⟨s, hs, -⟩ := exists_outcome_of_scan hx hline' ha.running
  obtain ⟨gap, hgap, -⟩ := Text.exists_blanks_of_chomp text.toList
  have htext : text.toList =
      a ++ ('"' :: (p.1.text.toList ++ ['"']) ++ (back ++ (rest ++ gap))) := by
    rw [Text.dropEnding, String.toList_ofList] at hline'
    rw [hgap, hline']
    simp
  have hq : s.openQuote? = none := (Scan.tracks_of_run hs).openQuote?_eq_none_iff.2 ha.even
  have ho := outcome_of_scan hx
  rw [htext, Scan.run_append_of_ok hs, Scan.run_append_of_ok (Scan.run_quoted hq hbody)] at ho
  refine ⟨a, back ++ (rest ++ gap), s, ?_, hs, hq, ?_, hcolumn.symm, ho⟩
  · simpa using htext
  · rw [(Scan.tracks_of_run hs).column, hcolumn]

/-- Column `p`, when the string at `c` that had `n` bytes between its quotes has `m` there. -/
def shifted (c n m p : Nat) : Nat := if p ≤ c then p else p + m - n

/-- A string of a line that is read stands in the text between its quotes, and no token or
diagnostic points between them. If it holds any other text without a quote, and the line still fits,
the line is read to the same tokens, but for the text of that string, and to the same diagnostics;
the columns up to the string stay and those behind it move by as many bytes as the string has grown
or shrunk. -/
theorem lex_string_opaque {r : Reading} {front back : List Token} {t : Token}
    (hr : limits.lex place text = .ok r) (ht : r.tokens = front ++ t :: back)
    (hkind : t.kind = .literal) :
    ∃ a b, text.toList = a ++ '"' :: (t.text.toList ++ '"' :: b) ∧ utf8Len a = t.column ∧
      (∀ p ∈ r.tokens.map (·.column) ++ r.diagnostics.map (·.column),
        p ≤ t.column ∨ t.column + (t.text.utf8ByteSize + 2) ≤ p) ∧
      ∀ y v : String, '"' ∉ y.toList → v.toList = a ++ '"' :: (y.toList ++ '"' :: b) →
        (Text.dropEnding v).utf8ByteSize ≤ limits.length →
        limits.lex place v = .ok (Reading.moved
          (shifted t.column t.text.utf8ByteSize y.utf8ByteSize)
          ⟨front ++ { t with text := y } :: back, r.diagnostics⟩) := by
  obtain ⟨x, hx, rfl⟩ := Limits.lex_eq_ok_iff.1 hr
  obtain ⟨front, rest, hlexemes, rfl, hrest⟩ := List.map_eq_append_iff.1 ht
  obtain ⟨l, back, rfl, rfl, rfl⟩ := List.map_eq_cons_iff.1 hrest
  rw [Lexeme.toLexeme_onLine] at hkind ⊢
  obtain ⟨a, b, s, htext, hs, hq, hcolumn, ha, ho⟩ :=
    exists_run_of_literal hx (by simp [hlexemes]) hkind
  obtain ⟨hapart, hapart'⟩ := Scan.columns_apart hs hq ho
  obtain ⟨g, hg, hsame⟩ := Scan.exists_outcome_behindString hs hq ho
  rw [hcolumn] at hapart hapart' hsame
  refine ⟨a, b, htext, ha, ?_, fun y v hy hv hfits => ?_⟩
  · simp only [List.mem_append, List.mem_map, Findings.atPlace]
    rintro p (⟨_, ⟨l', hl', rfl⟩, rfl⟩ | ⟨_, ⟨y, hy, rfl⟩, rfl⟩)
    · exact hapart l' hl'
    · exact hapart' y hy
  · have hincreasing := columns_increasing_of_scan hx
    have hedited := Scan.foundWith_append hg hincreasing hlexemes hkind hcolumn y
    have hv' : v.toList = a ++ ('"' :: (y.toList ++ ['"']) ++ b) := by
      rw [hv]
      simp
    have hbefore : ∀ p ≤ l.column, shifted l.column l.text.utf8ByteSize y.utf8ByteSize p = p :=
      fun p hp => if_pos hp
    have hbehind : ∀ n, shifted l.column l.text.utf8ByteSize y.utf8ByteSize
        (l.column + (l.text.utf8ByteSize + 2) + n) = l.column + (y.utf8ByteSize + 2) + n := by
      intro n
      rw [shifted, if_neg (by omega)]
      omega
    have houtcome := hsame y _ hbefore hbehind
    rw [hedited, ← Scan.run_append_of_ok (Scan.run_quoted hq hy) b, ← Scan.run_append_of_ok hs,
      ← hv'] at houtcome
    rw [lex_eq_ok_of_outcome hfits houtcome, Findings.atPlace_moved]
    simp [Findings.atPlace, Lexeme.onLine]

/-- The first of two strings comes to hold a semicolon, the keyword, parentheses and a line break.
The faults behind it move, those of the end of the line included. -/
theorem lex_string_opaque_marks :
    ∃ r r', Limits.lex ⟨1, 23⟩ ⟨"f", 1⟩ "\"é;\"ab\"x\"+(\"\n" = .ok r ∧
      Limits.lex ⟨1, 23⟩ ⟨"f", 1⟩ "\"))exposed((\n;\"ab\"x\"+(\"\n" = .ok r' ∧
      r.tokens.map (·.column) = [0, 5, 7, 10, 11] ∧
      r'.tokens.map (·.column) = [0, 15, 17, 20, 21] ∧
      r.diagnostics.map (·.toFault) = [⟨.unknown "ab", 5⟩, ⟨.unknown "+", 10⟩,
        ⟨.unclosedString, 12⟩, ⟨.unclosedParen, 11⟩, ⟨.unterminated, 11⟩] ∧
      r'.diagnostics.map (·.toFault) = [⟨.unknown "ab", 15⟩, ⟨.unknown "+", 20⟩,
        ⟨.unclosedString, 22⟩, ⟨.unclosedParen, 21⟩, ⟨.unterminated, 21⟩] := by
  have hr : Limits.lex ⟨1, 23⟩ ⟨"f", 1⟩ "\"é;\"ab\"x\"+(\"\n" = .ok
      ⟨[⟨⟨.literal, "é;", 0⟩, 1⟩, ⟨⟨.unknown, "ab", 5⟩, 1⟩, ⟨⟨.literal, "x", 7⟩, 1⟩,
          ⟨⟨.unknown, "+", 10⟩, 1⟩, ⟨⟨.opener, "(", 11⟩, 1⟩],
        [⟨⟨.unknown "ab", 5⟩, ⟨"f", 1⟩⟩, ⟨⟨.unknown "+", 10⟩, ⟨"f", 1⟩⟩,
          ⟨⟨.unclosedString, 12⟩, ⟨"f", 1⟩⟩, ⟨⟨.unclosedParen, 11⟩, ⟨"f", 1⟩⟩,
          ⟨⟨.unterminated, 11⟩, ⟨"f", 1⟩⟩]⟩ := by decide
  obtain ⟨a, b, htext, ha, -, hedit⟩ :=
    lex_string_opaque hr (List.nil_append _).symm rfl
  obtain rfl : a = [] := String.utf8Len_eq_zero.1 ha
  obtain rfl : b = "ab\"x\"+(\"\n".toList := by simpa using htext.symm
  exact ⟨_, _, hr, hedit "))exposed((\n;" _ (by decide) (by decide) (by decide), rfl, by decide,
    rfl, rfl⟩

end LineLexer
