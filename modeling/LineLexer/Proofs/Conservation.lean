import LineLexer.Proofs.Outside
import LineLexer.Reading
/-!
# What becomes of the characters

A scan neither drops nor invents a character: what it has found, printed with the quotes of the
strings, and what it is in the middle of are together the text read so far, less the blanks outside
strings (`spells_of_run`). At the end of a line only what follows the semicolon is left out, or the
string without an end (`lex_printed_eq`).
-/
namespace LineLexer

open String (utf8Len)

namespace Text

/-- The text without the blanks that have an even number of quotes before them, when `n` quotes
stand before the text itself. -/
def squeezeAfter (n : Nat) : List Char → List Char
  | [] => []
  | c :: cs =>
    if n % 2 = 0 ∧ isBlank c = true then squeezeAfter n cs
    else c :: squeezeAfter (n + if c = '"' then 1 else 0) cs

/-- The text without the blanks outside strings. -/
def squeeze (cs : List Char) : List Char := squeezeAfter 0 cs

theorem ne_quote_of_isBlank {c : Char} (h : isBlank c = true) : c ≠ '"' := by
  rintro rfl
  exact absurd h (by decide)

theorem squeezeAfter_append (n : Nat) (a b : List Char) :
    squeezeAfter n (a ++ b) = squeezeAfter n a ++ squeezeAfter (n + a.count '"') b := by
  induction a generalizing n with
  | nil => rfl
  | cons c a ih =>
    by_cases hc : n % 2 = 0 ∧ isBlank c = true
    · have hn : n + (c :: a).count '"' = n + a.count '"' := by
        rw [add_count_quote_cons, if_neg (ne_quote_of_isBlank hc.2), Nat.add_zero]
      simp only [List.cons_append, squeezeAfter, if_pos hc, ih, hn]
    · simp only [List.cons_append, squeezeAfter, if_neg hc, ih, add_count_quote_cons]

theorem squeeze_concat (a : List Char) (c : Char) :
    squeeze (a ++ [c]) =
      squeeze a ++ if a.count '"' % 2 = 0 ∧ isBlank c = true then [] else [c] := by
  rw [squeeze, squeezeAfter_append, Nat.zero_add]
  rfl

theorem squeeze_append_string {a body : List Char} (heven : a.count '"' % 2 = 0)
    (hbody : '"' ∉ body) : squeeze (a ++ '"' :: body) = squeeze a ++ '"' :: body := by
  have hinside : ∀ n, n % 2 = 1 → squeezeAfter n body = body := by
    intro n hn
    induction body with
    | nil => rfl
    | cons c body ih =>
      rw [List.mem_cons, not_or] at hbody
      have hblank : ¬ (n % 2 = 0 ∧ isBlank c = true) := by omega
      rw [squeezeAfter, if_neg hblank, if_neg (Ne.symm hbody.1), Nat.add_zero, ih hbody.2]
  have hquote : ¬ (a.count '"' % 2 = 0 ∧ isBlank '"' = true) := by simp [isBlank]
  rw [squeeze, squeezeAfter_append, Nat.zero_add, squeezeAfter, if_neg hquote, if_pos rfl,
    hinside _ (by omega)]
  rfl

theorem squeezeAfter_sublist (n : Nat) (cs : List Char) : (squeezeAfter n cs).Sublist cs := by
  induction cs generalizing n with
  | nil => exact .slnil
  | cons c cs ih =>
    simp only [squeezeAfter]
    split
    next => exact (ih n).cons c
    next => exact (ih _).cons_cons c

theorem squeeze_sublist (cs : List Char) : (squeeze cs).Sublist cs := squeezeAfter_sublist 0 cs

/-! ## How far a line counts -/

/-- The text up to its first semicolon outside strings and with it, or all of the text if it has
none, when `n` quotes stand before the text itself. -/
def throughTerminatorAfter (n : Nat) : List Char → List Char
  | [] => []
  | c :: cs =>
    if n % 2 = 0 ∧ c = ';' then [c]
    else c :: throughTerminatorAfter (n + if c = '"' then 1 else 0) cs

/-- The text up to its first semicolon outside strings and with it. -/
def throughTerminator (cs : List Char) : List Char := throughTerminatorAfter 0 cs

/-- The part of a line that becomes lexemes. What follows the semicolon that ends the line does not;
without a semicolon, a string without an end does not. -/
def extent (cs : List Char) : List Char :=
  if ';' ∈ outside cs then throughTerminator cs
  else if cs.count '"' % 2 = 1 then beforeLastQuote cs
  else cs

theorem throughTerminatorAfter_append {n : Nat} {a : List Char} (heven : (n + a.count '"') % 2 = 0)
    (hrunning : ';' ∉ outsideAfter n a) (b : List Char) :
    throughTerminatorAfter n (a ++ ';' :: b) = a ++ [';'] := by
  induction a generalizing n with
  | nil =>
    have hn : n % 2 = 0 := by simpa using heven
    simp [throughTerminatorAfter, hn]
  | cons c a ih =>
    rw [add_count_quote_cons] at heven
    by_cases hn : n % 2 = 0
    · rw [outsideAfter, if_pos hn, List.mem_cons, not_or] at hrunning
      obtain ⟨hc, hrest⟩ := hrunning
      simp [throughTerminatorAfter, Ne.symm hc, ih heven hrest]
    · rw [outsideAfter, if_neg hn] at hrunning
      simp [throughTerminatorAfter, hn, ih heven hrunning]

theorem throughTerminatorAfter_isPrefix (n : Nat) (cs : List Char) :
    throughTerminatorAfter n cs <+: cs := by
  induction cs generalizing n with
  | nil => exact List.prefix_rfl
  | cons c cs ih =>
    rw [throughTerminatorAfter]
    split
    next => simp
    next => exact List.cons_prefix_cons.2 ⟨rfl, ih _⟩

theorem beforeLastQuote_isPrefix (cs : List Char) : beforeLastQuote cs <+: cs := by
  have hsuffix := (List.tail_suffix _).trans (List.dropWhile_suffix (l := cs.reverse) (· ≠ '"'))
  exact List.reverse_suffix.1 (by simpa [beforeLastQuote] using hsuffix)

theorem extent_isPrefix (cs : List Char) : extent cs <+: cs := by
  unfold extent
  split
  next => exact throughTerminatorAfter_isPrefix 0 cs
  next =>
    split
    next => exact beforeLastQuote_isPrefix cs
    next => exact List.prefix_rfl

/-- The semicolon is the first one outside strings, so the line counts up to there. -/
theorem extent_of_terminator {a : List Char} (heven : a.count '"' % 2 = 0)
    (hrunning : ';' ∉ outside a) (b : List Char) : extent (a ++ ';' :: b) = a ++ [';'] := by
  have hmem : ';' ∈ outside (a ++ ';' :: b) := mem_outside_iff.2 ⟨a, b, rfl, heven⟩
  rw [extent, if_pos hmem]
  exact throughTerminatorAfter_append (by simpa using heven) hrunning b

/-- Within a string a line counts up to where the string was opened. -/
theorem extent_of_unclosed {a body : List Char} (hrunning : ';' ∉ outside (a ++ '"' :: body))
    (heven : a.count '"' % 2 = 0) (hbody : '"' ∉ body) : extent (a ++ '"' :: body) = a := by
  have hodd : (a ++ '"' :: body).count '"' % 2 = 1 := by
    rw [List.count_append, List.count_cons_self, List.count_eq_zero_of_not_mem hbody]
    omega
  rw [extent, if_neg hrunning, if_pos hodd, beforeLastQuote_append hbody]

theorem extent_of_even {cs : List Char} (hrunning : ';' ∉ outside cs)
    (heven : cs.count '"' % 2 = 0) : extent cs = cs := by
  rw [extent, if_neg hrunning, if_neg (by omega)]

end Text

/-! ## What is found, printed -/

/-- What a lexeme is and its text, wherever it stands. -/
abbrev Content := Lexeme.Kind × String

def Lexeme.content (l : Lexeme) : Content := (l.kind, l.text)

/-- The quotes are no part of the text of a string, but a line shows them. -/
def Content.printed (w : Content) : List Char :=
  if w.1 = .literal then '"' :: w.2.toList ++ ['"'] else w.2.toList

/-- The contents one after the other, as a line shows them. -/
def printed (ws : List Content) : List Char := ws.flatMap Content.printed

@[simp] theorem printed_nil : printed [] = [] := rfl

@[simp] theorem printed_concat (ws : List Content) (w : Content) :
    printed (ws ++ [w]) = printed ws ++ w.printed := by
  simp [printed]

namespace Scan

variable {depth : Nat} {s s' : Scan} {c : Char} {a : List Char}

def contents (s : Scan) : List Content := s.lexemes.toList.map Lexeme.content

/-- The characters of what a scan is in the middle of. -/
def pendingText (s : Scan) : List Char :=
  match s.pending with
  | .nothing => []
  | .word _ letters => letters.toList
  | .string _ body => '"' :: body.toList

@[simp] theorem contents_emit (s : Scan) (k : Lexeme.Kind) (t : String) (n : Nat) :
    (s.emit k t n).contents = s.contents ++ [(k, t)] := by
  simp [contents, Lexeme.content]

@[simp] theorem contents_unknown (s : Scan) (t : String) (n : Nat) :
    (s.unknown t n).contents = s.contents ++ [(.unknown, t)] := by
  simp [contents, Lexeme.content]

@[simp] theorem contents_advance (s : Scan) (c : Char) : (s.advance c).contents = s.contents := rfl

@[simp] theorem contents_openParen (s : Scan) :
    s.openParen.contents = s.contents ++ [(.opener, "(")] := by
  simp [contents, Lexeme.content]

@[simp] theorem contents_closeParen (s : Scan) :
    s.closeParen.contents =
      s.contents ++ [(if s.opened = [] then .unknown else .closer, ")")] := by
  simp [contents, Lexeme.content]

@[simp] theorem contents_openString (s : Scan) : s.openString.contents = s.contents := rfl

@[simp] theorem contents_inString (s : Scan) (q : Nat) (body : String) (c : Char) :
    (s.inString q body c).contents =
      s.contents ++ if c = '"' then [(.literal, body)] else [] := by
  by_cases hc : c = '"' <;> simp [contents, Lexeme.content, hc]

theorem contents_settle_of_word {start : Nat} {letters : String}
    (h : s.pending = .word start letters) :
    s.settle.contents = s.contents ++ [(.unknown, letters)] := by
  simp [contents, lexemes_settle_of_word h, Lexeme.content]

theorem contents_letter (s : Scan) (c : Char) :
    (s.letter c).contents =
      s.contents ++ if s.letters ++ [c] = keyword.toList then [(.print, keyword)] else [] := by
  by_cases hk : s.letters ++ [c] = keyword.toList
  · rw [letter_of_keyword hk, contents_emit, if_pos hk]
    rfl
  · rw [letter_of_ne_keyword hk, if_neg hk, List.append_nil]
    rfl

theorem pendingText_of_openQuote? (hq : s.openQuote? = none) : s.pendingText = s.letters := by
  unfold openQuote? at hq
  unfold pendingText letters
  split <;> simp_all

/-- A word given up is printed as it was read. -/
theorem printed_settle (hq : s.openQuote? = none) :
    printed s.settle.contents = printed s.contents ++ s.letters := by
  cases hp : s.pending with
  | nothing => simp [settle_of_nothing hp, letters, hp]
  | word start letters =>
    simp [contents_settle_of_word hp, Content.printed, Scan.letters, hp]
  | string quote body => simp [openQuote?_of_string hp] at hq

/-- What has been found and what is in the making spell the text read so far. -/
def Spells (a : List Char) (s : Scan) : Prop :=
  printed s.contents ++ s.pendingText = Text.squeeze a

theorem spells_start : Spells [] start := rfl

/-- Outside strings a character that ends a word comes after all that was read. -/
theorem Spells.squeeze_concat (hs : Spells a s) (hq : s.openQuote? = none)
    (hc : Text.isBlank c = false) :
    Text.squeeze (a ++ [c]) = printed s.settle.contents ++ [c] := by
  rw [Text.squeeze_concat, printed_settle hq, ← pendingText_of_openQuote? hq, hs]
  simp [hc]

/-- Such a character is found at once, as a lexeme of its own. -/
theorem Spells.concat_lexeme {w : Content} (hs : Spells a s) (hq : s.openQuote? = none)
    (hc : Text.isBlank c = false) (hw : w.printed = [c])
    (hcontents : s'.contents = s.settle.contents ++ [w]) (hq' : s'.openQuote? = none)
    (hp : s'.letters = []) : Spells (a ++ [c]) s' := by
  rw [Spells, hs.squeeze_concat hq hc, hcontents, printed_concat, hw,
    pendingText_of_openQuote? hq', hp, List.append_nil]

theorem Spells.step (hs : Spells a s) (ht : Tracks a s) (hr : Reads depth s c s') :
    Spells (a ++ [c]) s' := by
  cases hr with
  | @inString quote body _ hp =>
    have hsqueeze : Text.squeeze (a ++ [c]) = printed s.contents ++ '"' :: body.toList ++ [c] := by
      have hodd := ht.odd hp
      rw [Text.squeeze_concat, if_neg (by omega), ← hs]
      simp [pendingText, hp]
    rw [Spells, hsqueeze]
    by_cases hc : c = '"'
    · simp [pendingText, hc, Content.printed]
    · simp [pendingText, hc]
  | blank hq hc =>
    rw [Spells, Text.squeeze_concat, if_pos ⟨ht.even hq, hc⟩, List.append_nil]
    exact hs
  | letter hq hc =>
    have hsqueeze : Text.squeeze (a ++ [c]) = printed s.contents ++ (s.letters ++ [c]) := by
      have hblank := Text.not_isBlank_of_isLetter hc
      rw [Text.squeeze_concat, if_neg (by simp [hblank]), ← hs, pendingText_of_openQuote? hq,
        List.append_assoc]
    rw [Spells, hsqueeze]
    by_cases hk : s.letters ++ [c] = keyword.toList
    · have hp : (s.letter c).pending = .nothing := by simp [letter_of_keyword hk]
      simp [contents_letter, pendingText, hp, hk, Content.printed]
    · have hp : (s.letter c).pending = .word s.wordStart (String.ofList (s.letters ++ [c])) := by
        simp [letter_of_ne_keyword hk]
      simp [contents_letter, pendingText, hp, hk]
  | opener hq hd =>
    exact hs.concat_lexeme hq rfl rfl (contents_openParen _) (by simp [hq])
      (by simp [letters, pending_settle hq])
  | closer hq =>
    refine hs.concat_lexeme hq rfl ?_ (contents_closeParen _) (by simp [hq])
      (by simp [letters, pending_settle hq])
    simp only [Content.printed]
    split <;> rfl
  | quote hq =>
    rw [Spells, hs.squeeze_concat hq rfl]
    simp [pendingText]
  | other hq hc =>
    refine hs.concat_lexeme hq (Text.Role.of_eq_other_iff.1 hc).2.1 ?_ (contents_unknown _ _ _)
      (by simp [hq]) (by simp [letters, pending_settle hq])
    simp [Content.printed]

/-- What a scan has read is what it has found and what is in the making. -/
theorem spells_of_run (hr : run depth start a = .ok s) : Spells a s :=
  reached_induction spells_start (fun hrun hs hc => hs.step (tracks_of_run hrun) hc) hr

/-- When the line is over, what has been found is printed as far as the line counts: a word is given
up, and an open string left out. -/
theorem Spells.printed_exhausted (hs : Spells a s) (ht : Tracks a s) :
    printed s.settle.contents = Text.squeeze (Text.extent a) := by
  cases hp : s.pending with
  | string quote body =>
    obtain ⟨before, ha, -, heven, hbody⟩ := ht.string quote body hp
    have hrunning := ht.running
    rw [ha] at hrunning
    rw [settle_of_openQuote? (by simp [openQuote?_of_string hp]), ha,
      Text.extent_of_unclosed hrunning heven hbody]
    -- the open string stands at the end of both sides of `hs`
    have hspells : printed s.contents ++ '"' :: body.toList =
        Text.squeeze before ++ '"' :: body.toList := by
      rw [← Text.squeeze_append_string heven hbody, ← ha, ← hs]
      simp [pendingText, hp]
    exact List.append_cancel_right hspells
  | nothing =>
    have hq := openQuote?_of_nothing hp
    rw [Text.extent_of_even ht.running (ht.even hq), ← hs, printed_settle hq,
      pendingText_of_openQuote? hq]
  | word start letters =>
    have hq := openQuote?_of_word hp
    rw [Text.extent_of_even ht.running (ht.even hq), ← hs, printed_settle hq,
      pendingText_of_openQuote? hq]

/-- The semicolon is printed last. -/
theorem Spells.printed_terminated (hs : Spells a s) (hq : s.openQuote? = none) :
    printed (s.settle.contents ++ [(.terminator, ";")]) = Text.squeeze (a ++ [';']) := by
  rw [hs.squeeze_concat hq rfl, printed_concat]
  rfl

end Scan

/-! ## Whole lines -/

def Findings.contents (f : Findings) : List Content := f.lexemes.map Lexeme.content

def Reading.contents (r : Reading) : List Content := r.tokens.map (·.content)

theorem Reading.contents_atPlace (f : Findings) (p : Place) :
    (f.atPlace p).contents = f.contents := by
  simp [Reading.contents, Findings.contents, Findings.atPlace, Function.comp_def]

theorem Scan.contents_terminated (s : Scan) :
    s.terminated.contents = s.contents ++ [(.terminator, ";")] :=
  contents_emit _ _ _ _

/-- Printed, the findings of a line are the line as far as it counts, less the blanks outside
strings. -/
theorem printed_of_scan {limits : Limits} {line : String} {f : Findings}
    (hf : limits.scan line = .ok f) :
    printed f.contents = Text.squeeze (Text.extent line.toList) := by
  obtain ⟨-, ⟨s, hs, rfl⟩ | hend⟩ := Limits.scan_eq_ok_iff.1 hf
  · exact (Scan.spells_of_run hs).printed_exhausted (Scan.tracks_of_run hs)
  · obtain ⟨a, b, t, hline, ht, hq, rfl⟩ := Scan.run_eq_terminated_iff.1 hend
    have htracks := Scan.tracks_of_run ht
    rw [Scan.contents_terminated, (Scan.spells_of_run ht).printed_terminated hq, hline,
      Text.extent_of_terminator (htracks.even hq) htracks.running]

theorem printed_sublist_of_scan {limits : Limits} {line : String} {f : Findings}
    (hf : limits.scan line = .ok f) : (printed f.contents).Sublist line.toList := by
  rw [printed_of_scan hf]
  exact (Text.squeeze_sublist _).trans (Text.extent_isPrefix _).sublist

/-- No character of a line is lost, invented or moved: its tokens, printed one after the other, are
the line as far as it counts, less the blanks outside strings. -/
theorem lex_printed_eq {limits : Limits} {place : Place} {text : String} {r : Reading}
    (hr : limits.lex place text = .ok r) :
    printed r.contents = Text.squeeze (Text.extent (Text.dropEnding text).toList) := by
  obtain ⟨f, hf, rfl⟩ := Limits.lex_eq_ok_iff.1 hr
  rw [Reading.contents_atPlace]
  exact printed_of_scan hf

/-- The blanks go within the keyword and stay within the string; the semicolon within the string
does not end the line, and the string without an end is left out. -/
theorem lex_printed_keyword_string :
    ∃ r, Limits.lex {} ⟨"f", 1⟩ "ex posed(\"a ;\" ) x\"b c" = .ok r ∧
      printed r.contents = "exposed(\"a ;\")x".toList ∧
      printed r.contents =
        Text.squeeze (Text.extent (Text.dropEnding "ex posed(\"a ;\" ) x\"b c").toList) := by
  have hr : Limits.lex {} ⟨"f", 1⟩ "ex posed(\"a ;\" ) x\"b c" = .ok
      ⟨[⟨⟨.print, "exposed", 0⟩, 1⟩, ⟨⟨.opener, "(", 8⟩, 1⟩, ⟨⟨.literal, "a ;", 9⟩, 1⟩,
          ⟨⟨.closer, ")", 15⟩, 1⟩, ⟨⟨.unknown, "x", 17⟩, 1⟩],
        [⟨⟨.unknown "x", 17⟩, ⟨"f", 1⟩⟩, ⟨⟨.unclosedString, 18⟩, ⟨"f", 1⟩⟩,
          ⟨⟨.unterminated, 17⟩, ⟨"f", 1⟩⟩]⟩ := by decide
  exact ⟨_, hr, by decide, lex_printed_eq hr⟩

end LineLexer
