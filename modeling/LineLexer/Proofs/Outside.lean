import LineLexer.Proofs.Run
/-!
# Inside and outside strings

Whether a character of a line stands outside strings is a matter of the quotes before it: their
number is even. `Text.outside` picks these characters and `Text.nesting` counts the parentheses that
are open after them. `Scan.Tracks` says what the state of a scan has to do with the text it has
read, and `tracks_of_run` that it always does.
-/
namespace LineLexer

open String (utf8Len)

namespace Text

/-! ## The characters outside strings -/

theorem add_count_quote_cons (n : Nat) (c : Char) (a : List Char) :
    n + (c :: a).count '"' = (n + if c = '"' then 1 else 0) + a.count '"' := by
  rw [List.count_cons]
  simp only [beq_iff_eq]
  omega

/-- The characters of a text with an even number of quotes before them, when `n` quotes stand
before the text itself. -/
def outsideAfter (n : Nat) : List Char → List Char
  | [] => []
  | c :: cs =>
    if n % 2 = 0 then c :: outsideAfter (n + if c = '"' then 1 else 0) cs
    else outsideAfter (n + if c = '"' then 1 else 0) cs

/-- The characters with an even number of quotes before them. -/
def outside (cs : List Char) : List Char := outsideAfter 0 cs

theorem outsideAfter_append (n : Nat) (a b : List Char) :
    outsideAfter n (a ++ b) = outsideAfter n a ++ outsideAfter (n + a.count '"') b := by
  induction a generalizing n with
  | nil => rfl
  | cons c a ih =>
    simp only [List.cons_append, outsideAfter, ih, add_count_quote_cons]
    split <;> rfl

theorem outside_append (a b : List Char) :
    outside (a ++ b) = outside a ++ outsideAfter (a.count '"') b := by
  simp [outside, outsideAfter_append]

theorem outside_concat_of_even {a : List Char} (h : a.count '"' % 2 = 0) (c : Char) :
    outside (a ++ [c]) = outside a ++ [c] := by
  simp [outside_append, outsideAfter, h]

theorem outside_concat_of_odd {a : List Char} (h : a.count '"' % 2 = 1) (c : Char) :
    outside (a ++ [c]) = outside a := by
  simp [outside_append, outsideAfter, h]

theorem mem_outsideAfter_iff {n : Nat} {x : Char} {cs : List Char} :
    x ∈ outsideAfter n cs ↔ ∃ a b, cs = a ++ x :: b ∧ (n + a.count '"') % 2 = 0 := by
  constructor
  · intro hx
    induction cs generalizing n with
    | nil => simp [outsideAfter] at hx
    | cons c cs ih =>
      simp only [outsideAfter] at hx
      by_cases hhead : n % 2 = 0 ∧ x = c
      · obtain ⟨hn, rfl⟩ := hhead
        exact ⟨[], cs, rfl, by simpa using hn⟩
      · have hrest : x ∈ outsideAfter (n + if c = '"' then 1 else 0) cs := by
          split at hx
          next hn => exact (List.mem_cons.1 hx).resolve_left fun h => hhead ⟨hn, h⟩
          next => exact hx
        obtain ⟨a, b, rfl, ha⟩ := ih hrest
        exact ⟨c :: a, b, rfl, by rw [add_count_quote_cons]; exact ha⟩
  · rintro ⟨a, b, rfl, ha⟩
    rw [outsideAfter_append, outsideAfter, if_pos ha]
    simp

/-- A character outside strings is one after an even number of quotes. -/
theorem mem_outside_iff {x : Char} {cs : List Char} :
    x ∈ outside cs ↔ ∃ a b, cs = a ++ x :: b ∧ a.count '"' % 2 = 0 := by
  simp [outside, mem_outsideAfter_iff]

/-! ## Characters of no use -/

theorem Role.of_eq_other_iff {c : Char} :
    Role.of c = .other ↔
      isLetter c = false ∧ isBlank c = false ∧ c ∉ [';', '(', ')', '"'] := by
  unfold Role.of
  grind

theorem not_isBlank_of_isLetter {c : Char} (h : isLetter c = true) : isBlank c = false := by
  by_contra hc
  rw [not_isLetter_of_isBlank (Bool.eq_true_of_not_eq_false hc)] at h
  cases h

/-- Only the marks themselves have the role of a mark. -/
theorem Role.ne_marks {c : Char}
    (h : Role.of c = .blank ∨ Role.of c = .letter ∨ Role.of c = .other) :
    c ≠ ';' ∧ c ≠ '(' ∧ c ≠ ')' ∧ c ≠ '"' := by
  refine ⟨?_, ?_, ?_, ?_⟩ <;> rintro rfl <;> revert h <;> decide

/-! ## What stands open -/

/-- How many parentheses are open after one more character. A closing one that has no partner
gives no credit. -/
def nest (n : Nat) (c : Char) : Nat :=
  if c = '(' then n + 1 else if c = ')' then n - 1 else n

/-- How many parentheses are open after a text that holds no strings. -/
def nesting (cs : List Char) : Nat := cs.foldl nest 0

theorem nesting_concat (cs : List Char) (c : Char) :
    nesting (cs ++ [c]) = nest (nesting cs) c := by
  simp [nesting]

/-- What stands before the last quote of a text. -/
def beforeLastQuote (cs : List Char) : List Char :=
  (cs.reverse.dropWhile (· ≠ '"')).tail.reverse

/-- The column of a quote that opens a string and has no partner, on a line that no semicolon
outside strings ends. -/
def unclosedQuote? (cs : List Char) : Option Nat :=
  if ';' ∈ outside cs ∨ cs.count '"' % 2 = 0 then none else some (utf8Len (beforeLastQuote cs))

theorem beforeLastQuote_append {body : List Char} (h : '"' ∉ body) (a : List Char) :
    beforeLastQuote (a ++ '"' :: body) = a := by
  have hbody : ∀ x ∈ body.reverse, decide (x ≠ '"') = true := by
    intro x hx
    simp only [decide_eq_true_eq]
    rintro rfl
    exact h (List.mem_reverse.1 hx)
  rw [beforeLastQuote, List.reverse_append, List.reverse_cons, List.append_assoc,
    List.dropWhile_append_of_pos hbody]
  simp

end Text

namespace Scan

variable {depth : Nat} {s s' : Scan} {c : Char} {a b cs : List Char}

/-! ## What a scan keeps of the text -/

/-- How the state of a scan depends on the text `a` it has read. -/
structure Tracks (a : List Char) (s : Scan) : Prop where
  column : s.column = utf8Len a
  running : ';' ∉ Text.outside a
  nested : s.opened.length = Text.nesting (Text.outside a)
  even : s.openQuote? = none → a.count '"' % 2 = 0
  string : ∀ quote body, s.pending = .string quote body →
    ∃ before, a = before ++ '"' :: body.toList ∧ quote = utf8Len before ∧
      before.count '"' % 2 = 0 ∧ '"' ∉ body.toList

theorem tracks_start : Tracks [] start where
  column := rfl
  running := by simp [Text.outside, Text.outsideAfter]
  nested := rfl
  even _ := rfl
  string := nofun

/-- Within a string the quotes are odd in number. -/
theorem Tracks.odd {quote : Nat} {body : String} (ht : Tracks a s)
    (hp : s.pending = .string quote body) : a.count '"' % 2 = 1 := by
  obtain ⟨before, rfl, -, heven, hbody⟩ := ht.string quote body hp
  rw [List.count_append, List.count_cons_self, List.count_eq_zero_of_not_mem hbody]
  omega

theorem Tracks.openQuote?_eq_none_iff (ht : Tracks a s) :
    s.openQuote? = none ↔ a.count '"' % 2 = 0 := by
  refine ⟨ht.even, fun heven => ?_⟩
  cases hp : s.pending with
  | string quote body =>
    have := ht.odd hp
    omega
  | nothing => exact openQuote?_of_nothing hp
  | word start letters => exact openQuote?_of_word hp

/-- A scan that is in a string knows where the string was opened. -/
theorem Tracks.openQuote?_eq (ht : Tracks a s) : s.openQuote? = Text.unclosedQuote? a := by
  cases hp : s.pending with
  | string quote body =>
    have hodd := ht.odd hp
    obtain ⟨before, ha, hquote, -, hbody⟩ := ht.string quote body hp
    have hlast : Text.beforeLastQuote a = before := by
      rw [ha, Text.beforeLastQuote_append hbody]
    simp [openQuote?_of_string hp, Text.unclosedQuote?, ht.running, hodd, hlast, hquote]
  | nothing =>
    have hq := openQuote?_of_nothing hp
    simp [hq, Text.unclosedQuote?, ht.even hq]
  | word start letters =>
    have hq := openQuote?_of_word hp
    simp [hq, Text.unclosedQuote?, ht.even hq]

/-- Outside strings a character counts for itself: it remains to look at what is open, and at the
quotes. -/
theorem Tracks.concat_outside (ht : Tracks a s) (hq : s.openQuote? = none) (hc : c ≠ ';')
    (hcolumn : s'.column = s.column + c.utf8Size)
    (hopened : s'.opened.length = Text.nest s.opened.length c)
    (hquote : if c = '"' then s'.pending = .string s.column "" else s'.openQuote? = none) :
    Tracks (a ++ [c]) s' where
  column := by simp [hcolumn, ht.column]
  running := by
    rw [Text.outside_concat_of_even (ht.even hq)]
    simp [ht.running, hc.symm]
  nested := by
    rw [Text.outside_concat_of_even (ht.even hq), Text.nesting_concat, hopened, ht.nested]
  even hq' := by
    have heven := ht.even hq
    split at hquote
    next => simp [openQuote?, hquote] at hq'
    next hne => simpa [List.count_singleton, hne] using heven
  string quote body hp := by
    split at hquote
    next heq =>
      obtain ⟨rfl, rfl⟩ : s.column = quote ∧ "" = body := by simpa [hquote] using hp
      exact ⟨a, by simp [heq], ht.column, ht.even hq, by simp⟩
    next => simp [openQuote?_of_string hp] at hquote

/-- A character of a string counts for nothing but its width. -/
theorem Tracks.concat_inString {quote : Nat} {body : String} (ht : Tracks a s)
    (hp : s.pending = .string quote body) :
    Tracks (a ++ [c]) ((s.inString quote body c).advance c) := by
  have hodd := ht.odd hp
  obtain ⟨before, ha, hquote, heven, hbody⟩ := ht.string quote body hp
  have hout : Text.outside (a ++ [c]) = Text.outside a := Text.outside_concat_of_odd hodd c
  refine ⟨by simp [ht.column], by rw [hout]; exact ht.running, by simp [hout, ht.nested], ?_, ?_⟩
  · intro hq
    by_cases hc : c = '"'
    · rw [hc, List.count_append, List.count_singleton_self]
      omega
    · simp [openQuote?, hc] at hq
  · intro quote' body' hp'
    by_cases hc : c = '"'
    · simp [hc] at hp'
    · obtain ⟨rfl, rfl⟩ : quote = quote' ∧ body.push c = body' := by simpa [hc] using hp'
      refine ⟨before, by simp [ha], hquote, heven, ?_⟩
      simp only [String.toList_push, List.mem_append, List.mem_singleton, not_or]
      exact ⟨hbody, Ne.symm hc⟩

theorem Tracks.step (ht : Tracks a s) (hr : Reads depth s c s') : Tracks (a ++ [c]) s' := by
  cases hr with
  | inString hp => exact ht.concat_inString hp
  | blank hq hc =>
    obtain ⟨h1, h2, h3, h4⟩ := Text.Role.ne_marks (.inl (Text.Role.of_eq_blank_iff.2 hc))
    exact ht.concat_outside hq h1 rfl (by simp [Text.nest, h2, h3]) (by simp [h4, hq])
  | letter hq hc =>
    obtain ⟨h1, h2, h3, h4⟩ := Text.Role.ne_marks (.inr (.inl (Text.Role.of_eq_letter_iff.2 hc)))
    exact ht.concat_outside hq h1 (by simp) (by simp [Text.nest, h2, h3]) (by simp [h4])
  | opener hq hd =>
    exact ht.concat_outside hq (by decide) (by simp) (by simp [Text.nest]) (by simp [hq])
  | closer hq =>
    exact ht.concat_outside hq (by decide) (by simp) (by simp [Text.nest]) (by simp [hq])
  | quote hq =>
    exact ht.concat_outside hq (by decide) (by simp) (by simp [Text.nest]) (by simp)
  | other hq hc =>
    obtain ⟨h1, h2, h3, h4⟩ := Text.Role.ne_marks (.inr (.inr hc))
    exact ht.concat_outside hq h1 (by simp) (by simp [Text.nest, h2, h3]) (by simp [h4, hq])

/-- A scan keeps track of all it reads. -/
theorem tracks_of_run (hr : run depth start a = .ok s) : Tracks a s :=
  reached_induction tracks_start (fun _ ht hc => ht.step hc) hr

/-! ## Blank lines -/

/-- Nothing has been found, and nothing is in the making. -/
def Untouched (s : Scan) : Prop := s.lexemes.toList = [] ∧ s.pending = .nothing

/-- Every character but a blank leaves a trace, and traces stay. -/
theorem Reads.untouched_iff (hr : Reads depth s c s') :
    s'.Untouched ↔ s.Untouched ∧ Text.isBlank c = true := by
  cases hr with
  | inString hp =>
    by_cases hc : c = '"' <;> simp [Untouched, hp, hc, -Array.toList_eq_nil_iff]
  | blank hq hc => simp [Untouched, hc]
  | letter hq hc =>
    have hblank := Text.not_isBlank_of_isLetter hc
    by_cases hk : s.letters ++ [c] = keyword.toList
    · simp [Untouched, letter_of_keyword hk, hblank]
    · simp [Untouched, letter_of_ne_keyword hk, hblank]
  | opener hq hd => simp [Untouched, Text.isBlank]
  | closer hq =>
    cases ho : s.settle.opened with
    | nil => simp [Untouched, closeParen_of_nil ho, Text.isBlank, -Array.toList_eq_nil_iff]
    | cons column outer =>
      simp [Untouched, closeParen_of_cons ho, Text.isBlank, -Array.toList_eq_nil_iff]
  | quote hq => simp [Untouched, Text.isBlank]
  | other hq hc =>
    obtain ⟨-, hblank, -⟩ := Text.Role.of_eq_other_iff.1 hc
    simp [Untouched, hblank, -Array.toList_eq_nil_iff]

/-- A scan is untouched as long as the line is blank. -/
theorem untouched_iff_of_run (hr : run depth start a = .ok s) :
    s.Untouched ↔ ∀ c ∈ a, Text.isBlank c = true := by
  refine reached_induction (P := fun a s => s.Untouched ↔ ∀ c ∈ a, Text.isBlank c = true) ?_ ?_ hr
  · simp [Untouched, start]
  · intro a s c s' _ h hc
    rw [hc.untouched_iff, h, List.forall_mem_append, List.forall_mem_singleton]

/-- A line that is over misses a semicolon unless it is blank. -/
theorem unterminated_eq_nil_iff (hr : run depth start a = .ok s) :
    s.settle.unterminated = [] ↔ ∀ c ∈ a, Text.isBlank c = true := by
  rw [← untouched_iff_of_run hr]
  simp only [unterminated, List.map_eq_nil_iff, Option.toList_eq_nil_iff, Option.orElse_eq_orElse,
    Option.orElse_eq_or, Option.or_eq_none_iff, Option.map_eq_none_iff, openQuote?_settle]
  constructor
  · rintro ⟨hlexemes, hq⟩
    cases hp : s.pending with
    | nothing =>
      rw [settle_of_nothing hp] at hlexemes
      exact ⟨by simpa using hlexemes, hp⟩
    | word start letters => simp [settle, hp, unknown, emit, fault] at hlexemes
    | string quote body => simp [openQuote?_of_string hp] at hq
  · rintro ⟨hlexemes, hp⟩
    rw [settle_of_nothing hp]
    exact ⟨by simpa using hlexemes, openQuote?_of_nothing hp⟩

end Scan
end LineLexer
