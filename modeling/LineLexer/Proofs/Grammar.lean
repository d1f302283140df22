import LineLexer.Proofs.Outside
import LineLexer.Reading
/-!
# The lines without a fault

`Body` is the grammar of what may stand before the semicolon. A line within the length limit is
read without a fault exactly when it is blank, or a body of the greatest depth and a semicolon with
anything behind it (`lex_clean_iff`). What a body is read to is found by induction on the body
(`passes_of_body`); that a clean line holds one is found by reading it backwards, keeping what an
unfinished scan still waits for (`Awaits`).
-/
namespace LineLexer

variable {depth d n : Nat} {s t : Scan} {c : Char} {a b cs ls w x : List Char}

/-! ## The grammar -/

/-- Some letters in order, any blanks between them. -/
inductive Spaced : List Char → List Char → Prop
  | last (c : Char) : Spaced [c] [c]
  | letter (c : Char) {ls gap w : List Char} : (∀ b ∈ gap, Text.isBlank b = true) → Spaced ls w →
      Spaced (c :: ls) (c :: (gap ++ w))

/-- What may stand before the semicolon, `d` parentheses deep. -/
inductive Body : Nat → List Char → Prop
  | empty {d : Nat} : Body d []
  | blank {d : Nat} {c : Char} {b : List Char} : Text.isBlank c = true → Body d b → Body d (c :: b)
  | keyword {d : Nat} {w b : List Char} : Spaced keyword.toList w → Body d b → Body d (w ++ b)
  | string {d : Nat} {t b : List Char} : '"' ∉ t → Body d b → Body d ('"' :: t ++ '"' :: b)
  | parens {d : Nat} {a b : List Char} : Body d a → Body (d + 1) b →
      Body (d + 1) ('(' :: a ++ ')' :: b)

theorem Spaced.ne_nil (h : Spaced ls w) : ls ≠ [] := by
  cases h <;> simp

/-! ## A body is read without a fault -/

/-- The stretch is read through and leaves nothing behind but lexemes. -/
def Passes (depth : Nat) (s : Scan) (a : List Char) : Prop :=
  ∃ t, Scan.run depth s a = .ok t ∧ t.pending = .nothing ∧ t.opened = s.opened ∧
    t.faults = s.faults

theorem Passes.append (ha : Passes depth s a)
    (hb : ∀ t : Scan, t.pending = .nothing → t.opened = s.opened → Passes depth t b) :
    Passes depth s (a ++ b) := by
  obtain ⟨t, ht, hp, ho, hf⟩ := ha
  obtain ⟨u, hu, hp', ho', hf'⟩ := hb t hp ho
  exact ⟨u, Scan.run_append_eq_ok_iff.2 ⟨t, ht, hu⟩, hp', ho'.trans ho, hf'.trans hf⟩

theorem Passes.of_reads (hr : Scan.Reads depth s c t) (ho : t.opened = s.opened)
    (hf : t.faults = s.faults) (h : Passes depth t a) : Passes depth s (c :: a) := by
  obtain ⟨u, hu, hp, ho', hf'⟩ := h
  exact ⟨u, by rwa [Scan.run_cons_of_reads hr], hp, ho'.trans ho, hf'.trans hf⟩

theorem Passes.after_blanks (hq : s.openQuote? = none) (hb : ∀ c ∈ b, Text.isBlank c = true)
    (h : Passes depth { s with column := s.column + String.utf8Len b } a) :
    Passes depth s (b ++ a) := by
  obtain ⟨u, hu, hp, ho, hf⟩ := h
  exact ⟨u, by rwa [Scan.run_append_of_ok (Scan.run_blanks hq hb)], hp, ho, hf⟩

theorem isLetter_of_mem_keyword (h : c ∈ keyword.toList) : Text.isLetter c = true := by
  have hall : keyword.toList.all Text.isLetter = true := by decide
  exact List.all_eq_true.1 hall c h

/-- The rest of the keyword, after the letters the scan has read already. -/
theorem passes_of_spaced (hw : Spaced ls w) (hq : s.openQuote? = none)
    (hk : keyword.toList = s.letters ++ ls) : Passes depth s w := by
  induction hw generalizing s with
  | last c =>
    have hletter : Text.isLetter c = true := isLetter_of_mem_keyword (by simp [hk])
    have hr : Scan.Reads depth s c ((s.letter c).advance c) := .letter hq hletter
    rw [Scan.letter_of_keyword hk.symm] at hr
    exact ⟨_, Scan.run_cons_of_reads hr [], rfl, rfl, rfl⟩
  | @letter c ls gap w hgap hw ih =>
    have hletter : Text.isLetter c = true := isLetter_of_mem_keyword (by simp [hk])
    have hne : s.letters ++ [c] ≠ keyword.toList := by
      rw [hk]
      simp [hw.ne_nil]
    -- after the letter the word is one longer, and the blanks leave it as it is
    refine .of_reads (.letter hq hletter) (by simp) (by simp) (.after_blanks (by simp) hgap ?_)
    apply ih
    · simp [Scan.openQuote?, Scan.letter_of_ne_keyword hne]
    · simp [Scan.letters, Scan.letter_of_ne_keyword hne, hk]

/-- A body is read without a fault wherever its depth is to be had. -/
theorem passes_of_body (hb : Body d b) (hp : s.pending = .nothing)
    (hd : s.opened.length + d ≤ depth) : Passes depth s b := by
  induction hb generalizing s with
  | empty => exact ⟨s, rfl, hp, rfl, rfl⟩
  | @blank d c b hc _ ih =>
    have hq : s.openQuote? = none := Scan.openQuote?_of_nothing hp
    exact .of_reads (.blank hq hc) rfl rfl (ih hp hd)
  | @keyword d w b hw _ ih =>
    have hq : s.openQuote? = none := Scan.openQuote?_of_nothing hp
    refine (passes_of_spaced hw hq (by simp [Scan.letters, hp])).append fun t hp' ho => ?_
    exact ih hp' (by rw [ho]; exact hd)
  | @string d x b hx _ ih =>
    have hq : s.openQuote? = none := Scan.openQuote?_of_nothing hp
    have hs : Passes depth s ('"' :: (x ++ ['"'])) := by
      refine ⟨_, Scan.run_string hq hx, rfl, ?_, ?_⟩
      · simp
      · simp [Scan.settle_of_nothing hp]
    have := hs.append fun t hp' ho => ih hp' (by rw [ho]; exact hd)
    simpa using this
  | @parens d a b _ _ iha ihb =>
    have hq : s.openQuote? = none := Scan.openQuote?_of_nothing hp
    have hopen : Scan.Reads depth s '(' (s.openParen.advance '(') := by
      have : Scan.Reads depth s '(' (s.settle.openParen.advance '(') := .opener hq (by omega)
      rwa [Scan.settle_of_nothing hp] at this
    obtain ⟨t, ht, hpt, hot, hft⟩ := iha (s := s.openParen.advance '(') hp (by simp; omega)
    have hclose : Scan.Reads depth t ')' (({ t with opened := s.opened }.emit .closer ")"
        t.column).advance ')') := by
      have : Scan.Reads depth t ')' (t.settle.closeParen.advance ')') :=
        .closer (Scan.openQuote?_of_nothing hpt)
      rwa [Scan.settle_of_nothing hpt, Scan.closeParen_of_cons hot] at this
    obtain ⟨u, hu, hpu, hou, hfu⟩ := ihb (s := ({ t with opened := s.opened }.emit .closer ")"
      t.column).advance ')') hpt hd
    refine ⟨u, ?_, hpu, hou, hfu.trans hft⟩
    rw [List.cons_append, Scan.run_cons_of_reads hopen, Scan.run_append_of_ok ht,
      Scan.run_cons_of_reads hclose]
    exact hu

/-! ## What a scan without a fault waits for -/

/-- What may stand before the semicolon when `n` parentheses are open: a body on each level, and
between two levels the parenthesis that closes one. -/
inductive Closes (depth : Nat) : Nat → List Char → Prop
  | last {b : List Char} : Body depth b → Closes depth 0 b
  | level {n : Nat} {b x : List Char} : Body (depth - (n + 1)) b → Closes depth n x →
      Closes depth (n + 1) (b ++ ')' :: x)

/-- What a body may start with may stand in front on every level. -/
theorem Closes.prepend (hw : ∀ b, Body (depth - n) b → Body (depth - n) (w ++ b))
    (h : Closes depth n x) : Closes depth n (w ++ x) := by
  cases h with
  | last hb => exact .last (hw _ hb)
  | level hb hx =>
    rw [← List.append_assoc]
    exact .level (hw _ hb) hx

/-- An open parenthesis takes up one level. -/
theorem Closes.openParen (hn : n < depth) (h : Closes depth (n + 1) x) :
    Closes depth n ('(' :: x) := by
  cases h with
  | @level _ b x hb hx =>
    have hdepth : depth - n = depth - (n + 1) + 1 := by omega
    have hw : ∀ y, Body (depth - n) y → Body (depth - n) ('(' :: b ++ [')'] ++ y) := by
      intro y hy
      rw [hdepth] at hy ⊢
      simpa using Body.parens hb hy
    simpa using hx.prepend hw

/-- What stands between the letters read so far and the semicolon: the rest of the keyword, and
then what may stand there without the word. -/
def AwaitsWord (depth n : Nat) (letters x : List Char) : Prop :=
  ∃ gap ls w y, (∀ b ∈ gap, Text.isBlank b = true) ∧ keyword.toList = letters ++ ls ∧
    Spaced ls w ∧ Closes depth n y ∧ x = gap ++ (w ++ y)

/-- What stands before the semicolon if the scan is to reach it without a fault. -/
def Awaits (depth : Nat) (s : Scan) (x : List Char) : Prop :=
  match s.pending with
  | .nothing => Closes depth s.opened.length x
  | .word _ letters => AwaitsWord depth s.opened.length letters.toList x
  | .string _ _ => ∃ t y, '"' ∉ t ∧ Closes depth s.opened.length y ∧ x = t ++ '"' :: y

theorem Closes.blanks {gap : List Char} (hgap : ∀ b ∈ gap, Text.isBlank b = true)
    (h : Closes depth n x) : Closes depth n (gap ++ x) := by
  induction gap with
  | nil => exact h
  | cons c gap ih =>
    have hx := ih fun b hb => hgap b (by simp [hb])
    exact hx.prepend (w := [c]) fun b hb => .blank (hgap c (by simp)) hb

/-- A word of which nothing is read yet is no more than a part of the body. -/
theorem AwaitsWord.closes (h : AwaitsWord depth n [] x) : Closes depth n x := by
  obtain ⟨gap, ls, w, y, hgap, hk, hw, hy, rfl⟩ := h
  rw [List.nil_append] at hk
  subst hk
  exact .blanks hgap (hy.prepend fun b hb => .keyword hw hb)

theorem awaits_nothing_iff (hp : s.pending = .nothing) :
    Awaits depth s x ↔ Closes depth s.opened.length x := by
  simp only [Awaits, hp]

theorem awaits_word_iff {start : Nat} {letters : String} (hp : s.pending = .word start letters) :
    Awaits depth s x ↔ AwaitsWord depth s.opened.length letters.toList x := by
  simp only [Awaits, hp]

theorem awaits_string_iff {quote : Nat} {body : String} (hp : s.pending = .string quote body) :
    Awaits depth s x ↔
      ∃ t y, '"' ∉ t ∧ Closes depth s.opened.length y ∧ x = t ++ '"' :: y := by
  simp only [Awaits, hp]

/-! ### One character back

If the scan awaits `x` after a character, then it awaited the character and `x` before. -/

theorem awaits_inString {quote : Nat} {body : String} (hp : s.pending = .string quote body)
    (h : Awaits depth ((s.inString quote body c).advance c) x) : Awaits depth s (c :: x) := by
  rw [awaits_string_iff hp]
  by_cases hc : c = '"'
  · rw [awaits_nothing_iff (by simp [hc])] at h
    exact ⟨[], x, by simp, by simpa using h, by simp [hc]⟩
  · have hp' : ((s.inString quote body c).advance c).pending = .string quote (body.push c) := by
      simp [hc]
    rw [awaits_string_iff hp'] at h
    obtain ⟨t, y, ht, hy, rfl⟩ := h
    refine ⟨c :: t, y, ?_, by simpa using hy, rfl⟩
    rw [List.mem_cons, not_or]
    exact ⟨Ne.symm hc, ht⟩

theorem awaits_blank (hq : s.openQuote? = none) (hc : Text.isBlank c = true)
    (h : Awaits depth (s.advance c) x) : Awaits depth s (c :: x) := by
  cases hp : s.pending with
  | nothing =>
    have hx : Closes depth s.opened.length x := (awaits_nothing_iff hp).1 h
    exact (awaits_nothing_iff hp).2 (hx.prepend (w := [c]) fun b hb => .blank hc hb)
  | word start letters =>
    obtain ⟨gap, ls, w, y, hgap, hk, hw, hy, rfl⟩ := (awaits_word_iff hp).1 h
    rw [awaits_word_iff hp]
    exact ⟨c :: gap, ls, w, y, by simpa [hc] using hgap, hk, hw, hy, rfl⟩
  | string quote body => simp [Scan.openQuote?_of_string hp] at hq

theorem awaits_letter (hq : s.openQuote? = none)
    (h : Awaits depth ((s.letter c).advance c) x) : Awaits depth s (c :: x) := by
  suffices hword : AwaitsWord depth s.opened.length s.letters (c :: x) by
    unfold Scan.letters at hword
    cases hp : s.pending with
    | nothing => exact (awaits_nothing_iff hp).2 (AwaitsWord.closes (by simpa [hp] using hword))
    | word start letters => exact (awaits_word_iff hp).2 (by simpa [hp] using hword)
    | string quote body => simp [Scan.openQuote?_of_string hp] at hq
  by_cases hk : s.letters ++ [c] = keyword.toList
  · rw [awaits_nothing_iff (by simp [Scan.letter_of_keyword hk])] at h
    exact ⟨[], [c], [c], x, by simp, hk.symm, .last c, by simpa using h, rfl⟩
  · have hp' : ((s.letter c).advance c).pending =
        .word s.wordStart (String.ofList (s.letters ++ [c])) := by
      simp [Scan.letter_of_ne_keyword hk]
    rw [awaits_word_iff hp', String.toList_ofList] at h
    obtain ⟨gap, ls, w, y, hgap, hls, hw, hy, rfl⟩ := h
    refine ⟨[], c :: ls, c :: (gap ++ w), y, by simp, ?_, .letter c hgap hw, by simpa using hy, ?_⟩
    · rw [hls, List.append_assoc, List.singleton_append]
    · simp

theorem Awaits.of_reads (hr : Scan.Reads depth s c t) (hf : t.faults.toList = [])
    (h : Awaits depth t x) : Awaits depth s (c :: x) := by
  cases hr with
  | inString hp => exact awaits_inString hp h
  | blank hq hc => exact awaits_blank hq hc h
  | letter hq hc => exact awaits_letter hq h
  | opener hq hd =>
    have hp := Scan.pending_eq_nothing_of_settle hq hf
    rw [Scan.settle_of_nothing hp, awaits_nothing_iff (by simpa using hp)] at h
    have hx : Closes depth (s.opened.length + 1) x := by simpa using h
    exact (awaits_nothing_iff hp).2 (hx.openParen hd)
  | closer hq =>
    cases ho : s.opened with
    | nil => simp [Scan.closeParen_of_nil, ho] at hf
    | cons column outer =>
      have ho' : s.settle.opened = column :: outer := by simp [ho]
      rw [Scan.closeParen_of_cons ho'] at hf h
      have hp := Scan.pending_eq_nothing_of_settle hq hf
      rw [Scan.settle_of_nothing hp, awaits_nothing_iff (by simpa using hp)] at h
      have hx : Closes depth outer.length x := by simpa using h
      rw [awaits_nothing_iff hp, ho]
      exact .level .empty hx
  | quote hq =>
    have hp := Scan.pending_eq_nothing_of_settle hq hf
    rw [awaits_string_iff rfl] at h
    obtain ⟨t, y, ht, hy, rfl⟩ := h
    rw [awaits_nothing_iff hp]
    have hw : ∀ b, Body (depth - s.settle.opened.length) b →
        Body (depth - s.settle.opened.length) ('"' :: t ++ ['"'] ++ b) :=
      fun b hb => by simpa using Body.string ht hb
    simpa using hy.prepend hw
  | other hq hc => simp at hf

/-- A scan that reaches the semicolon without a fault has read what it waited for. -/
theorem awaits_of_run {f : Findings} (hr : Scan.run depth s cs = .error (.terminated f))
    (hf : f.faults = []) : ∃ x rest, cs = x ++ ';' :: rest ∧ Awaits depth s x := by
  induction cs generalizing s with
  | nil => cases hr
  | cons c cs ih =>
    rcases Scan.step_cases depth s c with ⟨t, ht⟩ | ⟨hq, rfl, hs⟩ | ⟨-, -, -, hs⟩
    · rw [Scan.run_cons_of_reads ht] at hr
      obtain ⟨x, rest, rfl, hx⟩ := ih hr
      exact ⟨c :: x, rest, rfl, hx.of_reads ht (Scan.faults_eq_nil_of_terminated hr hf)⟩
    · rw [Scan.run_cons, hs] at hr
      cases hr
      obtain ⟨hfaults, hparens⟩ := List.append_eq_nil_iff.1 hf
      have hp := Scan.pending_eq_nothing_of_settle hq hfaults
      have ho : s.opened = [] := by simpa [Scan.unclosedParen] using hparens
      refine ⟨[], cs, rfl, (awaits_nothing_iff hp).2 ?_⟩
      rw [ho]
      exact .last .empty
    · rw [Scan.run_cons, hs] at hr
      cases hr

/-! ## Which lines -/

/-- A line that no semicolon ends has a fault, unless it is blank. -/
theorem faults_exhausted_eq_nil_iff (hr : Scan.run depth .start cs = .ok s) :
    s.settle.exhausted.faults = [] ↔ ∀ c ∈ cs, Text.isBlank c = true := by
  constructor
  · intro hf
    simp only [Scan.exhausted, List.append_eq_nil_iff] at hf
    obtain ⟨-, hend⟩ := hf
    exact (Scan.unterminated_eq_nil_iff hr).1 hend
  · intro hb
    have hblank : Scan.run depth .start cs = .ok _ := Scan.run_blanks rfl hb
    rw [hr] at hblank
    cases hblank
    rfl

theorem exists_terminated_clean_iff :
    (∃ f, Scan.run depth .start cs = .error (.terminated f) ∧ f.faults = []) ↔
      ∃ body rest, cs = body ++ ';' :: rest ∧ Body depth body := by
  constructor
  · rintro ⟨f, hr, hf⟩
    obtain ⟨x, rest, rfl, hx⟩ := awaits_of_run hr hf
    cases (awaits_nothing_iff rfl).1 hx with
    | last hb => exact ⟨x, rest, rfl, hb⟩
  · rintro ⟨body, rest, rfl, hb⟩
    have hd : Scan.start.opened.length + depth ≤ depth := by simp [Scan.start]
    obtain ⟨t, ht, hp, ho, hf⟩ := passes_of_body hb rfl hd
    have hq : t.openQuote? = none := Scan.openQuote?_of_nothing hp
    refine ⟨_, Scan.run_eq_terminated_iff.2 ⟨body, rest, t, rfl, ht, hq, rfl⟩, ?_⟩
    rw [Scan.settle_of_nothing hp]
    simp [Scan.terminated, Scan.unclosedParen, ho, hf, Scan.start]

/-- The lines read without a fault are the blank ones, and those that hold a body, a semicolon and
then anything. -/
theorem lex_clean_iff (limits : Limits) (place : Place) (text : String) :
    (∃ r, limits.lex place text = .ok r ∧ r.isClean = true) ↔
      (Text.dropEnding text).utf8ByteSize ≤ limits.length ∧
        ((∀ c ∈ (Text.dropEnding text).toList, Text.isBlank c = true) ∨
          ∃ body rest, (Text.dropEnding text).toList = body ++ ';' :: rest ∧
            Body limits.depth body) := by
  rw [← exists_terminated_clean_iff]
  constructor
  · rintro ⟨r, hr, hclean⟩
    obtain ⟨f, hf, rfl⟩ := Limits.lex_eq_ok_iff.1 hr
    rw [Reading.isClean_atPlace, List.isEmpty_iff] at hclean
    obtain ⟨hlength, ⟨s, hs, rfl⟩ | ht⟩ := Limits.scan_eq_ok_iff.1 hf
    · exact ⟨hlength, .inl ((faults_exhausted_eq_nil_iff hs).1 hclean)⟩
    · exact ⟨hlength, .inr ⟨f, ht, hclean⟩⟩
  · rintro ⟨hlength, hblank | ⟨f, ht, hf⟩⟩
    · have hs : Scan.run limits.depth .start _ = .ok _ := Scan.run_blanks rfl hblank
      have hscan := Limits.scan_eq_ok_iff.2 ⟨hlength, .inl ⟨_, hs, rfl⟩⟩
      refine ⟨_, Limits.lex_eq_ok_iff.2 ⟨_, hscan, rfl⟩, ?_⟩
      rw [Reading.isClean_atPlace, (faults_exhausted_eq_nil_iff hs).2 hblank]
      rfl
    · have hscan := Limits.scan_eq_ok_iff.2 ⟨hlength, .inr ht⟩
      refine ⟨_, Limits.lex_eq_ok_iff.2 ⟨_, hscan, rfl⟩, ?_⟩
      rw [Reading.isClean_atPlace, hf]
      rfl

end LineLexer
