import LineLexer.Proofs.Conservation
/-!
# What a line can be read to

`WellFormed` says of contents, without a scan, that each may stand after those before it. What a
scan finds is always well formed (`wellFormed_of_scan`).
-/
namespace LineLexer

variable {depth : Nat} {s t : Scan} {c : Char} {w : Content} {ws : List Content}
  {a : List Char}

/-! ## Which contents may follow which -/

/-- A text that is taken for a word without use: letters, and no keyword in front. -/
structure StrayWord (text : String) : Prop where
  nonempty : text ≠ ""
  letters : ∀ c ∈ text.toList, Text.isLetter c = true
  noKeyword : ¬ keyword.toList <+: text.toList

/-- The texts that go with each kind. -/
inductive Fits : Content → Prop
  | print : Fits (.print, keyword)
  | terminator : Fits (.terminator, ";")
  | opener : Fits (.opener, "(")
  | closer : Fits (.closer, ")")
  | literal {text : String} : '"' ∉ text.toList → Fits (.literal, text)
  | stray : Fits (.unknown, ")")
  | other {c : Char} : Text.isLetter c = false → Text.isBlank c = false →
      c ∉ [';', '(', ')', '"'] → Fits (.unknown, String.singleton c)
  | word {text : String} : StrayWord text → Fits (.unknown, text)

/-- A text without use that is all letters. -/
def Content.IsWord (w : Content) : Prop :=
  w.1 = .unknown ∧ ∀ c ∈ w.2.toList, Text.isLetter c = true

/-- The parentheses opened less those closed. -/
def level (ws : List Content) : Int :=
  (ws.countP fun w => w.1 = .opener : Nat) - (ws.countP fun w => w.1 = .closer : Nat)

/-- What may stand after `before`. -/
structure Admits (depth : Nat) (before : List Content) (w : Content) : Prop where
  fits : Fits w
  /-- Letters that follow a word are part of it. -/
  apart : ∀ u, before.getLast? = some u → u.IsWord → w.1 ≠ .print ∧ ¬ w.IsWord
  /-- Nothing follows a semicolon. -/
  running : ∀ u ∈ before, u.1 ≠ .terminator
  opener : w.1 = .opener → level before < depth
  closer : w.1 = .closer → 0 < level before
  stray : w = (.unknown, ")") → level before = 0

/-- Each of the contents may stand after those before it. -/
def WellFormed (depth : Nat) (ws : List Content) : Prop :=
  ∀ a w b, ws = a ++ w :: b → Admits depth a w

theorem wellFormed_nil : WellFormed depth [] := by
  intro a w b h
  simp at h

theorem wellFormed_concat_iff :
    WellFormed depth (ws ++ [w]) ↔ WellFormed depth ws ∧ Admits depth ws w := by
  constructor
  · intro h
    refine ⟨fun a u b hws => h a u (b ++ [w]) (by simp [hws]), h ws w [] rfl⟩
  · rintro ⟨hws, hw⟩ a u b h
    rcases List.eq_nil_or_concat b with rfl | ⟨b', v, rfl⟩
    · obtain ⟨rfl, rfl⟩ : ws = a ∧ w = u := by simpa using List.append_inj' h rfl
      exact hw
    · have h' : ws ++ [w] = (a ++ u :: b') ++ [v] := by simp [h]
      exact hws a u b' (List.append_inj' h' rfl).1

theorem WellFormed.fits (h : WellFormed depth ws) (hw : w ∈ ws) : Fits w := by
  obtain ⟨a, b, hab⟩ := List.append_of_mem hw
  exact (h a w b hab).fits

theorem level_concat (ws : List Content) (w : Content) :
    level (ws ++ [w]) =
      level ws + (if w.1 = .opener then 1 else 0) - if w.1 = .closer then 1 else 0 := by
  simp only [level, List.countP_append, List.countP_singleton, decide_eq_true_eq]
  split <;> split <;> simp <;> omega

theorem StrayWord.isWord {text : String} (h : StrayWord text) :
    Content.IsWord (.unknown, text) :=
  ⟨rfl, h.letters⟩

theorem StrayWord.ne_closer {text : String} (h : StrayWord text) : text ≠ ")" := by
  rintro rfl
  exact absurd (h.letters ')' (by decide)) (by decide)

theorem not_isWord_singleton (h : Text.isLetter c = false) :
    ¬ Content.IsWord (.unknown, String.singleton c) := by
  rintro ⟨-, hletters⟩
  simp [h] at hletters

theorem singleton_ne_closer (h : c ∉ [';', '(', ')', '"']) : String.singleton c ≠ ")" := by
  intro heq
  have hc : c = ')' := by simpa using congrArg String.toList heq
  simp [hc] at h

theorem not_isWord_of_ne (h : w.1 ≠ .unknown) : ¬ w.IsWord := fun hw => h hw.1

namespace Scan

/-! ## What a scan finds -/

/-- What a scan has found, and how it stands with the parentheses. -/
structure Formed (depth : Nat) (s : Scan) : Prop where
  wellFormed : WellFormed depth s.contents
  running : ∀ w ∈ s.contents, w.1 ≠ .terminator
  level : level s.contents = s.opened.length

/-- What a scan is in the middle of may stand where it is. -/
structure Lexed (depth : Nat) (s : Scan) : Prop extends Formed depth s where
  apart : s.openQuote? = none → ∀ w, s.contents.getLast? = some w → ¬ w.IsWord
  word : ∀ start letters, s.pending = .word start letters → StrayWord letters

theorem lexed_start : Lexed depth start where
  wellFormed := wellFormed_nil
  running := by simp [contents, start]
  level := rfl
  apart := by simp [contents, start]
  word := nofun

/-- What is admitted and leaves the parentheses right may be found next. -/
theorem Formed.concat (h : Formed depth s) (hw : Admits depth s.contents w)
    (hterm : w.1 ≠ .terminator) (hcontents : t.contents = s.contents ++ [w])
    (hlevel : LineLexer.level (s.contents ++ [w]) = t.opened.length) : Formed depth t where
  wellFormed := by
    rw [hcontents]
    exact wellFormed_concat_iff.2 ⟨h.wellFormed, hw⟩
  running := by
    rw [hcontents]
    intro u hu
    rw [List.mem_append, List.mem_singleton] at hu
    rcases hu with hu | rfl
    · exact h.running u hu
    · exact hterm
  level := by rw [hcontents, hlevel]

/-- A word given up is admitted, as no word stands before it. -/
theorem Lexed.settle (h : Lexed depth s) : Formed depth s.settle := by
  cases hp : s.pending with
  | nothing =>
    rw [settle_of_nothing hp]
    exact h.toFormed
  | word start letters =>
    have hword := h.word start letters hp
    have hq := openQuote?_of_word hp
    have hcontents := contents_settle_of_word hp
    refine h.toFormed.concat ⟨.word hword, ?_, h.running, by simp, by simp, ?_⟩ (by simp) hcontents
      ?_
    · intro u hu hword'
      exact absurd hword' (h.apart hq u hu)
    · intro heq
      exact absurd (congrArg Prod.snd heq) hword.ne_closer
    · simp [level_concat, h.level]
  | string quote body =>
    rw [settle_of_openQuote? (by simp [openQuote?_of_string hp])]
    exact h.toFormed

theorem Formed.of_eq (h : Formed depth s) (hc : t.contents = s.contents)
    (ho : t.opened = s.opened) : Formed depth t where
  wellFormed := by rw [hc]; exact h.wellFormed
  running := by rw [hc]; exact h.running
  level := by rw [hc, ho]; exact h.level

/-- What is no word keeps words apart. -/
theorem Formed.lexed_concat (h : Formed depth s) (hw : Admits depth s.contents w)
    (hterm : w.1 ≠ .terminator) (hcontents : t.contents = s.contents ++ [w])
    (hlevel : LineLexer.level (s.contents ++ [w]) = t.opened.length) (hword : ¬ w.IsWord)
    (hp : t.pending = .nothing) : Lexed depth t where
  toFormed := h.concat hw hterm hcontents hlevel
  apart := by
    rw [hcontents]
    intro _ u hu
    obtain rfl : w = u := by simpa using hu
    exact hword
  word := by simp [hp]

/-- What a scan keeps of a word is letters, and no keyword in front. -/
theorem Lexed.letters (h : Lexed depth s) :
    (∀ x ∈ s.letters, Text.isLetter x = true) ∧ ¬ keyword.toList <+: s.letters := by
  cases hp : s.pending with
  | word start letters =>
    have hword := h.word start letters hp
    simpa [Scan.letters, hp] using And.intro hword.letters hword.noKeyword
  | nothing => simp [Scan.letters, hp, keyword]
  | string quote body => simp [Scan.letters, hp, keyword]

/-- A word that takes one letter more, and is not the keyword now, has no keyword in front. -/
theorem Lexed.strayWord (h : Lexed depth s) (hc : Text.isLetter c = true)
    (hk : s.letters ++ [c] ≠ keyword.toList) : StrayWord (String.ofList (s.letters ++ [c])) := by
  have hletters := h.letters
  refine ⟨by simp [String.ext_iff], ?_, ?_⟩
  · intro x hx
    rw [String.toList_ofList, List.mem_append, List.mem_singleton] at hx
    rcases hx with hx | rfl
    · exact hletters.1 x hx
    · exact hc
  · rw [String.toList_ofList, List.prefix_concat_iff]
    rintro (heq | hprefix)
    · exact hk heq.symm
    · exact hletters.2 hprefix

theorem Lexed.letter (h : Lexed depth s) (hq : s.openQuote? = none) (hc : Text.isLetter c = true) :
    Lexed depth (s.letter c) := by
  by_cases hk : s.letters ++ [c] = keyword.toList
  · refine h.toFormed.lexed_concat ⟨.print, ?_, h.running, nofun, nofun, nofun⟩ (by simp)
      (by rw [contents_letter, if_pos hk]) ?_ (not_isWord_of_ne (by simp))
      (by simp [letter_of_keyword hk])
    · intro u hu hword'
      exact absurd hword' (h.apart hq u hu)
    · simp [level_concat, h.level]
  · have hcontents : (s.letter c).contents = s.contents := by
      rw [contents_letter, if_neg hk, List.append_nil]
    refine ⟨h.toFormed.of_eq hcontents (by simp), ?_, ?_⟩
    · rw [hcontents]
      intro _
      exact h.apart hq
    · intro start letters hp
      obtain ⟨-, rfl⟩ : s.wordStart = start ∧ String.ofList (s.letters ++ [c]) = letters := by
        simpa [letter_of_ne_keyword hk] using hp
      exact h.strayWord hc hk

theorem Lexed.advance (h : Lexed depth s) (c : Char) : Lexed depth (s.advance c) :=
  ⟨⟨h.wellFormed, h.running, h.level⟩, h.apart, h.word⟩

theorem Lexed.inString {quote : Nat} {body : String} (h : Lexed depth s)
    (hbody : '"' ∉ body.toList) : Lexed depth (s.inString quote body c) := by
  by_cases hc : c = '"'
  · refine h.toFormed.lexed_concat ⟨.literal hbody, ?_, h.running, nofun, nofun, nofun⟩ (by simp)
      (by simp [hc]) ?_ (not_isWord_of_ne (by simp)) (by simp [hc])
    · intro u _ _
      exact ⟨by simp, not_isWord_of_ne (by simp)⟩
    · simp [level_concat, h.level]
  · refine ⟨h.toFormed.of_eq (by simp [hc]) (by simp), ?_, by simp [hc]⟩
    simp [openQuote?, hc]

theorem Formed.openParen (h : Formed depth s) (hp : s.pending = .nothing)
    (hd : s.opened.length < depth) : Lexed depth s.openParen := by
  refine h.lexed_concat ⟨.opener, ?_, h.running, ?_, nofun, nofun⟩ (by simp)
    (contents_openParen s) ?_ (not_isWord_of_ne (by simp)) hp
  · intro u _ _
    exact ⟨by simp, not_isWord_of_ne (by simp)⟩
  · rw [h.level]
    intro _
    exact_mod_cast hd
  · simp [level_concat, h.level]

theorem Formed.closeParen (h : Formed depth s) (hp : s.pending = .nothing) :
    Lexed depth s.closeParen := by
  have hp' : s.closeParen.pending = .nothing := by simp [hp]
  cases ho : s.opened with
  | nil =>
    have hword : ¬ Content.IsWord (.unknown, ")") := not_isWord_singleton (c := ')') (by decide)
    refine h.lexed_concat ⟨.stray, ?_, h.running, nofun, nofun, ?_⟩ (by simp)
      (by simp [ho]) ?_ hword hp'
    · intro u _ _
      exact ⟨by simp, hword⟩
    · simp [h.level, ho]
    · simp [level_concat, h.level, ho]
  | cons column outer =>
    refine h.lexed_concat ⟨.closer, ?_, h.running, nofun, ?_, nofun⟩ (by simp)
      (by simp [ho]) ?_ (not_isWord_of_ne (by simp)) hp'
    · intro u _ _
      exact ⟨by simp, not_isWord_of_ne (by simp)⟩
    · simp [h.level, ho]
    · simp [level_concat, h.level, ho]

theorem Formed.other (h : Formed depth s) (hp : s.pending = .nothing)
    (hc : Text.Role.of c = .other) (column : Nat) :
    Lexed depth (s.unknown (String.singleton c) column) := by
  obtain ⟨hletter, hblank, hmarks⟩ := Text.Role.of_eq_other_iff.1 hc
  have hword := not_isWord_singleton hletter
  refine h.lexed_concat ⟨.other hletter hblank hmarks, ?_, h.running, nofun, nofun, ?_⟩ (by simp)
    (contents_unknown _ _ _) ?_ hword hp
  · intro u _ _
    exact ⟨by simp, hword⟩
  · intro heq
    exact absurd (congrArg Prod.snd heq) (singleton_ne_closer hmarks)
  · simp [level_concat, h.level]

theorem Lexed.step (h : Lexed depth s) (ht : Tracks a s) (hr : Reads depth s c t) :
    Lexed depth t := by
  cases hr with
  | @inString quote body _ hp =>
    obtain ⟨-, -, -, -, hbody⟩ := ht.string quote body hp
    exact (h.inString hbody).advance c
  | blank hq hc => exact h.advance c
  | letter hq hc => exact (h.letter hq hc).advance c
  | opener hq hd =>
    exact (h.settle.openParen (pending_settle hq) (by simpa using hd)).advance _
  | closer hq => exact (h.settle.closeParen (pending_settle hq)).advance _
  | quote hq =>
    have hs := h.settle
    exact ⟨hs.of_eq rfl rfl, by simp [openQuote?], by simp⟩
  | other hq hc => exact (h.settle.other (pending_settle hq) hc _).advance _

theorem lexed_of_run (hr : run depth start a = .ok s) : Lexed depth s :=
  reached_induction (P := fun _ s => Lexed depth s) lexed_start
    (fun hrun h hc => h.step (tracks_of_run hrun) hc) hr

/-- As long as a scan goes on it has found no semicolon. -/
theorem kind_ne_terminator_of_run (hr : run depth start a = .ok s) :
    ∀ l ∈ s.settle.lexemes.toList, l.kind ≠ .terminator := by
  intro l hl
  exact (lexed_of_run hr).settle.running l.content (List.mem_map_of_mem hl)

end Scan

/-- What a line is read to is well formed. -/
theorem wellFormed_of_scan {limits : Limits} {line : String} {f : Findings}
    (hf : limits.scan line = .ok f) : WellFormed limits.depth f.contents := by
  obtain ⟨-, ⟨s, hs, rfl⟩ | hend⟩ := Limits.scan_eq_ok_iff.1 hf
  · exact (Scan.lexed_of_run hs).settle.wellFormed
  · obtain ⟨a, b, t, hline, ht, hq, rfl⟩ := Scan.run_eq_terminated_iff.1 hend
    rw [Scan.contents_terminated]
    have h := (Scan.lexed_of_run ht).settle
    refine wellFormed_concat_iff.2 ⟨h.wellFormed, .terminator, ?_, h.running, nofun, nofun, nofun⟩
    intro u _ _
    exact ⟨by simp, not_isWord_of_ne (by simp)⟩

theorem fits_of_mem {limits : Limits} {line : String} {f : Findings} {l : Lexeme}
    (hf : limits.scan line = .ok f) (hl : l ∈ f.lexemes) : Fits l.content := by
  exact (wellFormed_of_scan hf).fits (List.mem_map_of_mem hl)

end LineLexer
