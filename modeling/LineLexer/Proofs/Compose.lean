import LineLexer.Proofs.Script
/-!
# Scripts below each other

A script that ends with a newline, and another below it, are read as the two scripts are, the lines
of the second further down. No state goes from one line to the next, and how a line ends is no part
of it (`lexScript_compose`).
-/
namespace LineLexer

namespace Text

variable {a : List Char} {ps : List (List Char)} {prev : Option Char}

/-! ## Cutting behind a newline -/

/-- What follows the text starts on a line of its own. -/
def EndsLine (s : String) : Prop := s = "" ∨ s.toList.getLast? = some '\n'

instance (s : String) : Decidable (EndsLine s) := inferInstanceAs (Decidable (_ ∨ _))

theorem consPiece_append (h : ps ≠ []) (c : Char) (qs : List (List Char)) :
    consPiece c (ps ++ qs) = consPiece c ps ++ qs := by
  obtain ⟨p, ps, rfl⟩ := List.exists_cons_of_ne_nil h
  simp only [List.cons_append, consPiece]
  split <;> rfl

theorem pieces_append (h : a = [] ∨ a.getLast? = some '\n') (b : List Char) :
    pieces (a ++ b) = pieces a ++ pieces b := by
  induction a with
  | nil => rfl
  | cons c a ih =>
    cases a with
    | nil =>
      obtain rfl : c = '\n' := by simpa using h
      exact pieces_append_newline (x := []) (by simp) b
    | cons d a =>
      have hne : pieces (d :: a) ≠ [] := by
        intro hnil
        have := flatten_pieces (d :: a)
        simp [hnil] at this
      rw [List.cons_append, pieces_cons, ih (.inr (by simpa using h)), consPiece_append hne,
        ← pieces_cons]

theorem lines_append {s : String} (h : EndsLine s) (t : String) :
    lines (s ++ t) = lines s ++ lines t := by
  have hs : s.toList = [] ∨ s.toList.getLast? = some '\n' := by
    rcases h with rfl | h
    · exact .inl rfl
    · exact .inr h
  rw [lines, String.toList_append, pieces_append hs, List.map_append]
  rfl

/-! ## Other line endings -/

/-- Puts a carriage return in front of every newline that has none, in a text behind `prev`. -/
def addReturnsAfter (prev : Option Char) : List Char → List Char
  | [] => []
  | c :: cs =>
    if c = '\n' ∧ prev ≠ some '\r' then '\r' :: c :: addReturnsAfter (some c) cs
    else c :: addReturnsAfter (some c) cs

/-- Puts a carriage return in front of every newline that has none. -/
def addReturns (s : String) : String := String.ofList (addReturnsAfter none s.toList)

theorem addReturnsAfter_append (h : '\n' ∉ a) (prev : Option Char) (rest : List Char) :
    addReturnsAfter prev (a ++ rest) = a ++ addReturnsAfter (a.getLast?.or prev) rest := by
  induction a generalizing prev with
  | nil => rfl
  | cons c a ih =>
    rw [List.mem_cons, not_or] at h
    have hlast : a.getLast?.or (some c) = (c :: a).getLast?.or prev := by
      rw [List.getLast?_cons]
      cases a.getLast? <;> rfl
    rw [List.cons_append, addReturnsAfter, if_neg (fun hc => h.1 hc.1.symm), ih h.2, hlast,
      List.cons_append]

/-- The line with `\r\n` for `\n`. -/
def PhysicalLine.withReturn (l : PhysicalLine) : PhysicalLine :=
  match l.ending with
  | .newline => ⟨l.text, .crlf⟩
  | _ => l

theorem PhysicalLine.text_withReturn (l : PhysicalLine) : l.withReturn.text = l.text := by
  unfold withReturn; split <;> rfl

theorem PhysicalLine.ending_withReturn_eq_none_iff {l : PhysicalLine} :
    l.withReturn.ending = .none ↔ l.ending = .none := by
  unfold withReturn; split <;> simp [*]

theorem PhysicalLine.Proper.withReturn {l : PhysicalLine} (h : l.Proper) : l.withReturn.Proper := by
  unfold PhysicalLine.withReturn
  split
  · exact ⟨h.newline_not_mem, nofun, nofun⟩
  · exact h

theorem ProperSource.map_withReturn {ls : List PhysicalLine} (h : ProperSource ls) :
    ProperSource (ls.map (·.withReturn)) := by
  refine ⟨?_, ?_⟩
  · simpa using fun l hl => (h.proper l hl).withReturn
  · intro m hm
    rw [← List.map_dropLast, List.mem_map] at hm
    obtain ⟨l, hl, rfl⟩ := hm
    exact mt PhysicalLine.ending_withReturn_eq_none_iff.1 (h.ended l hl)

/-- A line is rewritten on its own, as a newline in front of it is no carriage return. -/
theorem addReturnsAfter_written {l : PhysicalLine} {rest : List Char} (hl : l.Proper)
    (hrest : l.ending = .none → rest = []) (hprev : prev ≠ some '\r') :
    addReturnsAfter prev (l.written.toList ++ rest) =
      l.withReturn.written.toList ++ addReturnsAfter (some '\n') rest := by
  obtain ⟨text, ending⟩ := l
  have hfront := addReturnsAfter_append hl.newline_not_mem prev
  cases ending with
  | newline =>
    have hlast : text.toList.getLast?.or prev ≠ some '\r' := by
      have htext : text.toList.getLast? ≠ some '\r' := hl.newline rfl
      cases h : text.toList.getLast? with
      | none => simpa using hprev
      | some c => simpa [h] using htext
    simp [PhysicalLine.written, Ending.text, PhysicalLine.withReturn, hfront, addReturnsAfter, hlast]
  | crlf =>
    simp [PhysicalLine.written, Ending.text, PhysicalLine.withReturn, hfront, addReturnsAfter]
  | none =>
    obtain rfl : rest = [] := hrest rfl
    simpa [PhysicalLine.written, Ending.text, PhysicalLine.withReturn, addReturnsAfter]
      using hfront []

theorem addReturnsAfter_source {ls : List PhysicalLine} (h : ProperSource ls)
    (hprev : prev ≠ some '\r') :
    addReturnsAfter prev (source ls).toList = (source (ls.map (·.withReturn))).toList := by
  -- each line but the first stands behind the newline of the one above, whatever `prev` is
  induction ls generalizing prev with
  | nil => rfl
  | cons l ls ih =>
    obtain ⟨hl, hended, hls⟩ := properSource_cons_iff.1 h
    have hrest : l.ending = .none → (source ls).toList = [] := by
      intro he
      have hnil : ls = [] := by
        by_contra hne
        exact hended hne he
      rw [hnil]
      rfl
    rw [toList_source_cons, addReturnsAfter_written hl hrest hprev, ih hls (by simp), List.map_cons,
      toList_source_cons]

/-- The lines are the same with either ending. -/
theorem lines_addReturns (s : String) : lines (addReturns s) = lines s := by
  obtain ⟨ls, hls, hsource⟩ := exists_source s.toList
  have hreturns : addReturns s = source (ls.map (·.withReturn)) := by
    rw [addReturns, ← hsource, addReturnsAfter_source hls (by simp), String.ofList_toList]
  rw [hreturns, lines_source hls.map_withReturn, ← String.toList_inj.1 hsource, lines_source hls,
    List.map_map]
  exact List.map_congr_left fun l _ => l.text_withReturn

end Text

/-! ## Further down -/

/-- The same place `n` lines down. -/
def Place.down (n : Nat) (p : Place) : Place := { p with line := p.line + n }

def Token.down (n : Nat) (t : Token) : Token := { t with line := t.line + n }

def Diagnostic.down (n : Nat) (d : Diagnostic) : Diagnostic := { d with place := d.place.down n }

def Overrun.down (n : Nat) (o : Overrun) : Overrun := { o with place := o.place.down n }

def Reading.down (n : Nat) (r : Reading) : Reading where
  tokens := r.tokens.map (·.down n)
  diagnostics := r.diagnostics.map (·.down n)

def ScriptLine.down (n : Nat) (l : ScriptLine) : ScriptLine where
  number := l.number + n
  text := l.text
  reading := l.reading.down n

/-- An outcome further down: what is found is the same. -/
def outcomeDown {α : Type} (down : α → α) (n : Nat) : Except Overrun α → Except Overrun α
  | .ok a => .ok (down a)
  | .error o => .error (o.down n)

variable {limits : Limits} {file : String} {o : Overrun}

theorem Findings.atPlace_down (f : Findings) (n : Nat) (p : Place) :
    f.atPlace (p.down n) = (f.atPlace p).down n := by
  simp [Findings.atPlace, Reading.down, Lexeme.onLine, Token.down, Place.down, Fault.atPlace,
    Diagnostic.down, Function.comp_def]

theorem lex_down (limits : Limits) (n : Nat) (p : Place) (text : String) :
    limits.lex (p.down n) text = outcomeDown (Reading.down n) n (limits.lex p text) := by
  unfold Limits.lex
  cases limits.scan (Text.dropEnding text) with
  | ok f => exact congrArg Except.ok (f.atPlace_down n p)
  | error e => rfl

theorem lexLines_down (limits : Limits) (file : String) (n k : Nat) (lines : List String) :
    limits.lexLines file (n + k) lines =
      outcomeDown (List.map (ScriptLine.down k)) k (limits.lexLines file n lines) := by
  induction lines generalizing n with
  | nil => rfl
  | cons line rest ih =>
    have hlex : limits.lex ⟨file, n + k⟩ line =
        outcomeDown (Reading.down k) k (limits.lex ⟨file, n⟩ line) := lex_down limits k ⟨file, n⟩ line
    have hn : n + k + 1 = n + 1 + k := by omega
    rw [lexLines_cons, lexLines_cons, hlex, hn, ih]
    cases limits.lex ⟨file, n⟩ line with
    | error o => rfl
    | ok r => cases limits.lexLines file (n + 1) rest <;> rfl

/-! ## One script below another -/

theorem lexLines_append (limits : Limits) (file : String) (n : Nat) (xs ys : List String) :
    limits.lexLines file n (xs ++ ys) =
      limits.lexLines file n xs >>= fun above =>
        (limits.lexLines file (n + xs.length) ys).map (above ++ ·) := by
  rw [Limits.lexLines, List.zipIdx_append, List.mapM_append]
  rfl

/-- Below a script that is read stands the other, as many lines down as the first is long. -/
theorem lexScript_append_of_ok {a : String} {above : List ScriptLine} (ha : Text.EndsLine a)
    (h : limits.lexScript file a = .ok above) (b : String) :
    limits.lexScript file (a ++ b) =
      outcomeDown (fun below => above ++ below.map (·.down above.length)) above.length
        (limits.lexScript file b) := by
  rw [Limits.lexScript] at h
  have hlength : above.length = (Text.lines a).length := (getElem?_of_lexLines h).1
  rw [Limits.lexScript, Text.lines_append ha, lexLines_append, h, lexLines_down, ← hlength,
    Limits.lexScript]
  cases limits.lexLines file 1 (Text.lines b) <;> rfl

/-- What gives up a script gives it up with any other below it. -/
theorem lexScript_append_of_error {a : String} (ha : Text.EndsLine a)
    (h : limits.lexScript file a = .error o) (b : String) :
    limits.lexScript file (a ++ b) = .error o := by
  rw [Limits.lexScript] at h
  rw [Limits.lexScript, Text.lines_append ha, lexLines_append, h]
  rfl

/-- With a script below another that ends its line, the first is read as ever and the second so many
lines down; the first that is given up decides. A script with `\r\n` for each `\n` is read as the
script itself. -/
theorem lexScript_compose (limits : Limits) (file : String) :
    (∀ a b, Text.EndsLine a →
      (∀ o, limits.lexScript file a = .error o → limits.lexScript file (a ++ b) = .error o) ∧
      ∀ above, limits.lexScript file a = .ok above →
        (∀ out, limits.lexScript file (a ++ b) = .ok out ↔
          ∃ below, limits.lexScript file b = .ok below ∧
            out = above ++ below.map (·.down above.length)) ∧
        ∀ o, limits.lexScript file (a ++ b) = .error o ↔
          ∃ o', limits.lexScript file b = .error o' ∧ o = o'.down above.length) ∧
    ∀ script, limits.lexScript file (Text.addReturns script) = limits.lexScript file script := by
  refine ⟨fun a b ha => ⟨fun o h => lexScript_append_of_error ha h b, fun above h => ?_⟩,
    fun script => ?_⟩
  · rw [lexScript_append_of_ok ha h b]
    cases limits.lexScript file b <;> simp [outcomeDown, eq_comm]
  · rw [Limits.lexScript, Text.lines_addReturns, Limits.lexScript]

/-- Below two lines, the second of two more nests too deep; and lines of the greatest length may end
either way. -/
theorem lexScript_compose_deep :
    Text.EndsLine "(;\r\n\n" ∧
      (∃ above, Limits.lexScript ⟨1, 2⟩ "f" "(;\r\n\n" = .ok above ∧ above.length = 2) ∧
      Limits.lexScript ⟨1, 2⟩ "f" ");\n((" = .error ⟨⟨.tooDeep 1, 1⟩, ⟨"f", 2⟩⟩ ∧
      Limits.lexScript ⟨1, 2⟩ "f" ("(;\r\n\n" ++ ");\n((") = .error ⟨⟨.tooDeep 1, 1⟩, ⟨"f", 4⟩⟩ ∧
      Text.addReturns "(;\r\n\n);\n" = "(;\r\n\r\n);\r\n" ∧
      Limits.lexScript ⟨1, 2⟩ "f" "(;\r\n\r\n);\r\n" = Limits.lexScript ⟨1, 2⟩ "f" "(;\r\n\n);\n" := by
  obtain ⟨hcompose, hreturns⟩ := lexScript_compose ⟨1, 2⟩ "f"
  have ha : Text.EndsLine "(;\r\n\n" := by decide
  have hbelow : Limits.lexScript ⟨1, 2⟩ "f" ");\n((" = .error ⟨⟨.tooDeep 1, 1⟩, ⟨"f", 2⟩⟩ := by decide
  have habove : Limits.lexScript ⟨1, 2⟩ "f" "(;\r\n\n" = .ok
      [⟨1, "(;", ⟨[⟨⟨.opener, "(", 0⟩, 1⟩, ⟨⟨.terminator, ";", 1⟩, 1⟩],
        [⟨⟨.unclosedParen, 0⟩, ⟨"f", 1⟩⟩]⟩⟩, ⟨2, "", ⟨[], []⟩⟩] := by decide
  have hadd : Text.addReturns "(;\r\n\n);\n" = "(;\r\n\r\n);\r\n" := by decide
  refine ⟨ha, ⟨_, habove, rfl⟩, hbelow, ?_, hadd, hadd ▸ hreturns "(;\r\n\n);\n"⟩
  exact (((hcompose _ ");\n((" ha).2 _ habove).2 _).2 ⟨_, hbelow, rfl⟩

end LineLexer
