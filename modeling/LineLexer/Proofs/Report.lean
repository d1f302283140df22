import LineLexer.Proofs.Pins
import LineLexer.Proofs.ReadBack
import LineLexer.Proofs.Script
/-!
# Reports

Nothing in a report is escaped, and yet it tells its diagnostics: their number, their order and all
that each of them holds. The source line and the file stand at the same place of each block, so it
does not matter what is in them; a column is a number of spaces, and a message ends with its row
(`report_tells_diagnostics`).
-/
namespace LineLexer

variable {file source : String} {d d' : Diagnostic} {ds ds' : List Diagnostic} {m n : Nat}
  {xs ys : List Char}

/-! ## Messages -/

namespace Fault.Cause

theorem message_unknown (text : String) :
    (Fault.Cause.unknown text).message = "Unknown token \"" ++ text ++ "\"" := rfl

/-- Only a message that shows a text starts like this. -/
theorem head?_message_unknown (text : String) :
    (Fault.Cause.unknown text).message.toList.head? = some 'U' := by
  simp [message_unknown]

theorem message_inj {c c' : Fault.Cause} : c.message = c'.message ↔ c = c' := by
  constructor
  · intro h
    have hhead := congrArg (·.toList.head?) h
    cases c with
    | unknown text =>
      cases c' with
      | unknown text' => simpa [message_unknown] using h
      | _ => exact absurd ((head?_message_unknown text).symm.trans hhead) (by decide)
    | _ =>
      cases c' with
      | unknown text' => exact absurd (hhead.trans (head?_message_unknown text')) (by decide)
      | _ => revert h; decide
  · rintro rfl
    rfl

theorem newline_not_mem_message {c : Fault.Cause}
    (h : ∀ text, c = .unknown text → '\n' ∉ text.toList) : '\n' ∉ c.message.toList := by
  cases c with
  | unknown text => simpa [message_unknown] using h text rfl
  | _ => decide

end Fault.Cause

/-! ## One block -/

/-- The diagnostic belongs to `file`, its column can be printed and its message is one row. -/
structure Diagnostic.Printable (file : String) (d : Diagnostic) : Prop where
  file : d.place.file = file
  column : d.column < Count.last
  oneRow : ∀ text, d.cause = .unknown text → '\n' ∉ text.toList

/-- As many spaces as stand before a caret can be told. -/
theorem caret_append_inj :
    (Report.caret m).toList ++ xs = (Report.caret n).toList ++ ys ↔ m = n ∧ xs = ys := by
  have hmem : ∀ k, '^' ∉ List.replicate k ' ' := by simp
  simp [Report.caret, List.append_assoc, Text.append_mark_inj (hmem m) (hmem n),
    List.replicate_inj]

/-- What stands in a block before the caret, whatever the diagnostic. -/
def Report.sourceRow (source : String) : String := row (Text.dropEnding source) ++ margin

theorem toList_render (d : Diagnostic) (source : String) :
    (d.render source).toList = (Report.sourceRow source).toList ++
      ((Report.caret d.column).toList ++ (("\n" ++ Report.margin ++ d.place.file ++ ":").toList ++
        (Nat.toDigits 10 d.place.line ++ ':' :: (Nat.toDigits 10 (d.column + 1) ++
          (" - ".toList ++ (d.cause.message.toList ++ ['\n'])))))) := by
  simp [Diagnostic.render, Report.block, Report.sourceRow, Report.row, Diagnostic.display,
    Place.label]

/-- A block can be read field by field: the source line and the file are known, the caret stands
behind spaces, the line number in front of a colon, and the message in front of the line break. -/
theorem render_append_inj (hd : d.Printable file) (hd' : d'.Printable file)
    (h : (d.render source).toList ++ xs = (d'.render source).toList ++ ys) : d = d' ∧ xs = ys := by
  have hcolon : ∀ n, Nat.digitChar n ≠ ':' := fun n => Nat.digitChar_ne _ (by decide)
  rw [toList_render, toList_render, hd.file, hd'.file] at h
  simp only [List.append_assoc, List.cons_append, List.nil_append] at h
  obtain ⟨hcolumn, h⟩ := caret_append_inj.1 (List.append_cancel_left h)
  obtain ⟨hline, h⟩ := (Text.toDigits_append_inj (by decide) (by decide) hcolon).1
    (List.append_cancel_left h)
  rw [hcolumn] at h
  obtain ⟨hmessage, hrest⟩ := (Text.append_mark_inj
    (Fault.Cause.newline_not_mem_message hd.oneRow)
    (Fault.Cause.newline_not_mem_message hd'.oneRow)).1
    (List.append_cancel_left (List.append_cancel_left h))
  have hcause := Fault.Cause.message_inj.1 (String.toList_inj.1 hmessage)
  have hfile : d.place.file = d'.place.file := hd.file.trans hd'.file.symm
  obtain ⟨⟨cause, column⟩, place, line⟩ := d
  obtain ⟨⟨cause', column'⟩, place', line'⟩ := d'
  simp_all

/-! ## Whole reports -/

theorem flatMap_render_inj (hds : ∀ d ∈ ds, d.Printable file) (hds' : ∀ d ∈ ds', d.Printable file)
    (h : ds.flatMap (fun d => (d.render source).toList) =
      ds'.flatMap fun d => (d.render source).toList) : ds = ds' := by
  have hne : ∀ d : Diagnostic, (d.render source).toList ≠ [] := by
    intro d
    simp [toList_render]
  induction ds generalizing ds' with
  | nil =>
    cases ds' with
    | nil => rfl
    | cons d' ds' => simp [hne] at h
  | cons d ds ih =>
    cases ds' with
    | nil => simp [hne] at h
    | cons d' ds' =>
      rw [List.flatMap_cons, List.flatMap_cons] at h
      obtain ⟨rfl, hrest⟩ := render_append_inj (hds d (by simp)) (hds' d' (by simp)) h
      rw [ih (fun d hd => hds d (by simp [hd])) (fun d hd => hds' d (by simp [hd])) hrest]

/-- The header stands above blocks only, so it makes no two reports equal. -/
theorem Report.join_eq_of_ofBlocks {bs bs' : List String} (h : ofBlocks bs = ofBlocks bs') :
    String.join bs = String.join bs' := by
  by_cases hnil : bs = []
  · have hempty : ofBlocks bs' = "" := by rw [← h, hnil]; rfl
    rw [hnil, ofBlocks_eq_empty_iff.1 hempty]
  · have hnil' : bs' ≠ [] := by
      rintro rfl
      exact hnil (ofBlocks_eq_empty_iff.1 h)
    simpa [ofBlocks, hnil, hnil'] using h

theorem render_inj (hds : ∀ d ∈ ds, d.Printable file) (hds' : ∀ d ∈ ds', d.Printable file)
    (h : Report.render ds source = Report.render ds' source) : ds = ds' := by
  refine @flatMap_render_inj file source _ _ hds hds' ?_
  have hblocks := congrArg String.toList (Report.join_eq_of_ofBlocks h)
  simpa [String.toList_join, List.flatMap_map] using hblocks

/-! ## What lines give rise to -/

/-- The diagnostics of a line, but for one that fills half of all counts, can be told in a report. -/
theorem printable_of_lex {limits : Limits} {place : Place} {text : String} {r : Reading}
    (hsize : text.utf8ByteSize < 2 ^ 63) (hr : limits.lex place text = .ok r) :
    ∀ d ∈ r.diagnostics, d.Printable place.file := by
  obtain ⟨f, hf, rfl⟩ := Limits.lex_eq_ok_iff.1 hr
  intro d hd
  obtain ⟨x, hx, rfl⟩ := List.mem_map.1 hd
  refine ⟨rfl, ?_, fun shown hcause => newline_not_mem_of_mem_faults hf hx hcause⟩
  calc
    x.column < (Text.dropEnding text).utf8ByteSize := column_lt_of_mem_faults hf hx
    _ ≤ text.utf8ByteSize := Text.utf8ByteSize_dropEnding_le text
    _ < 2 ^ 63 := hsize
    _ ≤ Count.last := by decide

/-- Diagnostics of one file that can be printed have a report, and reports on the same line that are
equal are reports of the same diagnostics. No report is empty but that of no diagnostics. What a
line gives rise to can be printed. -/
theorem report_tells_diagnostics :
    (∀ (source file : String) (ds ds' : List Diagnostic),
      (∀ d ∈ ds, d.Printable file) → (∀ d ∈ ds', d.Printable file) →
        (∃ report, Report.render? ds source = some report) ∧
        (Report.render? ds source = Report.render? ds' source → ds = ds')) ∧
    (∀ (source : String) (ds : List Diagnostic),
      Report.render? ds source = some "" ↔ ds = []) ∧
    ∀ (limits : Limits) (place : Place) (text : String) (r : Reading),
      text.utf8ByteSize < 2 ^ 63 → limits.lex place text = .ok r →
        ∀ d ∈ r.diagnostics, d.Printable place.file := by
  refine ⟨fun source file ds ds' hds hds' => ?_, fun source ds => Report.render?_eq_some_empty_iff,
    fun limits place text r hsize hr => printable_of_lex hsize hr⟩
  have hreport := Report.render?_of_lt (fun d hd => (hds d hd).column) source
  have hreport' := Report.render?_of_lt (fun d hd => (hds' d hd).column) source
  refine ⟨⟨_, hreport⟩, fun h => ?_⟩
  rw [hreport, hreport', Option.some.injEq] at h
  exact render_inj hds hds' h

/-- A line with three diagnostics in a file whose name looks like a place: the report on them is not
that on the first two. -/
theorem report_tells_diagnostics_three :
    ∃ r, "+\"".utf8ByteSize < 2 ^ 63 ∧ Limits.lex {} ⟨"f:1", 2⟩ "+\"" = .ok r ∧
      r.diagnostics.map (·.toFault) =
        [⟨.unknown "+", 0⟩, ⟨.unclosedString, 1⟩, ⟨.unterminated, 0⟩] ∧
      (∀ d ∈ r.diagnostics, d.Printable "f:1") ∧
      (∃ report, Report.render? r.diagnostics "+\"" = some report) ∧
      Report.render? r.diagnostics "+\"" ≠ Report.render? r.diagnostics.dropLast "+\"" := by
  have hsize : "+\"".utf8ByteSize < 2 ^ 63 := by decide
  have hr : Limits.lex {} ⟨"f:1", 2⟩ "+\"" = .ok
      ⟨[⟨⟨.unknown, "+", 0⟩, 2⟩], [⟨⟨.unknown "+", 0⟩, ⟨"f:1", 2⟩⟩,
        ⟨⟨.unclosedString, 1⟩, ⟨"f:1", 2⟩⟩, ⟨⟨.unterminated, 0⟩, ⟨"f:1", 2⟩⟩]⟩ := by decide
  obtain ⟨htell, -, hprintable⟩ := report_tells_diagnostics
  have hds := hprintable {} _ _ _ hsize hr
  obtain ⟨hreport, hunique⟩ :=
    htell "+\"" "f:1" _ _ hds fun d hd => hds d (List.dropLast_subset _ hd)
  refine ⟨_, hsize, hr, rfl, hds, hreport, fun h => ?_⟩
  exact absurd (congrArg List.length (hunique h)) (by decide)

end LineLexer
