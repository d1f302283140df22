import Mathlib.Algebra.GroupWithZero.Nat
import LineLexer.Proofs.Columns
import LineLexer.Proofs.ReadBack
import LineLexer.Proofs.Transcript
/-!
# Listings

A row of a listing shows all there is to a token and has no line break in it, so that a listing can
be cut into its rows and tells every token of a file. The summary of the file counts these rows
(`listing_tells_tokens`).
-/
namespace LineLexer

/-! ## One row -/

theorem Lexeme.Kind.space_not_mem_name (k : Lexeme.Kind) : ' ' ∉ k.name.toList := by
  cases k <;> decide

namespace Token

variable {t u : Token}

theorem toList_display (t : Token) :
    t.display.toList = Nat.toDigits 10 t.line ++ ':' :: (Nat.toDigits 10 t.column ++
      ' ' :: (t.kind.name.toList ++ ' ' :: (Text.quoted t.text).toList)) := by
  simp [display]

/-- A row can be read field by field: no number goes on with a colon or a space, no name has a space
in it, and the rest is the quoted text. -/
theorem display_injective : Function.Injective display := by
  intro t u h
  have hfields := congrArg String.toList h
  have hcolon : ∀ n, Nat.digitChar n ≠ ':' := fun n => Nat.digitChar_ne _ (by decide)
  have hspace : ∀ n, Nat.digitChar n ≠ ' ' := fun n => Nat.digitChar_ne _ (by decide)
  rw [toList_display, toList_display,
    Text.toDigits_append_inj (by decide : 1 < 10) (by decide) hcolon,
    Text.toDigits_append_inj (by decide : 1 < 10) (by decide) hspace,
    Text.append_mark_inj t.kind.space_not_mem_name u.kind.space_not_mem_name] at hfields
  obtain ⟨hline, hcolumn, hname, htext⟩ := hfields
  have hkind := Lexeme.Kind.name_inj.1 (String.toList_inj.1 hname)
  have htext := Text.quoted_injective (String.toList_inj.1 htext)
  obtain ⟨⟨kind, text, column⟩, line⟩ := t
  obtain ⟨⟨kind', text', column'⟩, line'⟩ := u
  simp_all

theorem oneLine_display (t : Token) : Text.OneLine t.display := by
  have hcolon : Text.OneLine ":" := by simp [Text.OneLine]
  have hspace : Text.OneLine " " := by simp [Text.OneLine]
  have hname : Text.OneLine t.kind.name := by
    cases t.kind <;> simp [Text.OneLine, Lexeme.Kind.name]
  have hplace : Text.OneLine (toString t.line ++ ":" ++ toString t.column) :=
    ((Text.oneLine_toString _).append hcolon).append (Text.oneLine_toString _)
  exact (((hplace.append hspace).append hname).append hspace).append (Text.oneLine_quoted _)

/-- The order of the tokens in a file. -/
def Precedes (t u : Token) : Prop := t.line < u.line ∨ t.line = u.line ∧ t.column < u.column

end Token

variable {limits : Limits} {file : String} {n : Nat} {lines : List String} {out : List ScriptLine}

/-! ## The tokens of a file -/

/-- All tokens of lines one below the other. -/
def tokensOf (ls : List ScriptLine) : List Token := ls.flatMap (·.reading.tokens)

theorem pairwise_tokens_of_lex {p : Place} {text : String} {r : Reading}
    (h : limits.lex p text = .ok r) :
    r.tokens.Pairwise Token.Precedes ∧ ∀ t ∈ r.tokens, t.line = p.line := by
  obtain ⟨f, hf, rfl⟩ := Limits.lex_eq_ok_iff.1 h
  have hcolumns := columns_increasing_of_scan hf
  rw [columns, List.pairwise_map] at hcolumns
  refine ⟨?_, by simp [Findings.atPlace]⟩
  rw [Findings.atPlace, List.pairwise_map]
  exact hcolumns.imp fun hlt => .inr ⟨rfl, hlt⟩

/-- The tokens of a line come after those of the lines above. -/
theorem pairwise_tokensOf (h : limits.lexLines file n lines = .ok out) :
    (tokensOf out).Pairwise Token.Precedes ∧ ∀ t ∈ tokensOf out, n ≤ t.line := by
  induction lines generalizing n out with
  | nil =>
    cases h
    exact ⟨.nil, by simp [tokensOf]⟩
  | cons line rest ih =>
    obtain ⟨r, below, hline, hrest, rfl⟩ := lexLines_cons_eq_ok_iff.1 h
    obtain ⟨hr, hhere⟩ := pairwise_tokens_of_lex hline
    obtain ⟨hbelow, hdown⟩ := ih hrest
    have hcons : tokensOf (⟨n, line, r⟩ :: below) = r.tokens ++ tokensOf below := rfl
    rw [hcons]
    refine ⟨List.pairwise_append.2 ⟨hr, hbelow, fun t ht u hu => .inl ?_⟩, fun t ht => ?_⟩
    · calc
        t.line = n := hhere t ht
        _ < n + 1 := Nat.lt_succ_self n
        _ ≤ u.line := hdown u hu
    · rcases List.mem_append.1 ht with ht | ht
      · exact (hhere t ht).ge
      · exact Nat.le_of_succ_le (hdown t ht)

/-! ## All rows -/

namespace Command

/-- A listing is written line by line as any script. -/
theorem listing_eq_source (ls : List ScriptLine) :
    listing ls = Text.source ((tokensOf ls).map fun t => ⟨t.display, .newline⟩) := by
  simp only [listing, Text.source, tokensOf, List.map_map, List.map_flatMap]
  rfl

theorem properSource_rows (ts : List Token) :
    Text.ProperSource (ts.map fun t => ⟨t.display, .newline⟩) := by
  have hrow : ∀ t : Token, Text.PhysicalLine.Proper ⟨t.display, .newline⟩ := by
    intro t
    refine ⟨fun h => (t.oneLine_display _ h).1 rfl, fun _ h => ?_, nofun⟩
    exact (t.oneLine_display _ (List.mem_of_getLast? h)).2 rfl
  refine ⟨by simpa using fun t _ => hrow t, fun l hl => ?_⟩
  obtain ⟨t, -, rfl⟩ := List.mem_map.1 (List.dropLast_subset _ hl)
  nofun

theorem lines_listing (ls : List ScriptLine) :
    Text.lines (listing ls) = (tokensOf ls).map (·.display) := by
  rw [listing_eq_source, Text.lines_source (properSource_rows _), List.map_map]
  rfl

theorem stdout_run_one {task : Task} {read : Reader} {path script : String} {ls : List ScriptLine}
    (hread : read path = .ok script) (hls : limits.lexScript path script = .ok ls) :
    (Invocation.run ⟨task, limits, [path]⟩ read).stdout = (task.transcript path ls).stdout := by
  rw [← runFile_of_ok hread hls]
  exact congrArg Transcript.stdout (run_alone ⟨task, limits, []⟩ read path)

/-- A row tells the whole token, on one line. So the rows of a listing tell the tokens of a file, in
their order, and there are as many as the summary of the file says, which counts the lines and the
diagnostics too. -/
theorem listing_tells_tokens :
    Function.Injective Token.display ∧
    (∀ t : Token, Text.OneLine t.display) ∧
    ∀ (limits : Limits) (read : Reader) (path : String) (ls : List ScriptLine),
      limits.lexFile read path = .ok ls → ∃ script, read path = .ok script ∧
        let listed := (Invocation.run ⟨.tokens, limits, [path]⟩ read).stdout
        let total : Nat := (ls.map (·.reading.diagnostics.length)).sum
        listed = String.join ((tokensOf ls).map (·.display ++ "\n")) ∧
        Text.lines listed = (tokensOf ls).map (·.display) ∧
        (tokensOf ls).Pairwise Token.Precedes ∧
        (∀ ts : List Token, Text.lines listed = ts.map (·.display) → ts = tokensOf ls) ∧
        (Invocation.run ⟨.check, limits, [path]⟩ read).stdout =
          path ++ ": " ++ (if total = 0 then "ok" else "failed")
            ++ " (" ++ toString (Text.lines script).length ++ " line(s), "
            ++ toString (Text.lines listed).length ++ " token(s), "
            ++ toString total ++ " diagnostic(s))\n" := by
  refine ⟨Token.display_injective, Token.oneLine_display, fun limits read path ls h => ?_⟩
  obtain ⟨script, hread, hls⟩ := lexFile_eq_ok_iff.1 h
  refine ⟨script, hread, ?_⟩
  intro listed total
  have hlisting : listed = listing ls := stdout_run_one hread hls
  have hlisted : Text.lines listed = (tokensOf ls).map (·.display) := by
    rw [hlisting, lines_listing]
  have htotal : diagnosticCount ls = total := List.length_flatMap
  have hlines : ls.length = (Text.lines script).length := (getElem?_of_lexLines hls).1
  refine ⟨?_, hlisted, (pairwise_tokensOf hls).1, fun ts hts => ?_, ?_⟩
  · rw [hlisting, listing, tokensOf, List.map_flatMap]
  · exact List.map_injective_iff.2 Token.display_injective (hts.symm.trans hlisted)
  · have htokens : (Text.lines listed).length = tokenCount ls := by
      rw [hlisted, List.length_map]
      rfl
    rw [stdout_run_one hread hls, htokens, ← hlines, ← htotal]
    rfl

/-- A string that holds a backslash, and a line with two diagnostics. -/
theorem listing_tells_tokens_backslash :
    ∃ (read : Reader) (ls : List ScriptLine), read "a" = .ok "(\"\\\");\n)" ∧
      Limits.lexFile {} read "a" = .ok ls ∧ (tokensOf ls).length = 5 ∧
      Text.lines (Invocation.run ⟨.tokens, {}, ["a"]⟩ read).stdout =
        ["1:0 PAREN_OPEN \"(\"", "1:1 STRING \"\\\\\"", "1:4 PAREN_CLOSE \")\"",
          "1:5 END_EXPR \";\"", "2:0 INVALID \")\""] ∧
      (Invocation.run ⟨.check, {}, ["a"]⟩ read).stdout =
        "a: failed (2 line(s), 5 token(s), 2 diagnostic(s))\n" := by
  let read : Reader := fun _ => .ok "(\"\\\");\n)"
  have hls : Limits.lexFile {} read "a" = .ok
      [⟨1, "(\"\\\");", ⟨[⟨⟨.opener, "(", 0⟩, 1⟩, ⟨⟨.literal, "\\", 1⟩, 1⟩, ⟨⟨.closer, ")", 4⟩, 1⟩,
          ⟨⟨.terminator, ";", 5⟩, 1⟩], []⟩⟩,
        ⟨2, ")", ⟨[⟨⟨.unknown, ")", 0⟩, 2⟩],
          [⟨⟨.strayCloser, 0⟩, ⟨"a", 2⟩⟩, ⟨⟨.unterminated, 0⟩, ⟨"a", 2⟩⟩]⟩⟩] := by decide
  obtain ⟨script, hread, -, hlisted, -, -, hsummary⟩ :=
    listing_tells_tokens.2.2 {} read "a" _ hls
  obtain rfl : "(\"\\\");\n)" = script := by simpa [read] using hread
  refine ⟨read, _, rfl, hls, rfl, hlisted.trans (by decide), ?_⟩
  rw [hlisted] at hsummary
  exact hsummary.trans (by decide)

end Command
end LineLexer
