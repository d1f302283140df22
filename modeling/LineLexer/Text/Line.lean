/-!
# Physical lines

A line ends in `\r\n` or `\n`; the last one may end with the text. A carriage return anywhere else
is an ordinary character. `chomp` takes off one ending, `pieces` cuts after each newline
(`flatten_pieces`: nothing is lost), `lines` does both.
-/
namespace LineLexer.Text

/-! ## One ending -/

/-- Drops a final `\r\n`, or else a final `\n`. -/
def chomp (cs : List Char) : List Char :=
  match cs.reverse with
  | '\n' :: '\r' :: rest => rest.reverse
  | '\n' :: rest => rest.reverse
  | _ => cs

theorem chomp_append_crlf (cs : List Char) : chomp (cs ++ ['\r', '\n']) = cs := by
  simp [chomp]

theorem chomp_append_lf {cs : List Char} (h : cs.getLast? ≠ some '\r') :
    chomp (cs ++ ['\n']) = cs := by
  rw [← List.head?_reverse] at h
  unfold chomp
  rw [List.reverse_append]
  cases hr : cs.reverse with
  | nil => simp [List.reverse_eq_nil_iff.1 hr]
  | cons c r =>
    have hc : c ≠ '\r' := by simpa [hr] using h
    have : cs = r.reverse ++ [c] := by simpa using congrArg List.reverse hr
    subst this
    simp
    split <;> simp_all

theorem chomp_of_getLast? {cs : List Char} (h : cs.getLast? ≠ some '\n') : chomp cs = cs := by
  rw [← List.head?_reverse] at h
  unfold chomp
  split
  · simp_all
  · simp_all
  · rfl

theorem chomp_isPrefix (cs : List Char) : chomp cs <+: cs := by
  unfold chomp
  split
  next rest h =>
    have hcs : cs = rest.reverse ++ ['\r', '\n'] := by simpa using congrArg List.reverse h
    rw [hcs]
    exact List.prefix_append _ _
  next rest _ h =>
    have hcs : cs = rest.reverse ++ ['\n'] := by simpa using congrArg List.reverse h
    rw [hcs]
    exact List.prefix_append _ _
  next => exact List.prefix_rfl

/-- The text without its line ending. -/
def dropEnding (s : String) : String := String.ofList (chomp s.toList)

/-! ## Cutting a source -/

/-- Puts a character in front of the pieces that follow it. -/
def consPiece (c : Char) : List (List Char) → List (List Char)
  | [] => [[c]]
  | p :: ps => if c = '\n' then [c] :: p :: ps else (c :: p) :: ps

/-- Cuts after every newline. -/
def pieces (cs : List Char) : List (List Char) := cs.foldr consPiece []

@[simp] theorem pieces_nil : pieces [] = [] := rfl

@[simp] theorem pieces_cons (c : Char) (cs : List Char) :
    pieces (c :: cs) = consPiece c (pieces cs) := rfl

theorem flatten_consPiece (c : Char) (ps : List (List Char)) :
    (consPiece c ps).flatten = c :: ps.flatten := by
  cases ps <;> simp [consPiece]; split <;> simp

theorem flatten_pieces (cs : List Char) : (pieces cs).flatten = cs := by
  induction cs with
  | nil => rfl
  | cons c cs ih => rw [pieces_cons, flatten_consPiece, ih]

/-- The physical lines of a source, without their endings. -/
def lines (source : String) : List String :=
  (pieces source.toList).map fun p => String.ofList (chomp p)

end LineLexer.Text
