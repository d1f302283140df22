import LineLexer.Text.Quoted
/-!
# Lexemes and tokens

A lexeme is a piece of one line: what it is, its text and the column where it starts. A token is a
lexeme that knows its line, and has a form of its own in the listing.
-/
namespace LineLexer

/-- The one keyword, which prints. -/
def keyword : String := "exposed"

inductive Lexeme.Kind
  /-- The keyword. -/
  | print
  /-- The semicolon, which ends an expression. -/
  | terminator
  /-- A parenthesis that opens. -/
  | opener
  /-- A parenthesis that closes the innermost open one. -/
  | closer
  /-- A string, its text without the quotes. -/
  | literal
  /-- Whatever the language has no use for. -/
  | unknown
deriving DecidableEq, Repr

/-- The name of a kind in the listing. -/
def Lexeme.Kind.name : Lexeme.Kind → String
  | .print => "PRINT"
  | .terminator => "END_EXPR"
  | .opener => "PAREN_OPEN"
  | .closer => "PAREN_CLOSE"
  | .literal => "STRING"
  | .unknown => "INVALID"

theorem Lexeme.Kind.name_inj {k k' : Lexeme.Kind} : k.name = k'.name ↔ k = k' := by
  cases k <;> cases k' <;> decide

/-- A piece of one line. Columns count bytes from 0; a string starts at its opening quote. -/
structure Lexeme where
  kind : Lexeme.Kind
  text : String
  column : Nat
deriving DecidableEq, Repr

/-- A lexeme on a numbered line. -/
structure Token extends Lexeme where
  line : Nat
deriving DecidableEq, Repr

def Lexeme.onLine (l : Lexeme) (line : Nat) : Token := { toLexeme := l, line }

@[simp] theorem Lexeme.toLexeme_onLine (l : Lexeme) (n : Nat) : (l.onLine n).toLexeme = l := rfl

@[simp] theorem Lexeme.line_onLine (l : Lexeme) (n : Nat) : (l.onLine n).line = n := rfl

/-- The token as the listing shows it: line, column from 0, kind, quoted text. -/
def Token.display (t : Token) : String :=
  toString t.line ++ ":" ++ toString t.column ++ " " ++ t.kind.name ++ " " ++ Text.quoted t.text

end LineLexer
