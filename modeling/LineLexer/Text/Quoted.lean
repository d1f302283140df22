import LineLexer.Text.Unprintable
/-!
# Quoted text

A text between double quotes, on one line whatever it holds: the quote, the backslash and the
common controls have a two-character form, every other character that does not print is written
by its number in hexadecimal, the rest stand for themselves.
-/
namespace LineLexer.Text

/-- The written form of one character. -/
def escape (c : Char) : List Char :=
  if c = '\x00' then ['\\', '0']
  else if c = '\t' then ['\\', 't']
  else if c = '\n' then ['\\', 'n']
  else if c = '\r' then ['\\', 'r']
  else if c = '"' then ['\\', '"']
  else if c = '\\' then ['\\', '\\']
  else if isUnprintable c then ['\\', 'u', '\x7b'] ++ Nat.toDigits 16 c.toNat ++ ['\x7d']
  else [c]

def quoted (s : String) : String := String.ofList ('"' :: s.toList.flatMap escape ++ ['"'])

theorem escape_ne_nil (c : Char) : escape c ≠ [] := by
  unfold escape; grind

end LineLexer.Text
