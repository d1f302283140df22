import Mathlib.Data.String.Basic
/-!
# Parts of a text by their bytes

Columns count bytes, and not every byte of a text starts a character. `Text.slice?` is the part
between two bytes; there is none if one of them falls within a character or behind the text, or if
they are the wrong way round (`slice?_eq_some_iff`). `Text.charAt?` is the character that starts at
a byte.
-/
namespace LineLexer.Text

open String (utf8Len)

variable {n p q : Nat} {c : Char} {cs a b x : List Char}

/-- What follows the first `n` bytes, if a character ends there. -/
def dropBytes? : Nat → List Char → Option (List Char)
  | 0, cs => some cs
  | _ + 1, [] => none
  | n + 1, c :: cs => if c.utf8Size ≤ n + 1 then dropBytes? (n + 1 - c.utf8Size) cs else none

theorem dropBytes?_append (a b : List Char) : dropBytes? (utf8Len a) (a ++ b) = some b := by
  induction a with
  | nil => cases b <;> rfl
  | cons c a ih =>
    have hpos := c.utf8Size_pos
    obtain ⟨n, hn⟩ : ∃ n, utf8Len (c :: a) = n + 1 := ⟨utf8Len (c :: a) - 1, by simp; omega⟩
    have hrest : n + 1 - c.utf8Size = utf8Len a := by
      rw [← hn, String.utf8Len_cons]
      omega
    have hle : c.utf8Size ≤ n + 1 := by
      rw [← hn, String.utf8Len_cons]
      omega
    rw [hn, List.cons_append, dropBytes?, if_pos hle, hrest, ih]

theorem dropBytes?_eq_some_iff : dropBytes? n cs = some b ↔ ∃ a, cs = a ++ b ∧ utf8Len a = n := by
  constructor
  · intro h
    induction cs generalizing n with
    | nil =>
      cases n with
      | zero => exact ⟨[], by simpa [dropBytes?] using h, rfl⟩
      | succ n => simp [dropBytes?] at h
    | cons c cs ih =>
      cases n with
      | zero => exact ⟨[], by simpa [dropBytes?] using h, rfl⟩
      | succ n =>
        rw [dropBytes?] at h
        split at h
        next hle =>
          obtain ⟨a, rfl, ha⟩ := ih h
          refine ⟨c :: a, rfl, ?_⟩
          rw [String.utf8Len_cons, ha]
          omega
        next => simp at h
  · rintro ⟨a, rfl, rfl⟩
    exact dropBytes?_append a b

/-- The first `n` bytes, if a character ends there. -/
def takeBytes? (n : Nat) (cs : List Char) : Option (List Char) :=
  (dropBytes? n cs).map fun rest => cs.take (cs.length - rest.length)

theorem takeBytes?_eq_some_iff : takeBytes? n cs = some a ↔ ∃ b, cs = a ++ b ∧ utf8Len a = n := by
  have hfront : ∀ x y : List Char, (x ++ y).take ((x ++ y).length - y.length) = x := by simp
  rw [takeBytes?, Option.map_eq_some_iff]
  constructor
  · rintro ⟨b, hb, rfl⟩
    obtain ⟨x, rfl, hx⟩ := dropBytes?_eq_some_iff.1 hb
    rw [hfront]
    exact ⟨b, rfl, hx⟩
  · rintro ⟨b, rfl, ha⟩
    exact ⟨b, dropBytes?_eq_some_iff.2 ⟨a, rfl, ha⟩, hfront a b⟩

/-- The bytes of a text from `p` on and before `q`, if characters start or end at both. -/
def slice? (cs : List Char) (p q : Nat) : Option (List Char) :=
  if p ≤ q then (dropBytes? p cs).bind (takeBytes? (q - p)) else none

theorem slice?_eq_some_iff :
    slice? cs p q = some x ↔
      ∃ a b, cs = a ++ x ++ b ∧ utf8Len a = p ∧ p + utf8Len x = q := by
  unfold slice?
  split
  case isTrue hle =>
    simp only [Option.bind_eq_some_iff, dropBytes?_eq_some_iff, takeBytes?_eq_some_iff]
    constructor
    · rintro ⟨rest, ⟨a, rfl, ha⟩, b, rfl, hx⟩
      exact ⟨a, b, by simp, ha, by omega⟩
    · rintro ⟨a, b, rfl, ha, hx⟩
      exact ⟨x ++ b, ⟨a, by simp, ha⟩, b, rfl, by omega⟩
  case isFalse hlt =>
    simp only [reduceCtorEq, false_iff, not_exists, not_and]
    omega

/-- The character that starts at byte `p`. -/
def charAt? (cs : List Char) (p : Nat) : Option Char := (dropBytes? p cs).bind List.head?

theorem charAt?_eq_some_iff :
    charAt? cs p = some c ↔ ∃ a b, cs = a ++ c :: b ∧ utf8Len a = p := by
  simp only [charAt?, Option.bind_eq_some_iff, dropBytes?_eq_some_iff, List.head?_eq_some_iff]
  constructor
  · rintro ⟨rest, ⟨a, rfl, ha⟩, b, rfl⟩
    exact ⟨a, b, rfl, ha⟩
  · rintro ⟨a, b, rfl, ha⟩
    exact ⟨c :: b, ⟨a, rfl, ha⟩, b, rfl⟩

end LineLexer.Text
