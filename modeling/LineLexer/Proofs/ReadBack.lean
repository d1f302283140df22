import Mathlib.Data.List.Basic
import LineLexer.Text.Quoted
/-!
# Reading back numbers and quoted text

A written number ends where a character comes that is no digit, and tells its value. The written
forms of characters tell where they end themselves, so a quoted text tells the text
(`quoted_injective`), and it has no line break in it (`oneLine_quoted`).
-/
namespace LineLexer.Text

variable {b m n : Nat} {x c d : Char} {front front' xs ys : List Char}

/-- What stands in front of the first mark of a kind, and what behind it, can be told. -/
theorem append_mark_inj (h : x ∉ front) (h' : x ∉ front') :
    front ++ x :: xs = front' ++ x :: ys ↔ front = front' ∧ xs = ys := by
  induction front generalizing front' with
  | nil =>
    cases front' with
    | nil => simp
    | cons d front' => simp [(List.ne_of_not_mem_cons h')]
  | cons c front ih =>
    have hc : c ≠ x := (List.ne_of_not_mem_cons h).symm
    cases front' with
    | nil => simp [hc]
    | cons d front' =>
      simp only [List.cons_append, List.cons.injEq,
        ih (List.not_mem_of_not_mem_cons h) (List.not_mem_of_not_mem_cons h'), and_assoc]

/-! ## Numbers -/

theorem digitChar_inj : ∀ m < 16, ∀ n < 16, Nat.digitChar m = Nat.digitChar n → m = n := by
  decide

theorem exists_digitChar_of_mem_toDigits (hb : 1 < b) (h : x ∈ Nat.toDigits b n) :
    ∃ d, Nat.digitChar d = x := by
  induction n using Nat.strongRecOn with
  | ind n ih =>
    rw [Nat.toDigits_eq_if hb] at h
    split at h
    · exact ⟨n, (List.mem_singleton.1 h).symm⟩
    · rcases List.mem_append.1 h with h | h
      · exact ih (n / b) (Nat.div_lt_self (by omega) hb) h
      · exact ⟨n % b, (List.mem_singleton.1 h).symm⟩

/-- The digits of a number tell its value. -/
theorem eq_of_toDigits_eq (hb : 1 < b) (hb' : b ≤ 16) (h : Nat.toDigits b m = Nat.toDigits b n) :
    m = n := by
  induction m using Nat.strongRecOn generalizing n with
  | ind m ih =>
    rw [Nat.toDigits_eq_if hb, Nat.toDigits_eq_if (n := n) hb] at h
    split at h <;> split at h
    case isTrue.isTrue hm hn =>
      exact digitChar_inj m (by omega) n (by omega) (List.singleton_inj.1 h)
    -- the front is not empty, so one digit is not two
    case isTrue.isFalse => simpa using congrArg List.length h
    case isFalse.isTrue => simpa using congrArg List.length h
    case isFalse.isFalse hm hn =>
      obtain ⟨hfront, hlast⟩ := List.append_inj' h rfl
      have hdiv : m / b = n / b := ih (m / b) (Nat.div_lt_self (by omega) hb) hfront
      have hmod : m % b = n % b := by
        have hm := Nat.mod_lt m (y := b) (by omega)
        have hn := Nat.mod_lt n (y := b) (by omega)
        exact digitChar_inj _ (by omega) _ (by omega) (List.singleton_inj.1 hlast)
      rw [← Nat.div_add_mod m b, ← Nat.div_add_mod n b, hdiv, hmod]

theorem not_mem_toDigits (hb : 1 < b) (hx : ∀ d, Nat.digitChar d ≠ x) : x ∉ Nat.toDigits b n := by
  intro h
  obtain ⟨d, hd⟩ := exists_digitChar_of_mem_toDigits hb h
  exact hx d hd

/-- A number can be told from what stands behind it if that starts with no digit. -/
theorem toDigits_append_inj (hb : 1 < b) (hb' : b ≤ 16) (hx : ∀ d, Nat.digitChar d ≠ x) :
    Nat.toDigits b m ++ x :: xs = Nat.toDigits b n ++ x :: ys ↔ m = n ∧ xs = ys := by
  rw [append_mark_inj (not_mem_toDigits hb hx) (not_mem_toDigits hb hx)]
  constructor
  · rintro ⟨hdigits, htail⟩
    exact ⟨eq_of_toDigits_eq hb hb' hdigits, htail⟩
  · rintro ⟨rfl, rfl⟩
    exact ⟨rfl, rfl⟩

/-! ## Characters -/

/-- The characters with a short form of their own, and what that has behind the backslash. -/
def shortForms : List (Char × Char) :=
  [('\x00', '0'), ('\t', 't'), ('\n', 'n'), ('\r', 'r'), ('"', '"'), ('\\', '\\')]

theorem shortForms_inj : ∀ p ∈ shortForms, ∀ q ∈ shortForms, p.2 = q.2 → p.1 = q.1 := by
  decide

/-- How a character can be written. -/
inductive Form (c : Char) : List Char → Prop
  | itself : (∀ p ∈ shortForms, c ≠ p.1) → Form c [c]
  | short {mark : Char} : (c, mark) ∈ shortForms → Form c ['\\', mark]
  | number : Form c ('\\' :: 'u' :: '\x7b' :: (Nat.toDigits 16 c.toNat ++ ['\x7d']))

theorem form_escape (c : Char) : Form c (escape c) := by
  unfold escape
  split_ifs with h₀ ht hn hr hq hb hu
  · exact .short (by simp [shortForms, h₀])
  · exact .short (by simp [shortForms, ht])
  · exact .short (by simp [shortForms, hn])
  · exact .short (by simp [shortForms, hr])
  · exact .short (by simp [shortForms, hq])
  · exact .short (by simp [shortForms, hb])
  · exact .number
  · exact .itself (by simp [shortForms, *])

/-- A form tells where it ends, and which character it is for. -/
theorem Form.append_inj {form form' : List Char} (hc : Form c form) (hd : Form d form')
    (h : form ++ xs = form' ++ ys) : c = d ∧ xs = ys := by
  have hbackslash : ∀ {e}, (∀ p ∈ shortForms, e ≠ p.1) → e ≠ '\\' :=
    fun he => he ('\\', '\\') (by decide)
  have hu : ∀ p ∈ shortForms, p.2 ≠ 'u' := by decide
  -- the first character tells a raw form from the others, the second a short form from a number
  cases hc with
  | itself hc =>
    cases hd with
    | itself => simpa using h
    | short => exact absurd (List.cons.inj h).1 (hbackslash hc)
    | number => exact absurd (List.cons.inj h).1 (hbackslash hc)
  | @short mark hc =>
    cases hd with
    | itself hd => exact absurd (List.cons.inj h).1.symm (hbackslash hd)
    | @short mark' hd =>
      obtain ⟨rfl, rfl⟩ : mark = mark' ∧ xs = ys := by simpa using h
      exact ⟨shortForms_inj _ hc _ hd rfl, rfl⟩
    | number =>
      obtain ⟨rfl, -⟩ : mark = 'u' ∧ _ := by simpa using h
      exact absurd rfl (hu _ hc)
  | number =>
    cases hd with
    | itself hd => exact absurd (List.cons.inj h).1.symm (hbackslash hd)
    | @short mark hd =>
      obtain ⟨rfl, -⟩ : 'u' = mark ∧ _ := by simpa using h
      exact absurd rfl (hu _ hd)
    | number =>
      have hbrace : ∀ n, Nat.digitChar n ≠ '\x7d' := fun n => Nat.digitChar_ne _ (by decide)
      simp only [List.cons_append, List.append_assoc, List.cons.injEq, true_and, List.nil_append,
        toDigits_append_inj (by decide : 1 < 16) (Nat.le_refl 16) hbrace] at h
      exact ⟨Char.toNat_inj.1 h.1, h.2⟩

theorem flatMap_escape_injective : Function.Injective (List.flatMap escape) := by
  intro s t h
  induction s generalizing t with
  | nil =>
    cases t with
    | nil => rfl
    | cons d t => simp [escape_ne_nil] at h
  | cons c s ih =>
    cases t with
    | nil => simp [escape_ne_nil] at h
    | cons d t =>
      rw [List.flatMap_cons, List.flatMap_cons] at h
      obtain ⟨rfl, htail⟩ := (form_escape c).append_inj (form_escape d) h
      rw [ih htail]

theorem quoted_injective : Function.Injective quoted := by
  intro s t h
  have hbody : s.toList.flatMap escape = t.toList.flatMap escape := by
    simpa [quoted] using congrArg String.toList h
  exact String.toList_inj.1 (flatMap_escape_injective hbody)

/-! ## Line breaks -/

/-- The text has no line break in it. -/
def OneLine (s : String) : Prop := ∀ x ∈ s.toList, x ≠ '\n' ∧ x ≠ '\r'

theorem OneLine.append {s t : String} (hs : OneLine s) (ht : OneLine t) : OneLine (s ++ t) := by
  intro x hx
  rw [String.toList_append, List.mem_append] at hx
  exact hx.elim (hs x) (ht x)

theorem ne_break_of_mem_toDigits (hb : 1 < b) (h : x ∈ Nat.toDigits b n) : x ≠ '\n' ∧ x ≠ '\r' := by
  obtain ⟨d, rfl⟩ := exists_digitChar_of_mem_toDigits hb h
  exact ⟨Nat.digitChar_ne _ (by decide), Nat.digitChar_ne _ (by decide)⟩

theorem oneLine_toString (n : Nat) : OneLine (toString n) := by
  intro x hx
  exact ne_break_of_mem_toDigits (by decide : 1 < 10) (by simpa using hx)

theorem Form.oneLine {form : List Char} (h : Form c form) : ∀ x ∈ form, x ≠ '\n' ∧ x ≠ '\r' := by
  have hmark : ∀ p ∈ shortForms, p.2 ≠ '\n' ∧ p.2 ≠ '\r' := by decide
  cases h with
  | itself hc =>
    rintro x hx
    obtain rfl := List.mem_singleton.1 hx
    exact ⟨hc ('\n', 'n') (by decide), hc ('\r', 'r') (by decide)⟩
  | @short mark hc => simpa using hmark _ hc
  | number =>
    intro x hx
    simp only [List.mem_cons, List.mem_append, List.not_mem_nil, or_false] at hx
    rcases hx with rfl | rfl | rfl | hx | rfl
    · decide
    · decide
    · decide
    · exact ne_break_of_mem_toDigits (by decide) hx
    · decide

theorem oneLine_quoted (s : String) : OneLine (quoted s) := by
  intro x hx
  simp only [quoted, String.toList_ofList, List.cons_append, List.mem_cons, List.mem_append,
    List.mem_flatMap, List.not_mem_nil, or_false] at hx
  rcases hx with rfl | ⟨c, -, hx⟩ | rfl
  · decide
  · exact (form_escape c).oneLine x hx
  · decide

end LineLexer.Text
