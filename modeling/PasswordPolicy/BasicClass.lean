import PasswordPolicy.Text.CharKind

/-!
# The basic classes

**Four classes** divide the printable characters between them: capitals, small letters, digits and
everything else, the space included. Policies are stated in terms of them, and lists of characters
are put in their order.

Main results: membership in `chars` is `contains` (`mem_chars_iff`), and a character has at most one
basic class (`eq_of_contains`).
-/

namespace PasswordPolicy

open Text

/-- Every printable character, in code order. -/
def printable : List Char :=
  (List.range 95).map fun i => Char.ofNat (32 + i)

theorem mem_printable_iff {c : Char} : c ∈ printable ↔ isPrintable c = true := by
  constructor
  · intro h
    obtain ⟨i, hi, rfl⟩ := List.mem_map.1 h
    have : ∀ i < 95, isPrintable (Char.ofNat (32 + i)) = true := by decide
    exact this i (List.mem_range.1 hi)
  · intro h
    rw [isPrintable_iff] at h
    refine List.mem_map.2 ⟨c.toNat - 32, List.mem_range.2 (by omega), ?_⟩
    rw [show 32 + (c.toNat - 32) = c.toNat by omega, Char.ofNat_toNat]

inductive BasicClass where
  | upper
  | lower
  | digit
  | special
  deriving DecidableEq

namespace BasicClass

def all : List BasicClass :=
  [upper, lower, digit, special]

def name : BasicClass → String
  | upper => "upper"
  | lower => "lower"
  | digit => "digit"
  | special => "special"

def contains : BasicClass → Char → Bool
  | upper, c => isCapital c
  | lower, c => isSmallLetter c
  | digit, c => c.isDigit
  | special, c => isPrintable c && !(isCapital c || isSmallLetter c || c.isDigit)

/-- The members, in code order. -/
def chars (b : BasicClass) : List Char :=
  printable.filter b.contains

/-- The class of a character; none if it is not printable. -/
def ofChar? (c : Char) : Option BasicClass :=
  all.find? (·.contains c)

theorem mem_all (b : BasicClass) : b ∈ all := by
  cases b <;> decide

theorem contains_iff {b : BasicClass} {c : Char} :
    b.contains c = true ↔ match b with
      | upper => 65 ≤ c.toNat ∧ c.toNat ≤ 90
      | lower => 97 ≤ c.toNat ∧ c.toNat ≤ 122
      | digit => 48 ≤ c.toNat ∧ c.toNat ≤ 57
      | special => (32 ≤ c.toNat ∧ c.toNat ≤ 126) ∧ ¬(65 ≤ c.toNat ∧ c.toNat ≤ 90) ∧
          ¬(97 ≤ c.toNat ∧ c.toNat ≤ 122) ∧ ¬(48 ≤ c.toNat ∧ c.toNat ≤ 57) := by
  cases b with
  | upper => exact isCapital_iff
  | lower => exact isSmallLetter_iff
  | digit => exact Char.isDigit_iff_toNat
  | special =>
    simp only [contains, Bool.and_eq_true, Bool.not_eq_true', ← Bool.not_eq_true, Bool.or_eq_true,
      not_or, isPrintable_iff, isCapital_iff, isSmallLetter_iff, Char.isDigit_iff_toNat, and_assoc]
    rfl

theorem isPrintable_of_contains {b : BasicClass} {c : Char} (h : b.contains c = true) :
    isPrintable c = true := by
  rw [contains_iff] at h
  rw [isPrintable_iff]
  cases b <;> dsimp only at h <;> omega

theorem eq_of_contains {b d : BasicClass} {c : Char} (hb : b.contains c = true)
    (hd : d.contains c = true) : b = d := by
  rw [contains_iff] at hb hd
  cases b <;> cases d <;> first | rfl | (dsimp only at hb hd; omega)

theorem mem_chars_iff {b : BasicClass} {c : Char} : c ∈ b.chars ↔ b.contains c = true := by
  simpa [chars, mem_printable_iff] using isPrintable_of_contains

end BasicClass

/-- Every printable character: capitals, small letters, digits and specials, each in code order. -/
def classOrder : List Char :=
  BasicClass.all.flatMap BasicClass.chars

end PasswordPolicy
