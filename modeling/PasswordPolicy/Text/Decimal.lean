/-!
# Counts in decimal

**Counts** are 32-bit words. They are written without leading zeros and read from any run of ASCII
digits whose value fits.

Main result: `count?_digits`, a count that is written reads back.
-/

namespace PasswordPolicy.Text

def digits (n : UInt32) : List Char :=
  Nat.toDigits 10 n.toNat

/-- The count that a digit string denotes; none for the empty string, for another character, and for
a value past the largest word. -/
def count? (ds : List Char) : Option UInt32 :=
  if ds ≠ [] ∧ ds.all Char.isDigit then
    if h : Nat.ofDigitChars 10 ds 0 < UInt32.size then some (UInt32.ofNatLT _ h) else none
  else
    none

theorem digits_ne_nil (n : UInt32) : digits n ≠ [] := by
  rw [digits, Nat.toDigits_eq_if (by decide)]
  split <;> simp

theorem isDigit_of_mem_digits {n : UInt32} {c : Char} (h : c ∈ digits n) : c.isDigit :=
  Nat.isDigit_of_mem_toDigits (by decide) (by decide) h

theorem count?_digits (n : UInt32) : count? (digits n) = some n := by
  have hall : (digits n).all Char.isDigit := List.all_eq_true.2 fun _ => isDigit_of_mem_digits
  have hval : Nat.ofDigitChars 10 (digits n) 0 = n.toNat :=
    Nat.ofDigitChars_toDigits (by decide) (by decide)
  simp [count?, digits_ne_nil, hall, hval, n.toNat_lt_size]

end PasswordPolicy.Text
