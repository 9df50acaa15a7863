import PasswordPolicy.Text.Lowercase

/-!
# The lowercase form is final

**Small characters** are those that lowercasing leaves as they are wherever they stand. The table
of small letters names runs of capitals, and what it makes of a capital is never again a capital;
both sigmas are small, and so are the two characters that the capital I with a dot becomes. So a
lowercase form holds small characters only, and lowercasing it once more changes nothing.

**The table** is checked as a whole: its capitals and its small letters are the bits of two numbers
that share no bit.

Main results: `lowercase_eq_self_iff`, `lowercase_lowercase`.
-/

namespace PasswordPolicy.Text

/-! ## Sets of code points as bits -/

/-- The number whose bits are the members of the list. -/
def bitsOf : List Nat → Nat
  | [] => 0
  | n :: ns => 1 <<< n ||| bitsOf ns

theorem testBit_bitsOf (ns : List Nat) (n : Nat) : (bitsOf ns).testBit n = decide (n ∈ ns) := by
  induction ns with
  | nil => simp [bitsOf]
  | cons m ns ih =>
    rw [bitsOf, Nat.testBit_or, ih, Nat.one_shiftLeft, Nat.testBit_two_pow]
    simp [Bool.decide_or, eq_comm]

/-- Lists whose bits do not meet have no member in common. -/
theorem not_mem_of_bitsOf {ms ns : List Nat} (h : bitsOf ms &&& bitsOf ns = 0) {n : Nat}
    (hn : n ∈ ns) : n ∉ ms := by
  intro hm
  have hbit := congrArg (·.testBit n) h
  simp [Nat.testBit_and, testBit_bitsOf, hm, hn] at hbit

/-! ## Capitals and small letters of the table -/

/-- The code points of the capitals that a row covers. -/
def CaseRow.capitals (row : CaseRow) : List Nat :=
  (List.range ((row.last - row.first) / row.step + 1)).map (row.first + row.step * ·)

/-- The code points that a row shifts its capitals to. -/
def CaseRow.smalls (row : CaseRow) : List Nat :=
  row.capitals.map fun n : Nat => ((n : Int) + row.shift).toNat

/-- The code points that lowercasing changes: those of the table and the capital I with a dot. -/
def capitalPoints : List Nat :=
  'İ'.toNat :: caseRows.flatMap CaseRow.capitals

/-- The code points that the table makes of capitals. A number that is no code point would stand for
the first of all, so that one is among them. -/
def smallPoints : List Nat :=
  0 :: caseRows.flatMap CaseRow.smalls

theorem capitalPoints_apart_smallPoints : bitsOf capitalPoints &&& bitsOf smallPoints = 0 := by
  decide +kernel

theorem CaseRow.mem_capitals_of_covers {row : CaseRow} {c : Char} (h : row.covers c) :
    c.toNat ∈ row.capitals := by
  simp only [CaseRow.covers, Bool.and_eq_true, decide_eq_true_eq, beq_iff_eq] at h
  obtain ⟨⟨hfirst, hlast⟩, hstep⟩ := h
  have hsteps := Nat.mul_div_cancel' (Nat.dvd_of_mod_eq_zero hstep)
  have hle : (c.toNat - row.first) / row.step ≤ (row.last - row.first) / row.step :=
    Nat.div_le_div_right (by omega)
  exact List.mem_map.2 ⟨_, List.mem_range.2 (Nat.lt_succ_of_le hle), by omega⟩

theorem toNat_ofNat_cases (n : Nat) : (Char.ofNat n).toNat = n ∨ (Char.ofNat n).toNat = 0 := by
  by_cases h : n.isValidChar
  · rw [Char.ofNat, dif_pos h]
    exact .inl rfl
  · rw [Char.ofNat, dif_neg h]
    exact .inr rfl

theorem CaseRow.lower_mem_smallPoints {row : CaseRow} (hr : row ∈ caseRows) {c : Char}
    (hc : row.covers c) : (row.lower c).toNat ∈ smallPoints := by
  have hsmall : (c.toNat + row.shift).toNat ∈ row.smalls :=
    List.mem_map_of_mem (CaseRow.mem_capitals_of_covers hc)
  rcases toNat_ofNat_cases (c.toNat + row.shift).toNat with h | h
  · rw [CaseRow.lower, h]
    exact List.mem_cons_of_mem _ (List.mem_flatMap.2 ⟨row, hr, hsmall⟩)
  · rw [CaseRow.lower, h]
    exact List.mem_cons_self

/-! ## Small characters -/

/-- A character that lowercasing leaves as it is, wherever it stands. -/
def Small (c : Char) : Prop :=
  c ≠ 'Σ' ∧ lowerChar c = [c]

/-- The capital sigma is one of the table, so a character outside it stands for itself. -/
theorem small_of_not_mem {c : Char} (h : c.toNat ∉ capitalPoints) : Small c := by
  have hne : ∀ capital : Char, capital.toNat ∈ capitalPoints → c ≠ capital := by
    rintro capital hmem rfl
    exact h hmem
  have hrow : caseRows.find? (·.covers c) = none :=
    List.find?_eq_none.2 fun row hr hc =>
      h (List.mem_cons_of_mem _
        (List.mem_flatMap.2 ⟨row, hr, CaseRow.mem_capitals_of_covers hc⟩))
  refine ⟨hne 'Σ' (by decide +kernel), ?_⟩
  rw [lowerChar, if_neg (hne 'İ' List.mem_cons_self), smallLetter, hrow]
  rfl

theorem small_lower {row : CaseRow} (hr : row ∈ caseRows) {c : Char} (hc : row.covers c) :
    Small (row.lower c) :=
  small_of_not_mem
    (not_mem_of_bitsOf capitalPoints_apart_smallPoints (CaseRow.lower_mem_smallPoints hr hc))

theorem small_of_mem_lowerChar {c d : Char} (hc : c ≠ 'Σ') (hd : d ∈ lowerChar c) : Small d := by
  by_cases hi : c = 'İ'
  · have hpair : d = 'i' ∨ d = '\u0307' := by simpa [lowerChar, hi] using hd
    rcases hpair with rfl | rfl
    · exact small_of_not_mem (by decide +kernel)
    · exact small_of_not_mem (by decide +kernel)
  · have hlower : lowerChar c = [smallLetter c] := by rw [lowerChar, if_neg hi]
    obtain rfl : d = smallLetter c := by simpa [hlower] using hd
    cases hrow : caseRows.find? (·.covers c) with
    | none =>
      have hself : smallLetter c = c := by rw [smallLetter, hrow]; rfl
      exact ⟨by rwa [hself], by rw [hself, hlower, hself]⟩
    | some row =>
      have hcovers := List.find?_some hrow
      rw [smallLetter, hrow]
      exact small_lower (List.mem_of_find?_eq_some hrow) hcovers

theorem small_smallSigma (before after : List Char) : Small (smallSigma before after) := by
  unfold smallSigma
  split
  · exact small_of_not_mem (by decide +kernel)
  · exact small_of_not_mem (by decide +kernel)

/-! ## Lowercasing twice -/

variable {text : List Char}

theorem small_of_mem_lowercaseAfter {before : List Char} {d : Char}
    (hd : d ∈ lowercaseAfter before text) : Small d := by
  induction text generalizing before with
  | nil => simp [lowercaseAfter] at hd
  | cons c text ih =>
    rw [lowercaseAfter, List.mem_append] at hd
    rcases hd with hd | hd
    · split at hd
      next => rw [List.mem_singleton.1 hd]; exact small_smallSigma ..
      next hc => exact small_of_mem_lowerChar hc hd
    · exact ih hd

/-- What stands before does not matter to a small character. -/
theorem lowercaseAfter_eq_self {before : List Char} (h : ∀ c ∈ text, Small c) :
    lowercaseAfter before text = text := by
  induction text generalizing before with
  | nil => rfl
  | cons c text ih =>
    obtain ⟨hc, htext⟩ := List.forall_mem_cons.1 h
    rw [lowercaseAfter, if_neg hc.1, hc.2, ih htext, List.singleton_append]

theorem lowercase_eq_self_iff : lowercase text = text ↔ ∀ c ∈ text, Small c :=
  ⟨fun h _ hc => small_of_mem_lowercaseAfter (h ▸ hc), lowercaseAfter_eq_self⟩

/-- **Lowercasing twice is lowercasing once.** -/
theorem lowercase_lowercase : lowercase (lowercase text) = lowercase text :=
  lowercase_eq_self_iff.2 fun _ => small_of_mem_lowercaseAfter

/-- A character is never lowercased away. -/
theorem lowercase_eq_nil_iff : lowercase text = [] ↔ text = [] := by
  cases text with
  | nil => simp [lowercase, lowercaseAfter]
  | cons c text =>
    have hchar : lowerChar c ≠ [] := by
      unfold lowerChar
      split <;> simp
    rw [lowercase, lowercaseAfter]
    split <;> simp [hchar]

end PasswordPolicy.Text
