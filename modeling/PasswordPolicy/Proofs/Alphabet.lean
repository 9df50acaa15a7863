import PasswordPolicy.Rule

/-!
# Facts about the alphabet

**Kinds of characters by code point**, and which kinds exclude each other.

**Letters in either case.** Changing the case of a letter does not change whether a character
belongs to a name, so a text that equals a name up to case is a name itself, and names that a table
holds in small letters are found in it by any spelling (`ofIdentifier?_eq_some_iff`).
-/

namespace PasswordPolicy

namespace Text

/-! ## Kinds of characters -/

theorem isSpacing_iff {c : Char} :
    isSpacing c = true ↔ c = ' ' ∨ c = '\x0c' ∨ c = '\n' ∨ c = '\r' ∨ c = '\t' := by
  simp [isSpacing, or_assoc]

theorem isIdentifierChar_iff {c : Char} : isIdentifierChar c = true ↔
    (65 ≤ c.toNat ∧ c.toNat ≤ 90) ∨ (97 ≤ c.toNat ∧ c.toNat ≤ 122) ∨ c.toNat = 45 := by
  have hd : c = '-' ↔ c.toNat = 45 := Char.toNat_inj.symm
  simp only [isIdentifierChar, Bool.or_eq_true, isCapital_iff, isSmallLetter_iff, beq_iff_eq, hd,
    or_assoc]

theorem not_identifierChar_of_spacing {c : Char} (h : isSpacing c = true) :
    isIdentifierChar c = false := by
  rcases isSpacing_iff.1 h with rfl | rfl | rfl | rfl | rfl <;> rfl

theorem not_digit_of_spacing {c : Char} (h : isSpacing c = true) : c.isDigit = false := by
  rcases isSpacing_iff.1 h with rfl | rfl | rfl | rfl | rfl <;> rfl

theorem not_spacing_of_digit {c : Char} (h : c.isDigit = true) : isSpacing c = false := by
  rw [← Bool.not_eq_true]
  intro hs
  rw [not_digit_of_spacing hs] at h
  cases h

theorem not_spacing_of_identifierChar {c : Char} (h : isIdentifierChar c = true) :
    isSpacing c = false := by
  rw [← Bool.not_eq_true]
  intro hs
  rw [not_identifierChar_of_spacing hs] at h
  cases h

/-! ## Letters in either case -/

theorem toNat_toLower (c : Char) :
    c.toLower.toNat = if isCapital c then c.toNat + 32 else c.toNat := by
  have hval : c.val.toNat = c.toNat := rfl
  by_cases h : isCapital c = true
  · have hc := isCapital_iff.1 h
    have hcond : c.val ≥ 'A'.val ∧ c.val ≤ 'Z'.val := by
      simp only [ge_iff_le, UInt32.le_iff_toNat_le, hval]
      exact hc
    have hlower : c.toLower.val = c.val + ('a'.val - 'A'.val) := congrArg Char.val (dif_pos hcond)
    rw [if_pos h]
    show c.toLower.val.toNat = _
    rw [hlower, UInt32.toNat_add, hval]
    have : ('a'.val - 'A'.val).toNat = 32 := by decide
    omega
  · have hcond : ¬(c.val ≥ 'A'.val ∧ c.val ≤ 'Z'.val) := by
      simp only [ge_iff_le, UInt32.le_iff_toNat_le, hval]
      exact fun hc => h (isCapital_iff.2 hc)
    have hlower : c.toLower = c := dif_neg hcond
    rw [if_neg h, hlower]

theorem isIdentifierChar_toLower (c : Char) : isIdentifierChar c.toLower = isIdentifierChar c := by
  rw [Bool.eq_iff_iff, isIdentifierChar_iff, isIdentifierChar_iff, toNat_toLower]
  by_cases h : isCapital c = true
  · rw [if_pos h]
    rw [isCapital_iff] at h
    omega
  · rw [if_neg h]

theorem sameIgnoringCase_self (t : List Char) : sameIgnoringCase t t = true := by
  simp [sameIgnoringCase]

theorem sameIgnoringCase_iff {a b : List Char} :
    sameIgnoringCase a b = true ↔ a.map Char.toLower = b.map Char.toLower := by
  simp [sameIgnoringCase]

/-- A text that equals a name up to case is made of identifier characters. -/
theorem isIdentifierChar_of_same {name t : List Char}
    (hname : ∀ c ∈ name, isIdentifierChar c = true) (h : sameIgnoringCase name t = true) :
    ∀ c ∈ t, isIdentifierChar c = true := by
  intro c hc
  have hmem : c.toLower ∈ name.map Char.toLower :=
    sameIgnoringCase_iff.1 h ▸ List.mem_map_of_mem hc
  obtain ⟨d, hd, hdc⟩ := List.mem_map.1 hmem
  rw [← isIdentifierChar_toLower, ← hdc, isIdentifierChar_toLower]
  exact hname d hd

theorem ne_nil_of_same {name t : List Char} (hname : name ≠ [])
    (h : sameIgnoringCase name t = true) : t ≠ [] := by
  rintro rfl
  exact hname (by simpa using sameIgnoringCase_iff.1 h)

end Text

open Text

/-! ## Tables of names -/

/-- The only entry with a property is found. -/
theorem find?_eq_some_of_unique {α : Type} {p : α → Bool} {l : List α} {a : α} (ha : a ∈ l)
    (hp : p a = true) (hu : ∀ b ∈ l, p b = true → b = a) : l.find? p = some a := by
  have hsome : (l.find? p).isSome = true := List.find?_isSome.2 ⟨a, ha, hp⟩
  obtain ⟨b, hb⟩ := Option.isSome_iff_exists.1 hsome
  rw [hb, hu b (List.mem_of_find?_eq_some hb) (List.find?_some hb)]

namespace ClassName

theorem name_ne_nil (n : ClassName) : n.name.toList ≠ [] := by
  rcases n with ⟨⟨⟩⟩ | _ | _ <;> decide

theorem isIdentifierChar_of_mem_name (n : ClassName) :
    ∀ c ∈ n.name.toList, isIdentifierChar c = true := by
  refine List.all_eq_true.1 ?_
  rcases n with ⟨⟨⟩⟩ | _ | _ <;> decide

theorem eq_of_same {n m : ClassName}
    (h : n.name.toList.map Char.toLower = m.name.toList.map Char.toLower) : n = m := by
  have hall : ∀ n ∈ all, ∀ m ∈ all,
      n.name.toList.map Char.toLower = m.name.toList.map Char.toLower → n = m := by decide
  exact hall n (mem_all n) m (mem_all m) h

theorem ofIdentifier?_eq_some_iff {t : List Char} {n : ClassName} :
    ofIdentifier? t = some n ↔ sameIgnoringCase n.name.toList t = true := by
  constructor
  · intro h
    exact List.find?_some (p := fun m : ClassName => sameIgnoringCase m.name.toList t) h
  · intro h
    refine find?_eq_some_of_unique (mem_all n) h fun m _ hm => eq_of_same ?_
    rw [sameIgnoringCase_iff.1 h]
    exact sameIgnoringCase_iff.1 hm

end ClassName

namespace RuleName

theorem isIdentifierChar_of_mem_name (n : RuleName) :
    ∀ c ∈ n.name.toList, isIdentifierChar c = true := by
  refine List.all_eq_true.1 ?_
  rcases n with ⟨⟨⟩⟩ | ⟨⟨⟩⟩ | _ <;> decide

theorem name_ne_nil (n : RuleName) : n.name.toList ≠ [] := by
  rcases n with ⟨⟨⟩⟩ | ⟨⟨⟩⟩ | _ <;> decide

theorem eq_of_ofName? {t : List Char} {n : RuleName} (h : ofName? t = some n) :
    t = n.name.toList := by
  have := List.find?_some (p := fun m : RuleName => m.name.toList == t) h
  exact (beq_iff_eq.1 this).symm

end RuleName

theorem source_ne_nil : ∀ source ∈ blocklistSources, source.toList ≠ [] := by decide

theorem isIdentifierChar_of_mem_source :
    ∀ source ∈ blocklistSources, ∀ c ∈ source.toList, isIdentifierChar c = true := by
  have hall : ∀ source ∈ blocklistSources, source.toList.all isIdentifierChar = true := by decide
  exact fun source hs => List.all_eq_true.1 (hall source hs)

theorem isIdentifierChar_of_mem_default :
    ∀ c ∈ defaultBlocklist.toList, isIdentifierChar c = true :=
  List.all_eq_true.1 (by decide)

/-- No source goes by the name of the default blocklist. -/
theorem source_ne_default : ∀ source ∈ blocklistSources,
    source.toList.map Char.toLower ≠ defaultBlocklist.toList.map Char.toLower := by decide

theorem source_eq_of_same : ∀ a ∈ blocklistSources, ∀ b ∈ blocklistSources,
    a.toList.map Char.toLower = b.toList.map Char.toLower → a = b := by decide

theorem findSource_of_same {source : String} {t : List Char} (hs : source ∈ blocklistSources)
    (h : sameIgnoringCase source.toList t = true) :
    blocklistSources.find? (sameIgnoringCase ·.toList t) = some source := by
  refine find?_eq_some_of_unique hs h fun other ho hother => source_eq_of_same _ ho _ hs ?_
  rw [sameIgnoringCase_iff.1 h]
  exact sameIgnoringCase_iff.1 hother

end PasswordPolicy
