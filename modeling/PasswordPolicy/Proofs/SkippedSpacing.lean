import Mathlib.Order.Bounds.Basic
import PasswordPolicy.Text.Offset

/-!
# Skipping spacing by offset

**Boundaries.** A byte offset is a boundary of a text if a character begins there or the text ends
there. A position anywhere in the text, or behind it, is rounded up to a boundary by dropping whole
characters (`exists_boundary`).

**Two forms of skipping.** Readers skip spacing at the front of a tail; by offset, it is skipped
from a position in the whole text. From a boundary, both skip the same characters
(`skipSpacingFrom_boundary`), so the offset form is idempotent and monotone because the tail form
is.

Main result: `skipSpacingFrom_exact`, for every text and every position.
-/

namespace PasswordPolicy.Text

/-! ## Boundaries -/

/-- A character begins at the offset, or the text ends there. -/
def IsBoundary (text : List Char) (n : Nat) : Prop :=
  ∃ before after, text = before ++ after ∧ n = byteLength before

theorem byteLength_toList (text : String) : byteLength text.toList = text.utf8ByteSize := by
  rw [← utf8ByteSize_ofList, String.ofList_toList]

/-- Boundaries of a text are the positions that are valid in it as a string. -/
theorem isBoundary_toList_iff {text : String} {n : Nat} :
    IsBoundary text.toList n ↔ (String.Pos.Raw.mk n).IsValid text := by
  rw [String.Pos.Raw.isValid_iff_exists_append]
  constructor
  · rintro ⟨before, after, htext, rfl⟩
    refine ⟨String.ofList before, String.ofList after, ?_, ?_⟩
    · rw [← String.ofList_append, ← htext, String.ofList_toList]
    · rw [← utf8ByteSize_ofList]
      rfl
  · rintro ⟨before, after, rfl, hn⟩
    refine ⟨before.toList, after.toList, String.toList_append, ?_⟩
    rw [byteLength_toList]
    exact congrArg String.Pos.Raw.byteIdx hn

theorem byteLength_le_of_suffix {tail text : List Char} (h : tail <:+ text) :
    byteLength tail ≤ byteLength text := by
  obtain ⟨before, rfl⟩ := h
  rw [byteLength_append]
  exact Nat.le_add_left _ _

/-- Dropping bytes rounds a position up to a boundary. -/
theorem exists_boundary (position : Nat) (text : List Char) :
    ∃ before, text = before ++ dropBytes position text ∧
      IsLeast {n | IsBoundary text n ∧ min position (byteLength text) ≤ n}
        (byteLength before) := by
  induction text generalizing position with
  | nil =>
    refine ⟨[], by cases position <;> rfl, ⟨⟨[], [], rfl, rfl⟩, ?_⟩, fun n _ => Nat.zero_le n⟩
    exact Nat.min_le_right _ _
  | cons c text ih =>
    cases position with
    | zero =>
      refine ⟨[], rfl, ⟨⟨[], c :: text, rfl, rfl⟩, ?_⟩, fun n _ => Nat.zero_le n⟩
      exact Nat.min_le_left _ _
    | succ position =>
      obtain ⟨before, htext, ⟨-, hreach⟩, hleast⟩ := ih (position + 1 - c.utf8Size)
      have hsize : 0 < c.utf8Size := c.utf8Size_pos
      refine ⟨c :: before, congrArg (c :: ·) htext, ⟨⟨c :: before, _, congrArg (c :: ·) htext, rfl⟩,
        ?_⟩, ?_⟩
      · simp only [byteLength]
        omega
      · rintro n ⟨⟨front, after, hfront, rfl⟩, hn⟩
        cases front with
        | nil =>
          simp only [byteLength] at hn
          omega
        | cons d front =>
          obtain ⟨rfl, hrest⟩ := List.cons.inj hfront
          have hle : byteLength before ≤ byteLength front := by
            refine hleast ⟨⟨front, after, hrest, rfl⟩, ?_⟩
            simp only [byteLength] at hn
            omega
          simp only [byteLength]
          omega

theorem dropBytes_boundary (before tail : List Char) :
    dropBytes (byteLength before) (before ++ tail) = tail := by
  induction before with
  | nil => simp [byteLength, dropBytes]
  | cons c before ih =>
    have hsize : 0 < c.utf8Size := c.utf8Size_pos
    obtain ⟨n, hn⟩ : ∃ n, byteLength (c :: before) = n + 1 :=
      Nat.exists_eq_add_one.2 (by simp only [byteLength]; omega)
    have hrest : n + 1 - c.utf8Size = byteLength before := by
      simp only [byteLength] at hn
      omega
    rw [hn, List.cons_append, dropBytes, hrest, ih]

/-! ## Further on in the text -/

theorem dropBytes_suffix_of_le {position later : Nat} (h : position ≤ later) (text : List Char) :
    dropBytes later text <:+ dropBytes position text := by
  induction text generalizing position later with
  | nil => cases later <;> simp [dropBytes]
  | cons c text ih =>
    cases position with
    | zero => exact dropBytes_suffix later (c :: text)
    | succ position =>
      obtain ⟨later, rfl⟩ : ∃ n, later = n + 1 := Nat.exists_eq_add_one.2 (by omega)
      exact ih (by omega)

theorem skipSpacing_suffix_of_suffix {tail text : List Char} (h : tail <:+ text) :
    skipSpacing tail <:+ skipSpacing text := by
  obtain ⟨before, rfl⟩ := h
  induction before with
  | nil => exact List.suffix_rfl
  | cons c before ih =>
    by_cases hc : isSpacing c = true
    · have hskip : skipSpacing (c :: before ++ tail) = skipSpacing (before ++ tail) :=
        List.dropWhile_cons_of_pos hc
      rw [hskip]
      exact ih
    · have hskip : skipSpacing (c :: before ++ tail) = c :: before ++ tail :=
        List.dropWhile_cons_of_neg hc
      rw [hskip]
      exact (skipSpacing_suffix tail).trans (List.suffix_append _ tail)

theorem skipSpacingFrom_mono (text : List Char) : Monotone (skipSpacingFrom text) := by
  intro position later h
  have hsuffix := skipSpacing_suffix_of_suffix (dropBytes_suffix_of_le h text)
  exact Nat.sub_le_sub_left (byteLength_le_of_suffix hsuffix) _

/-! ## What is skipped -/

/-- What is skipped behind a position is what is skipped at the front of the tail there. -/
theorem skipSpacingFrom_tail {before spacing tail : List Char} {position : Nat}
    (hdrop : dropBytes position (before ++ tail) = tail) (h : spacing ++ skipSpacing tail = tail) :
    skipSpacingFrom (before ++ tail) position = byteLength (before ++ spacing) := by
  have htail : byteLength tail = byteLength spacing + byteLength (skipSpacing tail) := by
    rw [← byteLength_append, h]
  rw [skipSpacingFrom, hdrop, byteLength_append, byteLength_append, htail]
  omega

theorem skipSpacingFrom_boundary (before : List Char) {spacing tail : List Char}
    (h : spacing ++ skipSpacing tail = tail) :
    skipSpacingFrom (before ++ tail) (byteLength before) = byteLength (before ++ spacing) :=
  skipSpacingFrom_tail (dropBytes_boundary before tail) h

theorem takeWhile_append_skipSpacing (text : List Char) :
    text.takeWhile isSpacing ++ skipSpacing text = text :=
  List.takeWhile_append_dropWhile

/-- The position is rounded up to a boundary, and all spacing behind that is skipped. -/
theorem exists_skipped (text : List Char) (position : Nat) :
    ∃ before spacing rest, text = before ++ spacing ++ rest ∧
      IsLeast {n | IsBoundary text n ∧ min position (byteLength text) ≤ n} (byteLength before) ∧
      skipSpacingFrom text position = byteLength (before ++ spacing) ∧
      (∀ c ∈ spacing, isSpacing c = true) ∧ skipSpacing rest = rest := by
  obtain ⟨before, htext, hleast⟩ := exists_boundary position text
  generalize hdrop : dropBytes position text = tail at htext
  subst htext
  have htail := takeWhile_append_skipSpacing tail
  refine ⟨before, tail.takeWhile isSpacing, skipSpacing tail, ?_, hleast, ?_, ?_, ?_⟩
  · rw [List.append_assoc, htail]
  · exact skipSpacingFrom_tail hdrop htail
  · exact List.all_eq_true.1 List.all_takeWhile
  · exact skipSpacing_skipSpacing tail

/-- **Skipping by offset is exact.** A position in a text, or behind it, is rounded up to the next
boundary. From there on the spacing is skipped, up to the next character of another kind or to the
end of the text, and that is a boundary again. Skipping once more changes nothing, a later position
is never taken to an earlier offset, and from a boundary exactly that is skipped which is skipped at
the front of the tail there. -/
theorem skipSpacingFrom_exact (text : String) :
    (∀ position, ∃ before spacing rest : String, text = before ++ spacing ++ rest ∧
      IsLeast {n | (String.Pos.Raw.mk n).IsValid text ∧ min position text.utf8ByteSize ≤ n}
        before.utf8ByteSize ∧
      skipSpacingFrom text.toList position = (before ++ spacing).utf8ByteSize ∧
      (∀ c ∈ spacing.toList, c ∈ [' ', '\x0c', '\n', '\r', '\t']) ∧
      ∀ c ∈ rest.toList.head?, c ∉ [' ', '\x0c', '\n', '\r', '\t']) ∧
    (∀ position, (String.Pos.Raw.mk (skipSpacingFrom text.toList position)).IsValid text ∧
      skipSpacingFrom text.toList (skipSpacingFrom text.toList position) =
        skipSpacingFrom text.toList position) ∧
    Monotone (skipSpacingFrom text.toList) ∧
    ∀ before tail : String, text = before ++ tail →
      skipSpacingFrom text.toList before.utf8ByteSize =
        before.utf8ByteSize + (tail.utf8ByteSize - byteLength (skipSpacing tail.toList)) := by
  have hspacing : ∀ c, isSpacing c = true ↔ c ∈ [' ', '\x0c', '\n', '\r', '\t'] := by
    simp [isSpacing, or_assoc]
  refine ⟨fun position => ?_, fun position => ?_, skipSpacingFrom_mono _, ?_⟩
  · obtain ⟨before, spacing, rest, htext, hleast, hskip, hall, hrest⟩ :=
      exists_skipped text.toList position
    refine ⟨String.ofList before, String.ofList spacing, String.ofList rest, ?_, ?_, ?_, ?_, ?_⟩
    · rw [← String.ofList_append, ← String.ofList_append, ← htext, String.ofList_toList]
    · simpa only [isBoundary_toList_iff, byteLength_toList, utf8ByteSize_ofList] using hleast
    · rw [hskip, ← String.ofList_append, utf8ByteSize_ofList]
    · rw [String.toList_ofList]
      exact fun c hc => (hspacing c).1 (hall c hc)
    · rw [String.toList_ofList]
      intro c hc hmem
      obtain ⟨more, rfl⟩ := List.head?_eq_some_iff.1 hc
      have hnot := isSpacing_of_skipSpacing hrest
      exact absurd ((hspacing c).2 hmem) (by simp [hnot])
  · obtain ⟨before, spacing, rest, htext, -, hskip, -, hrest⟩ :=
      exists_skipped text.toList position
    refine ⟨isBoundary_toList_iff.1 ⟨before ++ spacing, rest, htext, hskip⟩, ?_⟩
    -- No spacing is left behind what was skipped.
    have hnone : [] ++ skipSpacing rest = rest := hrest
    have hagain := skipSpacingFrom_boundary (before ++ spacing) hnone
    rw [← htext, List.append_nil] at hagain
    rw [hskip, hagain]
  · rintro before tail rfl
    have htail := takeWhile_append_skipSpacing tail.toList
    have hskip := skipSpacingFrom_boundary before.toList htail
    have hlength := congrArg byteLength htail
    rw [byteLength_append, byteLength_toList] at hlength hskip
    rw [String.toList_append, hskip]
    omega

example : skipSpacingFrom "é\t x".toList 1 = 4 := by decide

end PasswordPolicy.Text
