import PasswordPolicy.Proofs.CarryingOver

/-!
# Places in a longer text

**Behind.** What comes behind a text leaves its findings where they are (`Finding.locate_extend`).

**In front.** What comes in front of a text moves its findings: by bytes, by line feeds, and on the
first line of the text by columns, too (`Diagnostic.behind`).

Main result: `Finding.locate_append`.
-/

namespace PasswordPolicy

open Text

/-- The line feeds in front of a place, and the characters since the last of them. -/
def placeAfter (before : List Char) : Nat × Nat :=
  (before.count '\n', (before.reverse.takeWhile (· ≠ '\n')).length)

/-- The diagnostic in a document that so many bytes with so many line feeds were put in front of. On
its first line, it has also moved by so many columns. -/
def Diagnostic.moved (bytes feeds columns : Nat) (d : Diagnostic) : Diagnostic :=
  { d with
    index := d.index + bytes
    line := min (d.line + feeds) (UInt32.size - 1)
    column := if d.line = 1 then min (d.column + columns) (UInt32.size - 1) else d.column }

/-- The diagnostic in a document that another text was put in front of. -/
def Diagnostic.behind (front : List Char) (d : Diagnostic) : Diagnostic :=
  d.moved (byteLength front) (placeAfter front).1 (placeAfter front).2

theorem Diagnostic.moved_min (bytes feeds columns : Nat) (d : Diagnostic) :
    d.moved bytes feeds (min columns (UInt32.size - 1)) = d.moved bytes feeds columns := by
  have hcolumn : min (d.column + min columns (UInt32.size - 1)) (UInt32.size - 1) =
      min (d.column + columns) (UInt32.size - 1) := by
    omega
  simp only [Diagnostic.moved, hcolumn]

/-- What comes behind a document does not move its findings. -/
theorem Finding.locate_extend (text behind : List Char) (f : Finding) :
    (f.extend behind).locate (text ++ behind) = f.locate text := by
  have hbefore : textBefore (text ++ behind) (f.tail ++ behind) = textBefore text f.tail := by
    simp only [textBefore, List.length_append, Nat.add_sub_add_right]
    exact List.take_append_of_le_length (Nat.sub_le _ _)
  simp only [Finding.locate, Finding.extend, hbefore]

theorem lineAfter_eq_one_iff (before : List Char) : lineAfter before = 1 ↔ '\n' ∉ before := by
  have hsize : UInt32.size = 4294967296 := rfl
  rw [← List.count_eq_zero, lineAfter, ordinal]
  omega

theorem lineAfter_append (front before : List Char) :
    lineAfter (front ++ before) =
      min (lineAfter before + (placeAfter front).1) (UInt32.size - 1) := by
  simp only [lineAfter, ordinal, placeAfter, List.count_append]
  omega

/-- The column goes on from the text in front only on the first line behind it. -/
theorem columnAfter_append (front before : List Char) :
    columnAfter (front ++ before) =
      if lineAfter before = 1 then
        min (columnAfter before + (placeAfter front).2) (UInt32.size - 1)
      else columnAfter before := by
  rw [columnAfter, List.reverse_append]
  split
  · next hline =>
    have hplain : ∀ c ∈ before.reverse, decide (c ≠ '\n') = true := by
      intro c hc
      have hne : c ≠ '\n' := by
        rintro rfl
        exact (lineAfter_eq_one_iff before).1 hline (List.mem_reverse.1 hc)
      exact decide_eq_true hne
    rw [List.takeWhile_append_of_pos hplain, columnAfter, List.takeWhile_eq_self_iff.2 hplain]
    simp only [ordinal, placeAfter, List.length_append]
    omega
  · next hline =>
    have hfeed : before.reverse.dropWhile (· ≠ '\n') ≠ [] := by
      intro hnil
      have hplain := List.dropWhile_eq_nil_iff.1 hnil
      refine hline ((lineAfter_eq_one_iff before).2 fun hmem => ?_)
      simpa using hplain _ (List.mem_reverse.2 hmem)
    obtain ⟨c, more, hstop⟩ := List.exists_cons_of_ne_nil hfeed
    rw [takeWhile_append_of_stop hstop, columnAfter]

/-- **What is found in a text moves with it** behind the text that is put in front. -/
theorem Finding.locate_append (front : List Char) {text : List Char} {f : Finding}
    (h : f.tail <:+ text) : f.locate (front ++ text) = (f.locate text).behind front := by
  rcases f with ⟨problem, tail⟩
  obtain ⟨before, rfl⟩ := h
  have hbefore : textBefore (front ++ (before ++ tail)) tail = front ++ before := by
    rw [← List.append_assoc, textBefore_append]
  have hbytes : byteLength (front ++ before) = byteLength before + byteLength front := by
    rw [byteLength_append, Nat.add_comm]
  simp only [Finding.locate, Diagnostic.behind, Diagnostic.moved, hbefore, textBefore_append,
    hbytes, lineAfter_append, columnAfter_append]

end PasswordPolicy
