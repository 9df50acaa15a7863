import PasswordPolicy.Diagnostic
import PasswordPolicy.Text.Offset

/-!
# Places in a document

**A finding** knows only the text from its place on. Together with the whole document that fixes the
place: whatever stands before the tail is counted, in bytes for the offset, in line feeds for the
line and in characters since the last line feed for the column. Line and column stop at the largest
word.
-/

namespace PasswordPolicy

open Text

/-- A problem, with the text from its place on. -/
structure Finding where
  problem : Problem
  tail : List Char

/-- The number of a line or column with so many before it. -/
def ordinal (before : Nat) : Nat :=
  min (before + 1) (UInt32.size - 1)

/-- The number of the line that begins or goes on after the text `before`. -/
def lineAfter (before : List Char) : Nat :=
  ordinal (before.count '\n')

/-- The number of the column that comes after the text `before`. -/
def columnAfter (before : List Char) : Nat :=
  ordinal (before.reverse.takeWhile (· ≠ '\n')).length

/-- What stands before a tail of the text. -/
def textBefore (text tail : List Char) : List Char :=
  text.take (text.length - tail.length)

/-- The finding at its place in the document. -/
def Finding.locate (text : List Char) (f : Finding) : Diagnostic :=
  let before := textBefore text f.tail
  ⟨byteLength before, lineAfter before, columnAfter before, f.problem.severity, f.problem⟩

@[simp] theorem textBefore_append (before tail : List Char) :
    textBefore (before ++ tail) tail = before := by
  simp [textBefore]

end PasswordPolicy
