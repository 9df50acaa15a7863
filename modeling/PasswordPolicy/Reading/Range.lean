import PasswordPolicy.Reading
import PasswordPolicy.CountRange

/-!
# Reading ranges

**A range** is whatever stands between an opening parenthesis and the closing one. Spacing and
further opening parentheses do not matter, even between digits. A range that does not make sense is
dropped whole; one that is not closed before the rule ends is dropped up to there.
-/

namespace PasswordPolicy

open Text

/-- Whether a range goes on over the character. -/
def isRangeInside (c : Char) : Bool :=
  c != ';' && c != ')'

/-- What counts of the text inside a range. -/
def rangeDigits (inside : List Char) : List Char :=
  inside.filter fun c => c != '(' && !isSpacing c

/-- The range that the text inside the parentheses denotes. -/
def rangeOf? (inside : List Char) : Option CountRange :=
  match (rangeDigits inside).splitOn ',' with
  | [least, most] => (count? least).bind fun l => (count? most).bind fun m => CountRange.of? l m
  | _ => none

/-- Read a range from its opening parenthesis on. -/
def readRange (text : List Char) : Reading (Option CountRange) :=
  match text.dropWhile isRangeInside with
  | ')' :: rest =>
    match rangeOf? (text.takeWhile isRangeInside) with
    | some r => .ok (some r) rest
    | none => (Reading.ok none rest).noting .malformedRange text
  | rest => (Reading.ok none rest).noting .unterminatedRange text

/-- Read a range if one comes next, over spacing. -/
def readOptionalRange (text : List Char) : Reading (Option CountRange) :=
  match skipSpacing text with
  | '(' :: rest => readRange ('(' :: rest)
  | _ => .ok none text

theorem readRange_of_closed {text rest : List Char}
    (h : text.dropWhile isRangeInside = ')' :: rest) :
    readRange text = match rangeOf? (text.takeWhile isRangeInside) with
      | some r => .ok (some r) rest
      | none => (Reading.ok none rest).noting .malformedRange text := by
  simp only [readRange, h]

theorem readRange_of_unclosed {text : List Char}
    (h : ∀ rest, text.dropWhile isRangeInside ≠ ')' :: rest) : readRange text =
      (Reading.ok none (text.dropWhile isRangeInside)).noting .unterminatedRange text := by
  rw [readRange]
  split
  · next rest hrest => exact absurd hrest (h rest)
  · rfl

theorem readOptionalRange_of_range {text rest : List Char} (h : skipSpacing text = '(' :: rest) :
    readOptionalRange text = readRange ('(' :: rest) := by
  simp only [readOptionalRange, h]

theorem readOptionalRange_of_none {text : List Char} (h : ∀ rest, skipSpacing text ≠ '(' :: rest) :
    readOptionalRange text = .ok none text := by
  rw [readOptionalRange]
  split
  · next rest hrest => exact absurd hrest (h rest)
  · rfl

theorem readRange_within (text : List Char) : (readRange text).Within text := by
  have hdrop : text.dropWhile isRangeInside <:+ text := List.dropWhile_suffix _
  unfold readRange
  split
  · next rest h =>
    have hrest : rest <:+ text := (h ▸ List.suffix_cons ')' rest).trans hdrop
    split
    · exact .ok hrest
    · exact .noting List.suffix_rfl (.ok hrest)
  · exact .noting List.suffix_rfl (.ok hdrop)

theorem readOptionalRange_within (text : List Char) : (readOptionalRange text).Within text := by
  unfold readOptionalRange
  split
  · next rest h => exact (readRange_within _).trans (h ▸ skipSpacing_suffix text)
  · exact .ok List.suffix_rfl

end PasswordPolicy
