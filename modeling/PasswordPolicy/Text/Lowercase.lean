import PasswordPolicy.Text.LetterCase
import PasswordPolicy.Text.LowercaseTable

/-!
# Lowercase forms

**Letters** map one by one through the table of small letters, but for two: the capital I with a dot
becomes a small i and a combining dot, and the capital sigma becomes the final sigma at the end of a
word and the plain one elsewhere.
-/

namespace PasswordPolicy.Text

/-- The small letter of a capital with a single one; any other character as it is. -/
def smallLetter (c : Char) : Char :=
  (caseRows.find? (·.covers c)).elim c (·.lower c)

def lowerChar (c : Char) : List Char :=
  if c = 'İ' then ['i', '\u0307'] else [smallLetter c]

/-- Whether a cased letter comes next, over characters that case ignores. -/
def casedNext (text : List Char) : Bool :=
  (text.dropWhile isCaseIgnorable).head?.any isCased

/-- The small sigma between what stands before, nearest character first, and what comes after. -/
def smallSigma (before after : List Char) : Char :=
  if casedNext before && !casedNext after then 'ς' else 'σ'

/-- The lowercase form of a text that follows the characters `before`, nearest first. -/
def lowercaseAfter : List Char → List Char → List Char
  | _, [] => []
  | before, c :: text =>
    (if c = 'Σ' then [smallSigma before text] else lowerChar c) ++ lowercaseAfter (c :: before) text

def lowercase (text : List Char) : List Char :=
  lowercaseAfter [] text

end PasswordPolicy.Text
