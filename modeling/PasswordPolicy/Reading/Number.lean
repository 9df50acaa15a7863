import PasswordPolicy.Reading
import PasswordPolicy.Text.Decimal

/-!
# Reading numbers and names

**A number** has to reach to the end of its rule. Otherwise the rule is dropped and reading goes on
behind the digits.

**A blocklist** is given by name, in capitals or small letters.
-/

namespace PasswordPolicy

open Text

/-- The name at the front of the text; empty if none stands there. -/
def identifierOf (text : List Char) : List Char :=
  text.takeWhile isIdentifierChar

def afterIdentifier (text : List Char) : List Char :=
  text.dropWhile isIdentifierChar

theorem afterIdentifier_suffix (text : List Char) : afterIdentifier text <:+ text :=
  List.dropWhile_suffix _

/-- Whether a rule may end in front of the text. -/
def atRuleEnd : List Char → Bool
  | [] => true
  | c :: _ => c == ';'

/-! ## Numbers -/

/-- Read the number of a limit. -/
def readNumber (text : List Char) : Reading (Option UInt32) :=
  let rest := text.dropWhile Char.isDigit
  let next := skipSpacing rest
  match count? (text.takeWhile Char.isDigit) with
  | some n =>
    if atRuleEnd next then .ok (some n) rest
    else (Reading.ok none next).noting .malformedInteger text
  | none => (Reading.ok none (if atRuleEnd next then rest else next)).noting .malformedInteger text

theorem readNumber_within (text : List Char) : (readNumber text).Within text := by
  have hrest : text.dropWhile Char.isDigit <:+ text := List.dropWhile_suffix _
  have hnext := (skipSpacing_suffix (text.dropWhile Char.isDigit)).trans hrest
  dsimp only [readNumber]
  split
  · split
    · exact .ok hrest
    · exact .noting List.suffix_rfl (.ok hnext)
  · refine .noting List.suffix_rfl (.ok ?_)
    split
    · exact hrest
    · exact hnext

/-! ## Blocklists -/

/-- Read the name of a blocklist; the default one stands for the words given. -/
def readBlocklist (words : List String) (text : List Char) : Reading (Option (List String)) :=
  let name := identifierOf text
  let rest := afterIdentifier text
  if name = [] then
    .abandoned (.expected [.identifier]) text
  else if sameIgnoringCase defaultBlocklist.toList name then
    .ok (some words) rest
  else
    match blocklistSources.find? (sameIgnoringCase ·.toList name) with
    | some source => .ok (some [source]) rest
    | none => (Reading.ok none rest).noting (.unknownBlocklist (String.ofList name)) text

theorem readBlocklist_within (words : List String) (text : List Char) :
    (readBlocklist words text).Within text := by
  have hrest := afterIdentifier_suffix text
  dsimp only [readBlocklist]
  split
  · exact .abandoned List.suffix_rfl
  · split
    · exact .ok hrest
    · split
      · exact .ok hrest
      · exact .noting List.suffix_rfl (.ok hrest)

end PasswordPolicy
