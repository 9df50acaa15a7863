import PasswordPolicy.Rule
import PasswordPolicy.Text.Quoted

/-!
# Diagnostics

**A problem** is what was found wrong in a document, and a **diagnostic** is a problem at a place.
Warnings say that the text was adjusted; errors say that a value, a rule or the whole document was
dropped.
-/

namespace PasswordPolicy

open Text

inductive Severity where
  | warning
  | error
  deriving DecidableEq

def Severity.name : Severity → String
  | warning => "warning"
  | error => "error"

instance : ToString Severity := ⟨Severity.name⟩

/-- What could have stood at a place. -/
inductive Expected where
  | endOfText
  | char (c : Char)
  | number
  | ruleName
  | classValue
  | identifier
  deriving DecidableEq

def Expected.describe : Expected → String
  | endOfText => "EoF"
  | char c => quoteChar c
  | number => "a number"
  | ruleName => "a rule name"
  | classValue => "a character class"
  | identifier => "an identifier"

/-- The items with commas between them and a conjunction before the last. -/
def alternatives : List String → String
  | [] => ""
  | [item] => "or " ++ item
  | item :: items => item ++ ", " ++ alternatives items

inductive Problem where
  | expected (items : List Expected)
  | unknownRule (name : String)
  | unknownClass (name : String)
  | unknownBlocklist (name : String)
  /-- A number with something after it, without a digit, or too large. -/
  | malformedInteger
  /-- A range that does not hold two numbers, one of them at least not zero. -/
  | malformedRange
  /-- A range without a closing parenthesis before the rule ends. -/
  | unterminatedRange
  /-- A dash that is not the first character between brackets. -/
  | misplacedDash
  | nonPrintable (c : Char)
  | emptyCustomClass
  | unterminatedCustomClass
  /-- A rule with nothing after its colon. -/
  | emptyValue (rule : RuleName)
  deriving DecidableEq

namespace Problem

/-- How bad it is for a document to have the problem. -/
def severity : Problem → Severity
  | malformedRange | unterminatedRange | misplacedDash | nonPrintable _ | emptyCustomClass
  | emptyValue _ => .warning
  | _ => .error

def message : Problem → String
  | expected [] => "unexpected input"
  | expected [item] => "expected " ++ item.describe
  | expected items => "expected one of " ++ alternatives (items.map Expected.describe)
  | unknownRule name => "unrecognized rule name " ++ quoteName name
  | unknownClass name => "unrecognized character class " ++ quoteName name
  | unknownBlocklist name => "unrecognized blocklist " ++ quoteName name
  | malformedInteger => "malformed integer"
  | malformedRange => "malformed range; expected two numbers that are not both zero"
  | unterminatedRange => "range is missing its closing ')'"
  | misplacedDash =>
    "ignoring '-'; a '-' may only appear as the first character in a character class"
  | nonPrintable c =>
    "ignoring " ++ quoteChar c ++ "; only ASCII printable characters are allowed"
  | emptyCustomClass => "ignoring empty character class"
  | unterminatedCustomClass => "character class is missing its closing ']'"
  | emptyValue rule => "rule " ++ rule.name ++ " has no value"

end Problem

/-- A problem at a place: the byte offset, and the line and column counted from one. -/
structure Diagnostic where
  index : Nat
  line : Nat
  column : Nat
  severity : Severity
  problem : Problem
  deriving DecidableEq

namespace Diagnostic

def isError (d : Diagnostic) : Bool :=
  d.severity == .error

def message (d : Diagnostic) : String :=
  d.problem.message

/-- One line that says what is wrong and where. -/
def describe (d : Diagnostic) : String :=
  s!"{d.severity}: {d.message} at {d.line}:{d.column}"

end Diagnostic

/-- All diagnostics, a line each. -/
def describeAll : List Diagnostic → String
  | [] => "unknown error"
  | ds => "\n".intercalate (ds.map Diagnostic.describe)

end PasswordPolicy
