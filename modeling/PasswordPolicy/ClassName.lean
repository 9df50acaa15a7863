import PasswordPolicy.BasicClass

/-!
# Classes that have a name

**Six names.** The four basic classes, and two names for all characters: one for the printable ASCII
characters and one for every character there is. A generator draws printable characters for both, so
they are expanded alike.
-/

namespace PasswordPolicy

open Text

inductive ClassName where
  | basic (b : BasicClass)
  | asciiPrintable
  | unicode
  deriving DecidableEq

namespace ClassName

def all : List ClassName :=
  BasicClass.all.map basic ++ [asciiPrintable, unicode]

def name : ClassName → String
  | basic b => b.name
  | asciiPrintable => "ascii-printable"
  | unicode => "unicode"

instance : ToString ClassName := ⟨name⟩

/-- The class an identifier names, in capitals or small letters. -/
def ofIdentifier? (identifier : List Char) : Option ClassName :=
  all.find? (sameIgnoringCase ·.name.toList identifier)

/-- Whether the class takes in every other one. -/
def isUniversal : ClassName → Bool
  | basic _ => false
  | _ => true

def contains : ClassName → Char → Bool
  | basic b, c => b.contains c
  | _, c => isPrintable c

/-- The members a generator draws from, in code order. -/
def chars : ClassName → List Char
  | basic b => b.chars
  | _ => printable

theorem mem_all (n : ClassName) : n ∈ all := by
  cases n with
  | basic b => cases b <;> decide
  | _ => decide

theorem mem_chars_iff {n : ClassName} {c : Char} : c ∈ n.chars ↔ n.contains c = true := by
  cases n with
  | basic b => exact BasicClass.mem_chars_iff
  | _ => exact mem_printable_iff

end ClassName

end PasswordPolicy
