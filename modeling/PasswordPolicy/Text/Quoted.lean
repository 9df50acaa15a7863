import PasswordPolicy.Text.CombiningMark
import PasswordPolicy.Text.Unprintable

/-!
# Quoting text in messages

**Names** are quoted between double marks and **characters** between single ones. Inside, the mark
in use and the backslash are escaped, four controls have a letter, and a character that would not
show, or would join the one before it, is written by its code point in hexadecimal.
-/

namespace PasswordPolicy.Text

def doubleMark : Char := '\x22'
def singleMark : Char := '\x27'
def backslash : Char := '\x5c'

/-- The escape of a character by its code point. -/
def codePointEscape (c : Char) : List Char :=
  [backslash, 'u', '\x7b'] ++ Nat.toDigits 16 c.toNat ++ ['\x7d']

/-- One character as it is written between marks `mark`. -/
def quotedChar (mark c : Char) : List Char :=
  if c = '\x00' then [backslash, '0']
  else if c = '\t' then [backslash, 't']
  else if c = '\n' then [backslash, 'n']
  else if c = '\r' then [backslash, 'r']
  else if c = backslash ∨ c = mark then [backslash, c]
  else if isCombiningMark c ∨ isUnprintable c then codePointEscape c
  else [c]

def quoted (mark : Char) (text : List Char) : List Char :=
  mark :: text.flatMap (quotedChar mark) ++ [mark]

def quoteName (name : String) : String :=
  String.ofList (quoted doubleMark name.toList)

def quoteChar (c : Char) : String :=
  String.ofList (quoted singleMark [c])

end PasswordPolicy.Text
