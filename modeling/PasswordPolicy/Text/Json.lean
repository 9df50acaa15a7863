import PasswordPolicy.Text.Quoted

/-!
# Compact JSON

**Values** are written without any spacing. A string escapes its mark, the backslash and the
controls below the space, five of them by a letter and the rest by a code of four hexadecimal
digits; all other characters stand for themselves.
-/

namespace PasswordPolicy.Text

/-- The code of a control character: four hexadecimal digits. -/
def controlEscape (c : Char) : List Char :=
  let hex := Nat.toDigits 16 c.toNat
  [backslash, 'u'] ++ List.replicate (4 - hex.length) '0' ++ hex

def jsonChar (c : Char) : List Char :=
  if c = doubleMark ∨ c = backslash then [backslash, c]
  else if c = '\x08' then [backslash, 'b']
  else if c = '\x0c' then [backslash, 'f']
  else if c = '\n' then [backslash, 'n']
  else if c = '\r' then [backslash, 'r']
  else if c = '\t' then [backslash, 't']
  else if c < ' ' then controlEscape c
  else [c]

def jsonString (text : List Char) : List Char :=
  doubleMark :: text.flatMap jsonChar ++ [doubleMark]

def jsonArray (items : List (List Char)) : List Char :=
  '[' :: [','].intercalate items ++ [']']

def jsonMember (name : String) (value : List Char) : List Char :=
  jsonString name.toList ++ ':' :: value

/-- An object with its members in the order given. -/
def jsonObject (members : List (String × List Char)) : List Char :=
  '\x7b' :: [','].intercalate (members.map fun (name, value) => jsonMember name value) ++ ['\x7d']

end PasswordPolicy.Text
