import PasswordPolicy.Rule
import PasswordPolicy.Text.Json

/-!
# Rules as JSON

**Classes** are objects with a name or an array of one-character strings, and with the bounds of the
range if there is one. **Rules** are objects with a name and a value.
-/

namespace PasswordPolicy

open Text

def ClassBody.jsonField : ClassBody → String × List Char
  | named n => ("name", jsonString n.name.toList)
  | custom cs => ("characters", jsonArray (cs.map fun c => jsonString [c]))

def CountRange.jsonFields (r : CountRange) : List (String × List Char) :=
  [("minChars", digits r.least), ("maxChars", digits r.most)]

def ClassName.json (n : ClassName) : List Char :=
  jsonString n.name.toList

def CharClass.json (c : CharClass) : List Char :=
  jsonObject (c.body.jsonField :: c.range.elim [] CountRange.jsonFields)

def Rule.jsonValue : Rule → List Char
  | classes _ cs => jsonArray (cs.map CharClass.json)
  | limit _ n => digits n
  | blocklist words => jsonArray (words.map fun w => jsonString w.toList)

def Rule.json (r : Rule) : List Char :=
  jsonObject [("name", jsonString r.name.name.toList), ("value", r.jsonValue)]

end PasswordPolicy
