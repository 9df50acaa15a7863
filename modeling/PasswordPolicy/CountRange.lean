import PasswordPolicy.Text.Decimal

/-!
# How often a class may be used

**A range** gives the least and the most characters of a class that a password takes. A policy never
states the range from zero to zero, which `of?` refuses.
-/

namespace PasswordPolicy

open Text

structure CountRange where
  least : UInt32
  most : UInt32
  deriving DecidableEq

namespace CountRange

/-- The range with these bounds, unless both are zero. -/
def of? (least most : UInt32) : Option CountRange :=
  if least = 0 ∧ most = 0 then none else some ⟨least, most⟩

def render (r : CountRange) : List Char :=
  '(' :: digits r.least ++ [',', ' '] ++ digits r.most ++ [')']

instance : ToString CountRange := ⟨fun r => String.ofList r.render⟩

end CountRange

end PasswordPolicy
