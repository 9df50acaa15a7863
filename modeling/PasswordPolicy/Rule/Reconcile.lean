import PasswordPolicy.CharClass.Canonical

/-!
# Ranges against length limits

**Totals.** The ranges of all required classes together say how many characters a password takes at
least and at most. A class without a range counts as `unrangedCount` on both sides, and totals stop
at the largest word.

**A conflict** arises when some required class has a range and the totals do not fit the limits on
length. Ranges are then given up everywhere at once: a single list that names all four basic classes
collapses into one universal class, and otherwise every class just loses its range.
-/

namespace PasswordPolicy

/-- What a class without a range counts as. -/
def unrangedCount : UInt32 := 128

def largestCount : Nat := UInt32.size - 1

def exactTotal : List UInt32 → Nat
  | [] => 0
  | n :: counts => n.toNat + exactTotal counts

/-- The sum of the counts, but never more than a count can be. -/
def total (counts : List UInt32) : Nat :=
  min (exactTotal counts) largestCount

def leastTotal (classes : List CharClass) : Nat :=
  total (classes.map (·.range.elim unrangedCount CountRange.least))

def mostTotal (classes : List CharClass) : Nat :=
  total (classes.map (·.range.elim unrangedCount CountRange.most))

/-- The basic classes that the list names, in their order. -/
def namedBasics (classes : List CharClass) : List BasicClass :=
  BasicClass.all.filter fun b => classes.any (·.name? == some (.basic b))

structure LengthLimits where
  least : Option UInt32
  most : Option UInt32

/-- Whether the classes ask for more characters than the longest password has. -/
def LengthLimits.exceededBy (limits : LengthLimits) (classes : List CharClass) : Bool :=
  limits.most.any fun most => most.toNat < leastTotal classes

/-- Whether the classes allow too few characters for the shortest password. A shortest password of
no characters counts as missed too, since every required class asks for one. -/
def LengthLimits.missedBy (limits : LengthLimits) (classes : List CharClass) : Bool :=
  limits.least.any fun least => mostTotal classes < least.toNat || least == 0

inductive Remedy where
  | collapse
  | dropRanges
  deriving DecidableEq

/-- Required lists whose ranges do not fit the limits. -/
structure Conflict where
  lists : List (List CharClass)
  limits : LengthLimits

namespace Conflict

def classes (conflict : Conflict) : List CharClass :=
  conflict.lists.flatten

def seen (conflict : Conflict) : List BasicClass :=
  namedBasics conflict.classes

def unseen (conflict : Conflict) : List BasicClass :=
  BasicClass.all.filter (· ∉ conflict.seen)

def remedy (conflict : Conflict) : Remedy :=
  if conflict.unseen = [] ∧ conflict.lists.length = 1 then .collapse else .dropRanges

end Conflict

/-- The conflict between the lists and the limits, if there is one. -/
def conflict? (lists : List (List CharClass)) (limits : LengthLimits) : Option Conflict :=
  if anyRange lists.flatten ∧ (limits.exceededBy lists.flatten ∨ limits.missedBy lists.flatten) then
    some ⟨lists, limits⟩
  else
    none

/-- What a required list becomes. -/
def Remedy.apply (bracketed : Bool) : Remedy → List CharClass → List CharClass
  | collapse, _ => [.named .asciiPrintable]
  | dropRanges, classes => canonical .required bracketed (classes.map (·.withoutRange))

end PasswordPolicy
