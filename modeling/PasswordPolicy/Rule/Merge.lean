import PasswordPolicy.Rule
import PasswordPolicy.Rule.Reconcile

/-!
# Merging rules into one consistent policy

**Each kind of rule** has its own way of combining. Required lists stay apart, each in canonical
form, and blocklists stay as they are; allowed lists are joined into one; of several limits of a
kind the strictest holds, except that the last number of classes given replaces the earlier ones.

**Two forms.** In the full form every required class is allowed as well, and a policy that allows
nothing in particular allows all printable characters. The minified form states only what was
stated, with custom classes ready to be written in brackets.
-/

namespace PasswordPolicy

variable (minified : Bool)

/-! ## One kind at a time -/

/-- A required class asks for one character at least. -/
def CharClass.atLeastOne (c : CharClass) : CharClass :=
  c.withRange (c.range.map fun r => if r.least < 1 then { r with least := 1 } else r)

/-- An allowed class asks for none; a range that then says nothing is dropped. -/
def CharClass.withoutMinimum (c : CharClass) : CharClass :=
  c.withRange (c.range.bind fun r => if 1 ≤ r.least then CountRange.of? 0 r.most else some r)

/-- The required list as the merged policy states it, unless ranges have to be given up. -/
def demand (classes : List CharClass) : List CharClass :=
  (canonical .required minified classes).map (·.atLeastOne)

/-- The required lists and blocklists in their order. -/
def demands (rules : List Rule) : List Rule :=
  rules.filterMap fun
    | .classes .required cs => some (.classes .required (demand minified cs))
    | .blocklist words => some (.blocklist words)
    | _ => none

def listsIn (role : Role) (rules : List Rule) : List (List CharClass) :=
  rules.filterMap fun
    | .classes r cs => if r = role then some cs else none
    | _ => none

def numbersIn (l : Limit) (rules : List Rule) : List UInt32 :=
  rules.filterMap fun
    | .limit k n => if k = l then some n else none
    | _ => none

/-- The number that holds among all those given for the limit. -/
def strictest (l : Limit) (rules : List Rule) : Option UInt32 :=
  match l with
  | .minLength => (numbersIn l rules).max?
  | .minClasses => (numbersIn l rules).getLast?
  | _ => (numbersIn l rules).min?

/-! ## Reconciliation -/

def lengthLimits (rules : List Rule) : LengthLimits :=
  ⟨strictest .minLength rules, strictest .maxLength rules⟩

/-- The conflict between the ranges and the length limits of the policy, if there is one. -/
def mergeConflict? (rules : List Rule) : Option Conflict :=
  conflict? (listsIn .required (demands minified rules)) (lengthLimits rules)

/-- Change the classes of a required list. -/
def Rule.mapRequired (f : List CharClass → List CharClass) : Rule → Rule
  | .classes .required cs => .classes .required (f cs)
  | r => r

/-- The required lists and blocklists of the merged policy. -/
def reconciled (rules : List Rule) : List Rule :=
  match mergeConflict? minified rules with
  | none => demands minified rules
  | some conflict => (demands minified rules).map (·.mapRequired (conflict.remedy.apply minified))

/-! ## What may be used -/

/-- The required classes, as allowed ones; the minified form does not repeat them. -/
def copied (rules : List Rule) : List CharClass :=
  if minified then []
  else (listsIn .required (demands minified rules)).flatten.map (·.withoutRange)

/-- The basic classes that a conflict leaves unnamed, which the full form allows. -/
def added (rules : List Rule) : List CharClass :=
  match mergeConflict? minified rules with
  | some conflict => if minified then [] else conflict.unseen.map .basic
  | none => []

/-- All that may be used, in canonical form. -/
def allowedClasses (rules : List Rule) : List CharClass :=
  canonical .allowed minified
    (copied minified rules ++ (listsIn .allowed rules).flatten.map (·.withoutMinimum) ++
      added minified rules)

/-- The allowed rule; only the minified form may do without. -/
def allowedRule? (rules : List Rule) : Option Rule :=
  match allowedClasses minified rules with
  | [] => if minified then none else some (.classes .allowed [.named .asciiPrintable])
  | classes => some (.classes .allowed classes)

/-! ## The number of classes -/

/-- The most basic classes that a password can draw from; all of them, if no number is given. -/
def allClasses : UInt32 := 4

/-- The number of classes asked for, brought between one and all of them. -/
def askedMinClasses (rules : List Rule) : UInt32 :=
  max 1 (min allClasses ((strictest .minClasses rules).getD allClasses))

/-- The number of classes of the merged policy: a conflict that leaves a basic class unnamed lowers
it to what is named. -/
def mergedMinClasses (rules : List Rule) : UInt32 :=
  match mergeConflict? minified rules with
  | some conflict =>
    if conflict.unseen = [] then askedMinClasses rules
    else min (askedMinClasses rules) (max 1 conflict.seen.length.toUInt32)
  | none => askedMinClasses rules

/-! ## The merged policy -/

/-- The rule that states the strictest number of a limit, if any is given. -/
def limitRule? (l : Limit) (rules : List Rule) : Option Rule :=
  (strictest l rules).map (.limit l)

/-- The policy that the rules amount to: required lists and blocklists first, then at most one rule
of each other kind. -/
def merge (rules : List Rule) : List Rule :=
  reconciled minified rules ++ (allowedRule? minified rules).toList ++
    (limitRule? .maxConsecutive rules).toList ++ (limitRule? .minLength rules).toList ++
    (limitRule? .maxLength rules).toList ++ [.limit .minClasses (mergedMinClasses minified rules)]

end PasswordPolicy
