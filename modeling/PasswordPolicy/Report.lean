import PasswordPolicy.Reading.Document
import PasswordPolicy.Rule.Merge

/-!
# Reports on a policy document

**A report** holds the merged policy that a document states and everything that was adjusted or
dropped on the way, in the order of the places. An abandoned document states no policy at all.

**Strict readers** refuse a document with an error in it and accept warnings.
-/

namespace PasswordPolicy

structure Report where
  rules : List Rule
  diagnostics : List Diagnostic

/-- The findings at their places, in the order in which they came up. -/
def diagnosticsOf (text : List Char) (draft : Draft) : List Diagnostic :=
  draft.findings.map (·.locate text)

/-- The policy that a draft amounts to. -/
def Draft.policy (minified : Bool) (draft : Draft) : List Rule :=
  draft.rules?.elim [] (merge minified)

namespace Report

/-- The report on a document; `words` is the list that the default blocklist stands for. Findings at
one place stay in the order in which they came up. -/
def ofText (words : List String) (minified : Bool) (text : String) : Report :=
  let draft := readDocument words text.toList
  ⟨draft.policy minified, (diagnosticsOf text.toList draft).mergeSort (·.index ≤ ·.index)⟩

def hasErrors (r : Report) : Bool :=
  r.diagnostics.any Diagnostic.isError

/-- The policy for a strict reader, or else every diagnostic. -/
def strict (r : Report) : Except (List Diagnostic) (List Rule) :=
  if r.hasErrors then .error r.diagnostics else .ok r.rules

end Report

/-- The merged policy that a document states. -/
def policyOf (words : List String) (minified : Bool) (text : String) : List Rule :=
  (Report.ofText words minified text).rules

end PasswordPolicy
