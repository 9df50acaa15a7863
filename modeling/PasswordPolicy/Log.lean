import PasswordPolicy.Report

/-!
# What is logged while a document is processed

**Records** come in the order of events: each finding as it comes up, then either that the document
was abandoned or how a conflict between ranges and length limits was resolved.
-/

namespace PasswordPolicy

inductive LogLevel where
  | debug
  | warn
  | error
  deriving DecidableEq

def LogLevel.name : LogLevel → String
  | debug => "debug"
  | warn => "warn"
  | error => "error"

structure LogRecord where
  level : LogLevel
  message : String
  deriving DecidableEq

def Severity.logLevel : Severity → LogLevel
  | warning => .warn
  | error => .error

def Diagnostic.logRecord (d : Diagnostic) : LogRecord :=
  ⟨d.severity.logLevel, d.describe⟩

/-- A limit as records show it. -/
def limitText : Option UInt32 → String
  | none => "None"
  | some n => s!"Some({n})"

namespace Conflict

def totalsText (conflict : Conflict) : String :=
  let least := leastTotal conflict.classes
  let most := mostTotal conflict.classes
  let shortest := limitText conflict.limits.least
  let longest := limitText conflict.limits.most
  let seen := conflict.seen.length
  let lists := conflict.lists.length
  s!"required ranges need {least}..{most} characters, length is {shortest}..{longest}; " ++
    s!"{seen} classes seen in {lists} required rules"

/-- Why ranges had to be given up, and how. -/
def logRecords (conflict : Conflict) : List LogRecord :=
  [⟨.debug, conflict.totalsText⟩,
    ⟨.debug, match conflict.remedy with
      | .collapse => "collapsing the required rule to ascii-printable"
      | .dropRanges => "dropping the ranges of every required class"⟩]

end Conflict

/-- The records after the last finding. -/
def Draft.logRecords (minified : Bool) (draft : Draft) : List LogRecord :=
  match draft.rules? with
  | none =>
    let count := draft.findings.length
    [⟨.debug, s!"abandoned the rules document, {count} diagnostics"⟩]
  | some rules => (mergeConflict? minified rules).toList.flatMap Conflict.logRecords

/-- Everything that is logged for a document. -/
def logOf (words : List String) (minified : Bool) (text : String) : List LogRecord :=
  let draft := readDocument words text.toList
  (diagnosticsOf text.toList draft).map Diagnostic.logRecord ++ draft.logRecords minified

end PasswordPolicy
