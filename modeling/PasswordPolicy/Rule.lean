import PasswordPolicy.CharClass
import PasswordPolicy.Role

/-!
# Rules of a password policy

**Three kinds of rule.** A list of classes in one of two roles, a limit on a number, and a list of
words no password may be. A blocklist is either the name of a known source, kept as its only word,
or the expanded default list, which is written by its name again.

**A document** is written as its rules one after another, each ended by a semicolon.
-/

namespace PasswordPolicy

open Text

inductive Limit where
  | maxConsecutive
  | minLength
  | maxLength
  | minClasses
  deriving DecidableEq

/-! ## Names -/

inductive RuleName where
  | classes (role : Role)
  | limit (l : Limit)
  | blocklist
  deriving DecidableEq

namespace RuleName

def all : List RuleName :=
  [classes .allowed, classes .required, limit .maxConsecutive, limit .minLength, limit .maxLength,
    limit .minClasses, blocklist]

def name : RuleName → String
  | classes .allowed => "allowed"
  | classes .required => "required"
  | limit .maxConsecutive => "max-consecutive"
  | limit .minLength => "minlength"
  | limit .maxLength => "maxlength"
  | limit .minClasses => "minclasses"
  | blocklist => "blocklist"

instance : ToString RuleName := ⟨name⟩

/-- The rule of exactly this name; capitals do not count as small letters here. -/
def ofName? (name : List Char) : Option RuleName :=
  all.find? (·.name.toList == name)

theorem ofName?_name (n : RuleName) : ofName? n.name.toList = some n := by
  rcases n with ⟨⟨⟩⟩ | ⟨⟨⟩⟩ | _ <;> decide

end RuleName

/-! ## Blocklists by name -/

/-- The name that stands for the default blocklist. -/
def defaultBlocklist : String := "default"

/-- The blocklists that are kept by name. -/
def blocklistSources : List String := ["hibp"]

/-- The name a blocklist is written by. -/
def blocklistName (words : List String) : String :=
  match words with
  | [source] => if source ∈ blocklistSources then source else defaultBlocklist
  | _ => defaultBlocklist

/-! ## Rules -/

inductive Rule where
  | classes (role : Role) (classes : List CharClass)
  | limit (l : Limit) (n : UInt32)
  | blocklist (words : List String)
  deriving DecidableEq

namespace Rule

def name : Rule → RuleName
  | classes role _ => .classes role
  | limit l _ => .limit l
  | blocklist _ => .blocklist

def classes? : Rule → Option (List CharClass)
  | classes _ cs => some cs
  | _ => none

def number? : Rule → Option UInt32
  | limit _ n => some n
  | _ => none

def renderValue : Rule → List Char
  | classes _ cs => [',', ' '].intercalate (cs.map CharClass.render)
  | limit _ n => digits n
  | blocklist words => (blocklistName words).toList

/-- The rule as a policy states it, without the semicolon that ends it. -/
def render (r : Rule) : List Char :=
  r.name.name.toList ++ [':', ' '] ++ r.renderValue

instance : ToString Rule := ⟨fun r => String.ofList r.render⟩

end Rule

/-- The rules in their order, each ended by a semicolon. -/
def renderRules (rules : List Rule) : List Char :=
  [' '].intercalate (rules.map fun r => r.render ++ [';'])

/-- The rules as a document that states them. -/
def documentOf (rules : List Rule) : String :=
  String.ofList (renderRules rules)

end PasswordPolicy
