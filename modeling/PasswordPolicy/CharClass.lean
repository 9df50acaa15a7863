import PasswordPolicy.ClassName
import PasswordPolicy.CountRange

/-!
# Character classes

**A class** is either named or custom, and may carry a range that says how many of its characters a
password takes. A custom class keeps its characters as they were written, repetitions included;
order and repetition never matter to what it contains.

**Brackets.** Inside brackets a dash is a member only in the first place and a closing bracket only
in the last, so a custom class is written in `bracketOrder`.

Main result: `mem_bracketOrder_iff`, writing a class down neither adds nor loses a character.
-/

namespace PasswordPolicy

open Text

inductive ClassBody where
  | named (name : ClassName)
  | custom (chars : List Char)
  deriving DecidableEq

structure CharClass where
  body : ClassBody
  range : Option CountRange
  deriving DecidableEq

/-- A single dash first and a single closing bracket last, each only if it occurs; all other
characters as they are. -/
def bracketOrder (cs : List Char) : List Char :=
  (if '-' ∈ cs then ['-'] else []) ++ cs.filter (fun c => c ≠ '-' ∧ c ≠ ']') ++
    (if ']' ∈ cs then [']'] else [])

theorem mem_bracketOrder_iff {c : Char} {cs : List Char} : c ∈ bracketOrder cs ↔ c ∈ cs := by
  by_cases hd : c = '-'
  · subst hd
    by_cases h : '-' ∈ cs <;> simp [bracketOrder, h]
  · by_cases hb : c = ']'
    · subst hb
      by_cases h : ']' ∈ cs <;> simp [bracketOrder, h]
    · by_cases h : '-' ∈ cs <;> by_cases h' : ']' ∈ cs <;> simp [bracketOrder, h, h', hd, hb]

/-! ## Contents -/

namespace ClassBody

def contains : ClassBody → Char → Bool
  | named n, c => n.contains c
  | custom cs, c => cs.contains c

def chars : ClassBody → List Char
  | named n => n.chars
  | custom cs => cs

theorem mem_chars_iff {b : ClassBody} {c : Char} : c ∈ b.chars ↔ b.contains c = true := by
  cases b with
  | named n => exact ClassName.mem_chars_iff
  | custom cs => simp [chars, contains]

def render : ClassBody → List Char
  | named n => n.name.toList
  | custom cs => '[' :: bracketOrder cs ++ [']']

end ClassBody

namespace CharClass

def named (name : ClassName) : CharClass :=
  ⟨.named name, none⟩

def basic (b : BasicClass) : CharClass :=
  named (.basic b)

def custom (chars : List Char) : CharClass :=
  ⟨.custom chars, none⟩

def name? (c : CharClass) : Option ClassName :=
  match c.body with
  | .named n => some n
  | .custom _ => none

def isNamed (c : CharClass) : Bool :=
  c.name?.isSome

def isUniversal (c : CharClass) : Bool :=
  c.name?.any ClassName.isUniversal

def chars (c : CharClass) : List Char :=
  c.body.chars

def contains (c : CharClass) (ch : Char) : Bool :=
  c.body.contains ch

def withRange (c : CharClass) (range : Option CountRange) : CharClass :=
  { c with range := range }

def withoutRange (c : CharClass) : CharClass :=
  c.withRange none

/-! ## Written forms -/

/-- The class as a policy states it. -/
def render (c : CharClass) : List Char :=
  c.body.render ++ c.range.elim [] CountRange.render

instance : ToString CharClass := ⟨fun c => String.ofList c.render⟩

/-- A character inside a quoted attribute of a markup element. -/
def attributeChar (c : Char) : List Char :=
  if c = '\x22' then "&quot;".toList else [c]

/-- The class as the value of a quoted attribute. -/
def renderAttribute (c : CharClass) : List Char :=
  c.render.flatMap attributeChar

end CharClass

/-- Whether some class of the list contains the character. -/
def covers (classes : List CharClass) (ch : Char) : Bool :=
  classes.any (·.contains ch)

end PasswordPolicy
