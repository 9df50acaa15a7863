import PasswordPolicy.Reading.Document

/-!
# The grammar of policy documents

**Derivations.** Each relation says which texts are written forms of a thing: of a number, a range,
a class, a list of classes, a rule and a document. A text is put together from the texts of its
parts, and spacing may stand between any two of them. Nothing is said about how a text is read.

**Two spellings of one thing** are told apart by nothing but the text: names of classes and
blocklists in capitals or small letters, numbers with leading zeros, ranges with spacing and further
opening parentheses inside.

**No ambiguity at brackets.** A closing bracket never follows a class, so one that is written twice
is the last member of the class and its end.
-/

namespace PasswordPolicy.Grammar

open Text

/-! ## Spacing and numbers -/

/-- Any run of spacing, the empty one too. -/
def Spacing (s : List Char) : Prop :=
  ∀ c ∈ s, isSpacing c = true

/-- A digit string whose value is the count `n`. -/
structure Numeral (ds : List Char) (n : UInt32) : Prop where
  nonempty : ds ≠ []
  digits : ∀ c ∈ ds, c.isDigit = true
  value : Nat.ofDigitChars 10 ds 0 = n.toNat

/-! ## Ranges -/

/-- One side of a range: the digits of `n`, with spacing and opening parentheses among them. -/
structure Side (side : List Char) (n : UInt32) : Prop where
  only : ∀ c ∈ side, c.isDigit = true ∨ isSpacing c = true ∨ c = '('
  numeral : Numeral (side.filter Char.isDigit) n

inductive Range : List Char → CountRange → Prop
  | mk {left right : List Char} {least most : UInt32} :
    Side left least → Side right most → ¬(least = 0 ∧ most = 0) →
      Range ('(' :: (left ++ ',' :: right) ++ [')']) ⟨least, most⟩

/-! ## Classes -/

/-- The printable characters that mean nothing but themselves anywhere between brackets. -/
def Plain (c : Char) : Prop :=
  isPrintable c = true ∧ c ≠ '-' ∧ c ≠ ']'

/-- Members in the order in which brackets hold them: a dash first, a closing bracket last. -/
inductive Members : List Char → Prop
  | mk {dash inner close : List Char} : dash = [] ∨ dash = ['-'] → (∀ c ∈ inner, Plain c) →
      close = [] ∨ close = [']'] → Members (dash ++ inner ++ close)

inductive Body : List Char → ClassBody → Prop
  | named {t : List Char} (n : ClassName) :
    sameIgnoringCase n.name.toList t = true → Body t (.named n)
  | custom {cs : List Char} : Members cs → cs ≠ [] → Body ('[' :: cs ++ [']']) (.custom cs)

inductive Item : List Char → CharClass → Prop
  | plain {t : List Char} {b : ClassBody} : Body t b → Item t ⟨b, none⟩
  | ranged {t s u : List Char} {b : ClassBody} {r : CountRange} :
    Body t b → Spacing s → Range u r → Item (t ++ s ++ u) ⟨b, some r⟩

/-- One or more classes with commas between them. -/
inductive Items : List Char → List CharClass → Prop
  | one {t : List Char} {c : CharClass} : Item t c → Items t [c]
  | cons {t s s' u : List Char} {c : CharClass} {cs : List CharClass} :
    Item t c → Spacing s → Spacing s' → Items u cs → Items (t ++ s ++ ',' :: (s' ++ u)) (c :: cs)

/-! ## Rules and documents -/

/-- The value of a rule of each name; `words` is the list that the default blocklist stands for. -/
inductive Value (words : List String) : RuleName → List Char → Rule → Prop
  | classes {t : List Char} {cs : List CharClass} (role : Role) :
    Items t cs → Value words (.classes role) t (.classes role cs)
  | limit {t : List Char} {n : UInt32} (l : Limit) :
    Numeral t n → Value words (.limit l) t (.limit l n)
  | defaultList {t : List Char} :
    sameIgnoringCase defaultBlocklist.toList t = true → Value words .blocklist t (.blocklist words)
  | source {t : List Char} {source : String} : source ∈ blocklistSources →
    sameIgnoringCase source.toList t = true → Value words .blocklist t (.blocklist [source])

/-- A name, a colon and a value. -/
inductive Statement (words : List String) : List Char → Rule → Prop
  | mk {name : RuleName} {s s' t : List Char} {r : Rule} :
    Spacing s → Spacing s' → Value words name t r →
      Statement words (name.name.toList ++ s ++ ':' :: (s' ++ t)) r

/-- One or more rules with semicolons between them, and perhaps one more at the end. -/
inductive Statements (words : List String) : List Char → List Rule → Prop
  | last {t s : List Char} {r : Rule} :
    Statement words t r → Spacing s → Statements words (t ++ s) [r]
  | ended {t s s' : List Char} {r : Rule} :
    Statement words t r → Spacing s → Spacing s' → Statements words (t ++ s ++ ';' :: s') [r]
  | cons {t s s' u : List Char} {r : Rule} {rs : List Rule} :
    Statement words t r → Spacing s → Spacing s' → Statements words u rs →
      Statements words (t ++ s ++ ';' :: (s' ++ u)) (r :: rs)

/-- Nothing but spacing, or rules after spacing. -/
inductive Document (words : List String) : List Char → List Rule → Prop
  | empty {s : List Char} : Spacing s → Document words s []
  | rules {s t : List Char} {rs : List Rule} :
    Spacing s → Statements words t rs → Document words (s ++ t) rs

end PasswordPolicy.Grammar
