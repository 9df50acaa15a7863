import PasswordPolicy.CharClass
import PasswordPolicy.Role

/-!
# The canonical form of a list of classes

**Free classes** are those whose characters may be regrouped: classes without a range and, in a
required list, every named class. Their characters form the *pool*. A basic class that lies wholly
in the pool is *complete* and is stated by name; what is left of the pool becomes one custom class.

**Classes with a range** stay apart, because the range speaks of that class alone. One that amounts
to an incomplete basic class is stated by name with its range. In an allowed list several of these
count as the one with the widest range, and a class whose characters are all in the pool says
nothing and is dropped; in a required list every class is a demand of its own and none is dropped.

**Order.** Named classes come first, then custom ones, each where the list first brings it up.

**Universal classes** take in everything else, the widest of them alone. A required list that covers
every character without one is stated as such a class only if no range would be lost.
-/

namespace PasswordPolicy

namespace ClassBody

/-- The basic class that the body amounts to, by name or by spelling out its members. -/
def basic? : ClassBody → Option BasicClass
  | named (.basic b) => some b
  | named _ => none
  | custom cs => BasicClass.all.find? fun b => b.chars.all cs.contains && cs.all b.contains

/-- Whether the body brings up the basic class: names it or lists one of its members. -/
def mentions : ClassBody → BasicClass → Bool
  | named n, b => n == .basic b
  | custom cs, b => cs.any b.contains

end ClassBody

/-! ## The pool -/

/-- Whether the characters of the class may be regrouped. -/
def CharClass.isFree (role : Role) (c : CharClass) : Bool :=
  c.range.isNone || (role == .required && c.isNamed)

/-- The printable characters of the free classes, in class order. -/
structure Pool where
  role : Role
  chars : List Char

namespace Pool

def ofClasses (role : Role) (classes : List CharClass) : Pool :=
  ⟨role, classOrder.filter (covers (classes.filter (·.isFree role)))⟩

variable (pool : Pool)

def isComplete (b : BasicClass) : Bool :=
  b.chars.all pool.chars.contains

/-- The characters of the pool that no complete class accounts for. -/
def leftovers : List Char :=
  (BasicClass.all.filter (!pool.isComplete ·)).flatMap fun b => pool.chars.filter b.contains

/-- The incomplete basic class that a class with a range amounts to. -/
def rangedBasic? (c : CharClass) : Option BasicClass :=
  if c.isFree pool.role then none else c.body.basic?.filter (!pool.isComplete ·)

/-! ## Named classes -/

/-- The basic classes to be stated by name on account of `c`. -/
def namesFrom (c : CharClass) : List BasicClass :=
  if c.isFree pool.role then
    BasicClass.all.filter fun b => pool.isComplete b && c.body.mentions b
  else
    (pool.rangedBasic? c).toList

/-- The first of the ranges that allow the most characters. -/
def widest : List CountRange → Option CountRange
  | [] => none
  | r :: rs => some (rs.foldl (fun a b => if a.most < b.most then b else a) r)

/-- The range that an incomplete basic class is stated with. -/
def rangeOf (classes : List CharClass) (b : BasicClass) : Option CountRange :=
  let ranges := (classes.filter (pool.rangedBasic? · == some b)).filterMap (·.range)
  match pool.role with
  | .required => ranges.head?
  | .allowed => widest ranges

/-- The class that states `b`: a complete one as the list first names it, if it does. -/
def namedClass (classes : List CharClass) (b : BasicClass) : CharClass :=
  if pool.isComplete b then
    (classes.find? fun c => c.isFree pool.role && c.name? == some (.basic b)).getD (.basic b)
  else
    ⟨.named (.basic b), pool.rangeOf classes b⟩

def namedClasses (classes : List CharClass) : List CharClass :=
  (classes.flatMap pool.namesFrom).eraseDups.map (pool.namedClass classes)

/-! ## Custom classes -/

/-- Whether some of the leftovers come from the brackets of `c`. -/
def holdsLeftovers (c : CharClass) : Bool :=
  c.isFree pool.role && !c.isNamed && c.chars.any pool.leftovers.contains

/-- Whether a class with a range remains a custom class after the classes `before`. -/
def remains (before : List CharClass) (c : CharClass) : Bool :=
  !c.isFree pool.role &&
    match pool.role, pool.rangedBasic? c with
    | .required, some b => before.any (pool.rangedBasic? · == some b)
    | .required, none => true
    | .allowed, some _ => false
    | .allowed, none => !c.chars.all pool.chars.contains

/-- The characters in the order of a canonical list, ready for brackets if asked. -/
def arrange (bracketed : Bool) (cs : List Char) : List Char :=
  let ordered := classOrder.filter cs.contains
  if bracketed then bracketOrder ordered else ordered

/-- The custom classes on account of `classes`, which follow the classes `before`. -/
def customClassesAfter (bracketed : Bool) : List CharClass → List CharClass → List CharClass
  | _, [] => []
  | before, c :: classes =>
    (if pool.holdsLeftovers c && !before.any pool.holdsLeftovers then
      [.custom (arrange bracketed pool.leftovers)]
    else if pool.remains before c then
      [⟨.custom (arrange bracketed c.chars), c.range⟩]
    else
      []) ++ customClassesAfter bracketed (c :: before) classes

def customClasses (bracketed : Bool) (classes : List CharClass) : List CharClass :=
  pool.customClassesAfter bracketed [] classes

end Pool

/-! ## Canonical lists -/

/-- The widest universal class of the list: the first that takes in all of Unicode, or else the
first that takes in the printable characters. -/
def universal? (classes : List CharClass) : Option CharClass :=
  (classes.find? (·.name? == some .unicode)).or (classes.find? (·.isUniversal))

def anyRange (classes : List CharClass) : Bool :=
  classes.any (·.range.isSome)

/-- The canonical form of a list in its role. A list that is to be written in brackets has the dash
first and the closing bracket last in each custom class. -/
def canonical (role : Role) (bracketed : Bool) (classes : List CharClass) : List CharClass :=
  match universal? classes with
  | some c => [c]
  | none =>
    if role = .required ∧ printable.all (covers classes) then
      if anyRange classes then classes else [.named .asciiPrintable]
    else
      let pool := Pool.ofClasses role classes
      if BasicClass.all.all pool.isComplete then
        [.named .asciiPrintable]
      else
        pool.namedClasses classes ++ pool.customClasses bracketed classes

end PasswordPolicy
