/-!
# The alphabet of the rule language

**Four kinds of character.** Names are made of identifier characters, counts of ASCII digits, the
inside of a bracketed class of printable characters, and spacing may stand between tokens. The kinds
overlap: a letter is printable too, and so is the space.

Main results: what `skipSpacing` leaves is a suffix (`skipSpacing_suffix`) that does not begin with
spacing (`isSpacing_of_skipSpacing`), and skipping again changes nothing
(`skipSpacing_skipSpacing`). What comes behind a separator is shorter, which gives the induction
that the readers follow (`separator_induction`).
-/

namespace PasswordPolicy.Text

/-- Whether a character lies between two others in code order, or is one of them. -/
def between (first last c : Char) : Bool :=
  first ≤ c && c ≤ last

theorem between_iff {first last c : Char} :
    between first last c = true ↔ first.toNat ≤ c.toNat ∧ c.toNat ≤ last.toNat := by
  simp [between, Char.le_def, UInt32.le_iff_toNat_le]

def isCapital (c : Char) : Bool :=
  between 'A' 'Z' c

def isSmallLetter (c : Char) : Bool :=
  between 'a' 'z' c

theorem isCapital_iff {c : Char} : isCapital c = true ↔ 65 ≤ c.toNat ∧ c.toNat ≤ 90 :=
  between_iff

theorem isSmallLetter_iff {c : Char} : isSmallLetter c = true ↔ 97 ≤ c.toNat ∧ c.toNat ≤ 122 :=
  between_iff

/-- The characters of names: ASCII letters and the dash. -/
def isIdentifierChar (c : Char) : Bool :=
  isCapital c || isSmallLetter c || c == '-'

/-- The ASCII characters with a printed form, from the space to the tilde. -/
def isPrintable (c : Char) : Bool :=
  between ' ' '~' c

theorem isPrintable_iff {c : Char} : isPrintable c = true ↔ 32 ≤ c.toNat ∧ c.toNat ≤ 126 :=
  between_iff

/-- The space, form feed, line feed, carriage return and tab. -/
def isSpacing (c : Char) : Bool :=
  c == ' ' || c == '\x0c' || c == '\n' || c == '\r' || c == '\t'

def skipSpacing (text : List Char) : List Char :=
  text.dropWhile isSpacing

theorem skipSpacing_suffix (text : List Char) : skipSpacing text <:+ text :=
  List.dropWhile_suffix _

theorem isSpacing_of_skipSpacing {text rest : List Char} {c : Char}
    (h : skipSpacing text = c :: rest) : isSpacing c = false := by
  have := List.head?_dropWhile_not isSpacing text
  rw [skipSpacing] at h
  simpa [h] using this

theorem skipSpacing_skipSpacing (text : List Char) :
    skipSpacing (skipSpacing text) = skipSpacing text := by
  cases h : skipSpacing text with
  | nil => rfl
  | cons c rest => simp [skipSpacing, isSpacing_of_skipSpacing h]

/-- What comes behind a separator is shorter than the text up to it. -/
theorem length_skipSpacing_lt {text rest more : List Char} {c : Char} (h : rest <:+ text)
    (hm : skipSpacing rest = c :: more) : (skipSpacing more).length < text.length := by
  have hrest := h.length_le
  have hskip := (skipSpacing_suffix rest).length_le
  have hmore := (skipSpacing_suffix more).length_le
  rw [hm, List.length_cons] at hskip
  omega

/-- Induction on a text that is read up to one separator after another. -/
theorem separator_induction {motive : List Char → Prop}
    (step : ∀ text, (∀ rest c more, rest <:+ text → skipSpacing rest = c :: more →
      motive (skipSpacing more)) → motive text)
    (text : List Char) : motive text := by
  induction hn : text.length using Nat.strongRecOn generalizing text with
  | ind n ih =>
    refine step text fun rest c more hrest hmore => ?_
    exact ih _ (hn ▸ length_skipSpacing_lt hrest hmore) _ rfl

/-- Equality up to the case of ASCII letters; every other character counts as it is. -/
def sameIgnoringCase (a b : List Char) : Bool :=
  a.map Char.toLower == b.map Char.toLower

end PasswordPolicy.Text
