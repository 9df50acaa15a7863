import PasswordPolicy.Text.Lines
import PasswordPolicy.Text.Lowercase
import PasswordPolicy.Text.WhiteSpace

/-!
# Lists of words that no password may be

**A blocklist** holds its words in lowercase and without white space around them, so that a password
is found however it is written. Words are only ever added at the end, and blank ones are left out.

Main results: what a list holds after words are added (`words_append`), one batch after another
(`append_append`).
-/

namespace PasswordPolicy

open Text

/-- The form in which a word is kept. -/
def listedForm (word : String) : String :=
  String.ofList (lowercase (trim word.toList))

structure Blocklist where
  words : List String
  deriving DecidableEq

namespace Blocklist

def empty : Blocklist := ⟨[]⟩

/-- The list with more words at its end. -/
def append (list : Blocklist) (words : List String) : Blocklist :=
  ⟨list.words ++ (words.map listedForm).filter (· ≠ "")⟩

/-- The list of the lines of a text. -/
def ofLines (text : String) : Blocklist :=
  empty.append ((lines text.toList).map String.ofList)

def size (list : Blocklist) : Nat :=
  list.words.length

def isEmpty (list : Blocklist) : Bool :=
  list.words.isEmpty

/-- Whether a password is on the list, in whatever letters. White space around it counts. -/
def contains (list : Blocklist) (password : String) : Bool :=
  list.words.contains (String.ofList (lowercase password.toList))

/-- The last words of the list, all of them if there are fewer. -/
def tail (list : Blocklist) (count : Nat) : List String :=
  list.words.drop (list.size - count)

theorem words_append (list : Blocklist) (words : List String) :
    (list.append words).words = list.words ++ (words.map listedForm).filter (· ≠ "") := rfl

theorem append_append (list : Blocklist) (a b : List String) :
    (list.append a).append b = list.append (a ++ b) := by
  simp [append]

end Blocklist

end PasswordPolicy
