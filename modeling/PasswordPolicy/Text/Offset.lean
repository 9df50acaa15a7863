import PasswordPolicy.Text.CharKind

/-!
# Places in a text, counted in bytes

**Offsets** count the bytes of the UTF-8 form, so that a place is given the same number whoever
reads the text. A place inside a character stands for the end of that character.

Main results: `byteLength_append`, by which the offset of a tail is a difference of two lengths, and
`utf8ByteSize_ofList`, these are the bytes that a string holds.
-/

namespace PasswordPolicy.Text

def byteLength : List Char → Nat
  | [] => 0
  | c :: text => c.utf8Size + byteLength text

@[simp] theorem byteLength_append (a b : List Char) :
    byteLength (a ++ b) = byteLength a + byteLength b := by
  induction a with
  | nil => simp [byteLength]
  | cons c a ih => simp [byteLength, ih, Nat.add_assoc]

theorem utf8ByteSize_ofList (text : List Char) :
    (String.ofList text).utf8ByteSize = byteLength text := by
  induction text with
  | nil => simp [byteLength]
  | cons c text ih =>
    rw [← List.singleton_append, String.ofList_append, String.utf8ByteSize_append, ih]
    simp [byteLength]

/-- Drop whole characters until at least so many bytes are gone or the text ends. -/
def dropBytes : Nat → List Char → List Char
  | 0, text => text
  | _ + 1, [] => []
  | n + 1, c :: text => dropBytes (n + 1 - c.utf8Size) text

theorem dropBytes_suffix (n : Nat) (text : List Char) : dropBytes n text <:+ text := by
  induction text generalizing n with
  | nil => cases n <;> simp [dropBytes]
  | cons c text ih =>
    cases n with
    | zero => simp [dropBytes]
    | succ n => exact (ih _).trans (List.suffix_cons c text)

/-- The offset at which the first character that is not spacing begins, from `position` on; the end
of the text if there is none. -/
def skipSpacingFrom (text : List Char) (position : Nat) : Nat :=
  byteLength text - byteLength (skipSpacing (dropBytes position text))

end PasswordPolicy.Text
