/-!
# Lines of a text

**A line** ends at a line feed, and a carriage return right before the line feed belongs to the
ending. What follows the last line feed is a line unless it is empty.
-/

namespace PasswordPolicy.Text

/-- The line that a line feed ended, without the carriage return that may stand before it. -/
def dropReturn (line : List Char) : List Char :=
  if line.getLast? = some '\r' then line.dropLast else line

def lines (text : List Char) : List (List Char) :=
  let pieces := text.splitOn '\n'
  pieces.dropLast.map dropReturn ++ pieces.getLast?.toList.filter (· ≠ [])

end PasswordPolicy.Text
