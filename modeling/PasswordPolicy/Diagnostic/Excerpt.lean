import PasswordPolicy.Diagnostic

/-!
# Diagnostics shown in their source

**An excerpt** quotes the line of a place, marks the column with a caret and puts the messages
beside it. Consecutive diagnostics at one place share an excerpt.
-/

namespace PasswordPolicy

structure Excerpt where
  heading : String
  line : Nat
  column : Nat
  /-- The quoted line; none if the source has no line of that number. -/
  quotation : Option String
  remark : String
  deriving DecidableEq

namespace Excerpt

/-- The line of the source with this number, counted from one. -/
def lineOf? (source : String) (line : Nat) : Option String :=
  match line with
  | 0 => none
  | n + 1 => (source.toList.splitOn '\n')[n]?.map String.ofList

def spaces (n : Nat) : String :=
  String.ofList (List.replicate n ' ')

/-- The excerpt line by line: heading, place, a blank line, the quotation and the remark. -/
def lines (e : Excerpt) : List String :=
  let number := toString e.line
  let margin := spaces number.length
  ["error: " ++ e.heading, margin ++ "--> " ++ number ++ ":" ++ toString e.column,
      margin ++ " | "] ++
    e.quotation.toList.map (number ++ " | " ++ ·) ++
    [margin ++ " | " ++ spaces (e.column - 1) ++ "^ " ++ e.remark]

/-- The excerpt as text, without a line feed at its end. -/
def render (e : Excerpt) : String :=
  "\n".intercalate e.lines

theorem toList_spaces (n : Nat) : (spaces n).toList = List.replicate n ' ' :=
  String.toList_ofList

/-- An excerpt that quotes a line is printed in five rows. -/
theorem render_of_quotation {e : Excerpt} {quoted : String} (h : e.quotation = some quoted) :
    e.render =
      "error: " ++ e.heading ++ "\n" ++
        spaces (toString e.line).length ++ "--> " ++ toString e.line ++ ":" ++
          toString e.column ++ "\n" ++
        spaces (toString e.line).length ++ " | " ++ "\n" ++
        toString e.line ++ " | " ++ quoted ++ "\n" ++
        spaces (toString e.line).length ++ " | " ++ spaces (e.column - 1) ++ "^ " ++ e.remark := by
  simp only [render, lines, h, Option.toList_some, List.map_cons, List.map_nil, List.cons_append,
    List.nil_append, String.intercalate_cons_cons, String.intercalate_singleton,
    String.append_assoc]

def headingOf (run : List Diagnostic) : String :=
  if run.any Diagnostic.isError then "parsing failed" else "input was adjusted"

/-- The excerpt for a run of diagnostics, placed where the first of them is. -/
def ofRun (source : String) (run : List Diagnostic) : Option Excerpt :=
  run.head?.map fun d =>
    ⟨headingOf run, d.line, d.column, lineOf? source d.line,
      "; ".intercalate (run.map Diagnostic.message)⟩

/-- Shown when nothing is known about a failure. -/
def unknown : Excerpt :=
  ⟨"parsing failed", 0, 0, none, "unknown error"⟩

def samePlace (d e : Diagnostic) : Bool :=
  d.line == e.line && d.column == e.column

/-- The excerpts for a list of diagnostics, one for each run at one place. -/
def ofDiagnostics (source : String) : List Diagnostic → List Excerpt
  | [] => [unknown]
  | ds => (ds.splitBy samePlace).filterMap (ofRun source)

end Excerpt

/-- The diagnostics in excerpts of their source, one right after another. -/
def renderExcerpts (source : String) (ds : List Diagnostic) : String :=
  String.join ((Excerpt.ofDiagnostics source ds).map Excerpt.render)

end PasswordPolicy
