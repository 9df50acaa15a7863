import PasswordPolicy.Reading.Number
import PasswordPolicy.Reading.Range
import PasswordPolicy.CharClass

/-!
# Reading lists of classes

**Brackets** hold printable characters. A closing bracket ends the class, and a second one right
behind it is a member that was written last. A dash counts only in the first place. Characters that
do not belong are dropped one by one.

**Classes** are separated by commas. A problem with one class never touches its neighbours, unless
it is no longer clear where the class ends: then the document is abandoned.
-/

namespace PasswordPolicy

open Text

/-! ## Between brackets -/

/-- Read the members of a class behind the first one. The class was opened at the tail `opening`. -/
def readMembers (opening : List Char) : List Char → Reading (List Char)
  | [] => .abandoned .unterminatedCustomClass opening
  | ']' :: ']' :: rest => .ok [']'] rest
  | ']' :: rest => .ok [] rest
  | c :: rest =>
    let others := readMembers opening rest
    if c = '-' then others.noting .misplacedDash (c :: rest)
    else if isPrintable c then others.map (c :: ·)
    else others.noting (.nonPrintable c) (c :: rest)

/-- Read all that stands behind the opening bracket of a class. -/
def readBrackets (opening : List Char) : List Char → Reading (List Char)
  | '-' :: rest => (readMembers opening rest).map ('-' :: ·)
  | inside => readMembers opening inside

theorem readMembers_close {opening rest : List Char} (h : ∀ more, rest ≠ ']' :: more) :
    readMembers opening (']' :: rest) = .ok [] rest := by
  cases rest with
  | nil => rfl
  | cons c more =>
    have hc : c ≠ ']' := fun hc => h more (hc ▸ rfl)
    rw [readMembers]
    intro rest' hm
    cases hm
    exact hc rfl

theorem readMembers_cons {c : Char} (hc : c ≠ ']') (opening rest : List Char) :
    readMembers opening (c :: rest) =
      if c = '-' then (readMembers opening rest).noting .misplacedDash (c :: rest)
      else if isPrintable c then (readMembers opening rest).map (c :: ·)
      else (readMembers opening rest).noting (.nonPrintable c) (c :: rest) := by
  rw [readMembers]
  · exact fun _ h => absurd h hc
  · exact hc

theorem readMembers_within {opening text inside : List Char} (h : opening <:+ text)
    (hi : inside <:+ text) : (readMembers opening inside).Within text := by
  fun_induction readMembers opening inside with
  | case1 => exact .abandoned h
  | case2 rest => exact .ok (((List.suffix_cons _ rest).trans (List.suffix_cons _ _)).trans hi)
  | case3 rest => exact .ok ((List.suffix_cons _ rest).trans hi)
  | case4 rest _ _ _ ih => exact .noting hi (ih ((List.suffix_cons _ rest).trans hi))
  | case5 c rest _ _ _ _ _ ih => exact .map (ih ((List.suffix_cons c rest).trans hi))
  | case6 c rest _ _ _ _ _ ih => exact .noting hi (ih ((List.suffix_cons c rest).trans hi))

theorem readBrackets_within {opening text inside : List Char} (h : opening <:+ text)
    (hi : inside <:+ text) : (readBrackets opening inside).Within text := by
  unfold readBrackets
  split
  · next rest => exact .map (readMembers_within h ((List.suffix_cons '-' rest).trans hi))
  · exact readMembers_within h hi

/-! ## One class -/

/-- Read a class that begins with its opening bracket, and its range. A class without members is
dropped. -/
def readCustomClass (text : List Char) : Reading (Option CharClass) :=
  (readBrackets text text.tail).bind fun cs rest =>
    (readOptionalRange rest).bind fun range rest =>
      if cs = [] then (Reading.ok none rest).noting .emptyCustomClass text
      else .ok (some ⟨.custom cs, range⟩) rest

/-- Read a class that begins with its name, and its range. A class of an unknown name is dropped
with its range. -/
def readNamedClass (text : List Char) : Reading (Option CharClass) :=
  (readOptionalRange (afterIdentifier text)).bind fun range rest =>
    match ClassName.ofIdentifier? (identifierOf text) with
    | some name => .ok (some ⟨.named name, range⟩) rest
    | none => (Reading.ok none rest).noting (.unknownClass (String.ofList (identifierOf text))) text

/-- Read one class of a list. -/
def readClass (text : List Char) : Reading (Option CharClass) :=
  match text.head? with
  | none => .abandoned (.expected [.classValue]) text
  | some c =>
    if isIdentifierChar c then readNamedClass text
    else if c = '[' then readCustomClass text
    else .abandoned (.expected [.classValue]) text

theorem readCustomClass_within (text : List Char) : (readCustomClass text).Within text :=
  (readBrackets_within List.suffix_rfl (List.tail_suffix text)).bind fun cs rest h =>
    ((readOptionalRange_within rest).trans h).bind fun range rest h => by
      split
      · exact .noting List.suffix_rfl (.ok h)
      · exact .ok h

theorem readNamedClass_within (text : List Char) : (readNamedClass text).Within text :=
  ((readOptionalRange_within _).trans (afterIdentifier_suffix text)).bind fun range rest h => by
    split
    · exact .ok h
    · exact .noting List.suffix_rfl (.ok h)

theorem readClass_within (text : List Char) : (readClass text).Within text := by
  unfold readClass
  split
  · exact .abandoned List.suffix_rfl
  · split
    · exact readNamedClass_within _
    · split
      · exact readCustomClass_within _
      · exact .abandoned List.suffix_rfl

/-! ## A list of classes -/

/-- Read classes up to the end of their rule. -/
def readClassList (text : List Char) : Reading (List CharClass) :=
  let item := readClass text
  match _h : item.outcome with
  | .stop => ⟨item.findings, .stop⟩
  | .abandon => ⟨item.findings, .abandon⟩
  | .read found rest =>
    match hr : skipSpacing rest with
    | [] => ⟨item.findings, .read found.toList []⟩
    | c :: more =>
      if c = ';' then
        ⟨item.findings, .read found.toList (c :: more)⟩
      else if c = ',' then
        let others := (readClassList (skipSpacing more)).map (found.toList ++ ·)
        ⟨item.findings ++ others.findings, others.outcome⟩
      else
        ⟨item.findings ++ [⟨.expected [.char ',', .char ';', .endOfText], c :: more⟩], .abandon⟩
termination_by text.length
decreasing_by
  have h₁ := ((readClass_within text).rest _ _ _h).length_le
  have h₂ := (skipSpacing_suffix rest).length_le
  have h₃ := (skipSpacing_suffix more).length_le
  simp only [hr, List.length_cons] at h₂
  omega

/-- The class list by its first class and by what comes behind it. -/
theorem readClassList_eq (text : List Char) :
    readClassList text = (readClass text).bind fun found rest =>
      match skipSpacing rest with
      | [] => .ok found.toList []
      | c :: more =>
        if c = ';' then .ok found.toList (c :: more)
        else if c = ',' then (readClassList (skipSpacing more)).map (found.toList ++ ·)
        else .abandoned (.expected [.char ',', .char ';', .endOfText]) (c :: more) := by
  rw [readClassList]
  cases hr : readClass text with
  | mk fs o =>
    cases o with
    | stop => rfl
    | abandon => rfl
    | read found rest =>
      dsimp only [Reading.bind]
      cases skipSpacing rest with
      | nil => simp [Reading.ok]
      | cons c more =>
        dsimp only
        split
        · simp [Reading.ok]
        · split
          · rfl
          · rfl

theorem readClassList_within (text : List Char) : (readClassList text).Within text := by
  induction text using separator_induction with
  | step text ih =>
    rw [readClassList_eq]
    refine (readClass_within text).bind fun found rest hrest => ?_
    have hs := (skipSpacing_suffix rest).trans hrest
    split
    · exact .ok List.nil_suffix
    · next c more h =>
      rw [h] at hs
      have hm := (skipSpacing_suffix more).trans ((List.suffix_cons c more).trans hs)
      split
      · exact .ok hs
      · split
        · exact .map ((ih rest c more hrest h).trans hm)
        · exact .abandoned hs

end PasswordPolicy
