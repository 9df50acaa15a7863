import PasswordPolicy.Proofs.BetweenBrackets
import PasswordPolicy.Proofs.DocumentRun
import PasswordPolicy.Proofs.RangeReading

/-!
# Readers as loops

**Turns.** A loop is given by what one turn of it does: the turn goes on in a later state or
finishes with a result. Nothing about a loop says that it ever finishes.

**A loop computes a value** if each of its turns finishes with the value of its state, or goes on in
a state of the same value that has less text to read (`Computes`). Then it does finish, after no
more turns than there are characters and one, and with that value (`Computes.ends`).

**Four readers are loops:** that of the rules of a document, of the classes of a list, of the
members of a class, and of a range. Each collects what it has read so far in its state, and each
computes what the reader gives.
-/

namespace PasswordPolicy

open Text

/-! ## Loops -/

/-- What one turn of a loop comes to. -/
inductive Turn (σ β : Type) where
  | goOn (state : σ)
  | finish (result : β)

section Loops

variable {σ β : Type}

/-- The loop finishes in its turn of this number, with this result. -/
inductive Ends (turn : σ → Turn σ β) : Nat → σ → β → Prop
  | finish {s : σ} {result : β} : turn s = .finish result → Ends turn 1 s result
  | goOn {n : Nat} {s t : σ} {result : β} :
      turn s = .goOn t → Ends turn n t result → Ends turn (n + 1) s result

/-- What is left of a text once some of its characters were read. -/
structure ShorterTail (tail text : List Char) : Prop where
  suffix : tail <:+ text
  length_lt : tail.length < text.length

/-- Each turn finishes with the value of the state, or leaves the value as it is and less text to
read. -/
def Computes (turn : σ → Turn σ β) (tail : σ → List Char) (value : σ → β) : Prop :=
  ∀ s, turn s = .finish (value s) ∨
    ∃ t, turn s = .goOn t ∧ value t = value s ∧ ShorterTail (tail t) (tail s)

variable {turn : σ → Turn σ β} {tail : σ → List Char} {value : σ → β}

theorem Computes.shorterTail (h : Computes turn tail value) {s t : σ} (hturn : turn s = .goOn t) :
    ShorterTail (tail t) (tail s) := by
  obtain hfinish | ⟨u, hgoOn, -, hshorter⟩ := h s
  · rw [hturn] at hfinish
    cases hfinish
  · rw [hturn] at hgoOn
    cases hgoOn
    exact hshorter

/-- **A loop that computes a value finishes with it.** -/
theorem Computes.ends (h : Computes turn tail value) (s : σ) :
    ∃ n ≤ (tail s).length + 1, Ends turn n s (value s) := by
  -- The text that a turn leaves is shorter, so there is room for the turn in the bound.
  induction hlength : (tail s).length using Nat.strongRecOn generalizing s with
  | ind n ih =>
    obtain hfinish | ⟨t, hgoOn, hvalue, hshorter⟩ := h s
    · exact ⟨1, Nat.le_add_left 1 n, .finish hfinish⟩
    · have hlt : (tail t).length < n := hlength ▸ hshorter.length_lt
      obtain ⟨m, hm, hends⟩ := ih _ hlt t rfl
      rw [hvalue] at hends
      exact ⟨m + 1, by omega, .goOn hgoOn hends⟩

end Loops

theorem ShorterTail.of_cons {c : Char} {rest tail text : List Char} (htail : tail <:+ rest)
    (htext : c :: rest <:+ text) : ShorterTail tail text := by
  refine ⟨htail.trans ((List.suffix_cons c rest).trans htext), ?_⟩
  have hle := htail.length_le
  have hlt := htext.length_le
  rw [List.length_cons] at hlt
  omega

/-- What comes behind a separator is a shorter tail. -/
theorem ShorterTail.of_separator {text rest more : List Char} {c : Char} (h : rest <:+ text)
    (hmore : skipSpacing rest = c :: more) : ShorterTail (skipSpacing more) text :=
  .of_cons (skipSpacing_suffix more) (hmore ▸ (skipSpacing_suffix rest).trans h)

theorem ShorterTail.trans_suffix {tail inner text : List Char} (h : ShorterTail tail inner)
    (hinner : inner <:+ text) : ShorterTail tail text :=
  ⟨h.suffix.trans hinner, h.length_lt.trans_le hinner.length_le⟩

theorem ShorterTail.suffix_trans {rest tail text : List Char} (hrest : rest <:+ tail)
    (h : ShorterTail tail text) : ShorterTail rest text :=
  ⟨hrest.trans h.suffix, hrest.length_le.trans_lt h.length_lt⟩

/-- A reading of a list with findings and values from before. -/
def Reading.after {α : Type} (fs : List Finding) (values : List α) (r : Reading (List α)) :
    Reading (List α) :=
  ⟨fs ++ r.findings, r.outcome.map (values ++ ·)⟩

/-! ## The rules of a document -/

structure RulesState where
  tail : List Char
  findings : List Finding
  rules : List Rule

/-- Read one rule, and go on behind the semicolon. -/
def rulesTurn (words : List String) (s : RulesState) : Turn RulesState Draft :=
  match s.tail.head? with
  | none => .finish ⟨s.findings, s.rules, .complete⟩
  | some c =>
    if !isIdentifierChar c then
      .finish ⟨s.findings ++ [⟨.expected [.ruleName], s.tail⟩], s.rules, .stopped⟩
    else
      let findings := s.findings ++ (readRule words s.tail).findings
      match (readRule words s.tail).outcome with
      | .stop => .finish ⟨findings, s.rules, .stopped⟩
      | .abandon => .finish ⟨findings, s.rules, .abandoned⟩
      | .read rule rest =>
        let rules := s.rules ++ rule.toList
        match skipSpacing rest with
        | [] => .finish ⟨findings, rules, .complete⟩
        | c :: more =>
          if c = ';' then .goOn ⟨skipSpacing more, findings, rules⟩
          else
            .finish ⟨findings ++ [⟨.expected [.char ';', .endOfText], c :: more⟩], rules,
              .abandoned⟩

theorem rulesTurn_computes (words : List String) :
    Computes (rulesTurn words) RulesState.tail
      fun s => (readRules words s.tail).after s.findings s.rules := by
  intro ⟨text, fs, rules⟩
  dsimp only [rulesTurn]
  cases hhead : text.head? with
  | none =>
    left
    simp [readRules, hhead, Draft.after]
  | some c =>
    by_cases hc : isIdentifierChar c = true
    · rw [readRules_of_head hhead hc]
      simp only [hc, Bool.not_true, Bool.false_eq_true, if_false]
      cases hread : (readRule words text).outcome with
      | stop =>
        left
        simp [Draft.after]
      | abandon =>
        left
        simp [Draft.after]
      | read rule rest =>
        have hrest := (readRule_within words text).rest rule rest hread
        dsimp only
        cases hmore : skipSpacing rest with
        | nil =>
          left
          simp [Draft.after]
        | cons d more =>
          by_cases hd : d = ';'
          · right
            refine ⟨_, if_pos hd, ?_, .of_separator hrest hmore⟩
            simp [hd, Draft.after]
          · left
            simp [hd, Draft.after]
    · left
      simp [readRules, hhead, hc, Draft.after]

/-! ## The classes of a list -/

structure ClassesState where
  tail : List Char
  findings : List Finding
  classes : List CharClass

/-- Read one class, and go on behind the comma. -/
def classesTurn (s : ClassesState) : Turn ClassesState (Reading (List CharClass)) :=
  let findings := s.findings ++ (readClass s.tail).findings
  match (readClass s.tail).outcome with
  | .stop => .finish ⟨findings, .stop⟩
  | .abandon => .finish ⟨findings, .abandon⟩
  | .read found rest =>
    let classes := s.classes ++ found.toList
    match skipSpacing rest with
    | [] => .finish ⟨findings, .read classes []⟩
    | c :: more =>
      if c = ';' then .finish ⟨findings, .read classes (c :: more)⟩
      else if c = ',' then .goOn ⟨skipSpacing more, findings, classes⟩
      else
        .finish ⟨findings ++ [⟨.expected [.char ',', .char ';', .endOfText], c :: more⟩], .abandon⟩

theorem classesTurn_computes : Computes classesTurn ClassesState.tail
    fun s => (readClassList s.tail).after s.findings s.classes := by
  intro ⟨text, fs, classes⟩
  dsimp only [classesTurn]
  rw [readClassList_eq]
  cases hread : readClass text with
  | mk gs outcome =>
    cases outcome with
    | stop =>
      left
      rfl
    | abandon =>
      left
      rfl
    | read found rest =>
      have hrest := (readClass_within text).rest found rest (by rw [hread])
      dsimp only [Reading.bind]
      cases hmore : skipSpacing rest with
      | nil =>
        left
        simp [Reading.after, Reading.ok, Outcome.map]
      | cons c more =>
        by_cases hsemicolon : c = ';'
        · left
          simp [hsemicolon, Reading.after, Reading.ok, Outcome.map]
        · by_cases hcomma : c = ','
          · right
            refine ⟨⟨skipSpacing more, fs ++ gs, classes ++ found.toList⟩, ?_, ?_,
              .of_separator hrest hmore⟩
            · simp [hcomma]
            · simp [hcomma, Reading.after, Reading.map_eq, Outcome.map_append]
          · left
            simp [hsemicolon, hcomma, Reading.after, Reading.abandoned, Outcome.map]

/-! ## The members of a class -/

structure MembersState where
  tail : List Char
  /-- No character was read yet. -/
  first : Bool
  findings : List Finding
  members : List Char

/-- Keep one character or drop it, and go on behind it. -/
def membersTurn (opening : List Char) (s : MembersState) :
    Turn MembersState (Reading (List Char)) :=
  match s.tail with
  | [] => .finish ⟨s.findings ++ [⟨.unterminatedCustomClass, opening⟩], .abandon⟩
  | c :: rest =>
    if c = ']' then
      match rest with
      | ']' :: after => .finish ⟨s.findings, .read (s.members ++ [']']) after⟩
      | _ => .finish ⟨s.findings, .read s.members rest⟩
    else if c = '-' && !s.first then
      .goOn ⟨rest, false, s.findings ++ [⟨.misplacedDash, c :: rest⟩], s.members⟩
    else if !isPrintable c then
      .goOn ⟨rest, false, s.findings ++ [⟨.nonPrintable c, c :: rest⟩], s.members⟩
    else
      .goOn ⟨rest, false, s.findings, s.members ++ [c]⟩

/-- Read the members of a class, all of them or those behind the first one. -/
def readMembersFrom (first : Bool) (opening tail : List Char) : Reading (List Char) :=
  if first then readBrackets opening tail else readMembers opening tail

theorem readMembersFrom_of_head {tail : List Char} (h : tail.head? ≠ some '-') (first : Bool)
    (opening : List Char) : readMembersFrom first opening tail = readMembers opening tail := by
  rw [readMembersFrom, readBrackets_of_head h]
  exact ite_self _

/-- In the first place a dash is like any other character. -/
theorem readMembersFrom_cons {c : Char} (hc : c ≠ ']') (first : Bool) (opening rest : List Char) :
    readMembersFrom first opening (c :: rest) =
      if c = '-' && !first then (readMembers opening rest).noting .misplacedDash (c :: rest)
      else if !isPrintable c then (readMembers opening rest).noting (.nonPrintable c) (c :: rest)
      else (readMembers opening rest).map (c :: ·) := by
  by_cases hdash : c = '-'
  · subst hdash
    cases first with
    | false => exact readMembers_cons hc opening rest
    | true => rfl
  · have hhead : (c :: rest).head? ≠ some '-' := by simpa using hdash
    rw [readMembersFrom_of_head hhead, readMembers_cons hc]
    by_cases hprintable : isPrintable c = true
    · simp [hdash, hprintable]
    · simp [hdash, hprintable]

theorem membersTurn_computes (opening : List Char) :
    Computes (membersTurn opening) MembersState.tail
      fun s => (readMembersFrom s.first opening s.tail).after s.findings s.members := by
  intro ⟨text, first, fs, members⟩
  dsimp only [membersTurn]
  cases text with
  | nil =>
    left
    rw [readMembersFrom_of_head (by simp)]
    rfl
  | cons c rest =>
    have hrest : ShorterTail rest (c :: rest) := .of_cons List.suffix_rfl List.suffix_rfl
    by_cases hc : c = ']'
    · left
      rw [hc, readMembersFrom_of_head (by simp)]
      simp only [if_true]
      split
      · next after => simp [readMembers, Reading.after, Reading.ok, Outcome.map]
      · next hafter => simp [readMembers_close hafter, Reading.after, Reading.ok, Outcome.map]
    · right
      dsimp only
      rw [if_neg hc, readMembersFrom_cons hc]
      -- Whatever becomes of the character, the next one is not the first.
      have hbehind : readMembersFrom false opening rest = readMembers opening rest := rfl
      split
      · exact ⟨_, rfl, by simp [hbehind, Reading.after, Reading.noting], hrest⟩
      · split
        · exact ⟨_, rfl, by simp [hbehind, Reading.after, Reading.noting], hrest⟩
        · refine ⟨_, rfl, ?_, hrest⟩
          rw [Reading.map_eq]
          exact congrArg (Reading.mk _) (Outcome.map_append members [c] _).symm

/-! ## A range -/

/-- What was read of a range: the digits of its fields, and whether a character came up that does
not belong there. -/
structure RangeFields where
  earlier : List (List Char)
  last : List Char
  malformed : Bool

namespace RangeFields

def start : RangeFields :=
  ⟨[], [], false⟩

def all (fields : RangeFields) : List (List Char) :=
  fields.earlier ++ [fields.last]

def add (fields : RangeFields) (c : Char) : RangeFields :=
  if c = '(' || isSpacing c then fields
  else if c = ',' then ⟨fields.all, [], fields.malformed⟩
  else if c.isDigit then ⟨fields.earlier, fields.last ++ [c], fields.malformed⟩
  else ⟨fields.earlier, fields.last, true⟩

def range? (fields : RangeFields) : Option CountRange :=
  if fields.malformed then none
  else
    match fields.all with
    | [least, most] => (count? least).bind fun l => (count? most).bind fun m => CountRange.of? l m
    | _ => none

/-- Whether a character may stand inside a range. -/
def belongs (c : Char) : Bool :=
  c = '(' || isSpacing c || c = ',' || c.isDigit

theorem malformed_add (fields : RangeFields) (c : Char) :
    (fields.add c).malformed = (fields.malformed || !belongs c) := by
  unfold add
  split_ifs with hskip hcomma hdigit
  · simp [belongs, hskip]
  · simp [belongs, hcomma]
  · simp [belongs, hdigit]
  · simp [belongs, hskip, hcomma, hdigit]

theorem malformed_foldl (fields : RangeFields) (inside : List Char) :
    (inside.foldl add fields).malformed = (fields.malformed || !inside.all belongs) := by
  induction inside generalizing fields with
  | nil => simp
  | cons c inside ih =>
    rw [List.foldl_cons, ih, malformed_add, List.all_cons, Bool.not_and, Bool.or_assoc]

theorem rangeDigits_cons (c : Char) (inside : List Char) : rangeDigits (c :: inside) =
    if c = '(' || isSpacing c then rangeDigits inside else c :: rangeDigits inside := by
  by_cases hopen : c = '('
  · simp [rangeDigits, hopen]
  · by_cases hspacing : isSpacing c = true
    · simp [rangeDigits, hspacing]
    · simp [rangeDigits, hopen, hspacing]

/-- The fields are what stands between the commas. -/
theorem all_foldl (fields : RangeFields) {inside : List Char} (h : inside.all belongs = true) :
    (inside.foldl add fields).all =
      fields.earlier ++ ((rangeDigits inside).splitOn ',').modifyHead (fields.last ++ ·) := by
  induction inside generalizing fields with
  | nil => simp [all, rangeDigits]
  | cons c inside ih =>
    rw [List.all_cons, Bool.and_eq_true] at h
    obtain ⟨hc, hinside⟩ := h
    rw [List.foldl_cons, ih _ hinside, rangeDigits_cons, add]
    by_cases hskip : (c = '(' || isSpacing c) = true
    · rw [if_pos hskip, if_pos hskip]
    · rw [if_neg hskip, if_neg hskip, List.splitOn_cons_eq_if_modifyHead]
      by_cases hcomma : c = ','
      · simp only [hcomma, all, List.nil_append, if_true, BEq.rfl, List.modifyHead_cons,
          List.append_nil, List.append_assoc, List.singleton_append]
        exact congrArg (fields.earlier ++ fields.last :: ·) (congrFun List.modifyHead_id _)
      · have hdigit : c.isDigit = true := by simpa [belongs, hskip, hcomma] using hc
        simp [hcomma, hdigit, Function.comp_def]

theorem all_belongs_of_rangeOf? {inside : List Char} {r : CountRange}
    (h : rangeOf? inside = some r) : inside.all belongs = true := by
  have honly := (rangeOf?_eq_some_iff.1 (show rangeOf? ('(' :: inside) = some r from h)).only
  rw [List.all_eq_true]
  intro c hc
  rcases honly c hc with hdigit | hspacing | hopen | hcomma
  · simp [belongs, hdigit]
  · simp [belongs, hspacing]
  · simp [belongs, hopen]
  · simp [belongs, hcomma]

/-- Field by field, a range says what the text inside it denotes. -/
theorem range?_foldl (inside : List Char) : (inside.foldl add start).range? = rangeOf? inside := by
  by_cases hbelongs : inside.all belongs = true
  · have hfields : (inside.foldl add start).all = (rangeDigits inside).splitOn ',' := by
      rw [all_foldl start hbelongs]
      exact congrFun List.modifyHead_id _
    rw [range?, malformed_foldl, hbelongs, hfields]
    rfl
  · -- A character that does not belong stays in a field, and no number is read from that field.
    have hnone : rangeOf? inside = none :=
      Option.eq_none_iff_forall_ne_some.2 fun r hr => hbelongs (all_belongs_of_rangeOf? hr)
    rw [range?, malformed_foldl, hnone]
    simp [hbelongs]

end RangeFields

structure RangeState where
  tail : List Char
  fields : RangeFields

/-- What becomes of a range that began at `text`, behind its closing parenthesis. -/
def closeRange (text rest : List Char) (range : Option CountRange) : Reading (Option CountRange) :=
  match range with
  | some r => .ok (some r) rest
  | none => (Reading.ok none rest).noting .malformedRange text

/-- Take in one character of a range that began at `text`, and go on behind it. -/
def rangeTurn (text : List Char) (s : RangeState) : Turn RangeState (Reading (Option CountRange)) :=
  match s.tail with
  | [] => .finish ((Reading.ok none []).noting .unterminatedRange text)
  | c :: rest =>
    if c = ';' then .finish ((Reading.ok none (c :: rest)).noting .unterminatedRange text)
    else if c = ')' then .finish (closeRange text rest s.fields.range?)
    else .goOn ⟨rest, s.fields.add c⟩

/-- Read what is left of a range. -/
def readRangeFrom (text : List Char) (fields : RangeFields) (tail : List Char) :
    Reading (Option CountRange) :=
  match tail.dropWhile isRangeInside with
  | ')' :: rest => closeRange text rest ((tail.takeWhile isRangeInside).foldl .add fields).range?
  | rest => (Reading.ok none rest).noting .unterminatedRange text

theorem readRangeFrom_start (text : List Char) :
    readRangeFrom text .start text = readRange text := by
  rw [readRangeFrom, readRange, RangeFields.range?_foldl]
  rfl

theorem rangeTurn_computes (text : List Char) : Computes (rangeTurn text) RangeState.tail
    fun s => readRangeFrom text s.fields s.tail := by
  intro ⟨tail, fields⟩
  dsimp only [rangeTurn]
  cases tail with
  | nil =>
    left
    rfl
  | cons c rest =>
    by_cases hsemicolon : c = ';'
    · left
      simp [hsemicolon, readRangeFrom, isRangeInside]
    · by_cases hclose : c = ')'
      · left
        simp [hclose, readRangeFrom, isRangeInside]
      · right
        have hinside : isRangeInside c = true := by simp [isRangeInside, hsemicolon, hclose]
        refine ⟨⟨rest, fields.add c⟩, ?_, ?_, .of_cons List.suffix_rfl List.suffix_rfl⟩
        · simp [hsemicolon, hclose]
        · simp [readRangeFrom, hinside]

end PasswordPolicy
