import PasswordPolicy.Proofs.CleanReading

/-!
# Documents rule by rule

**A round** takes the reader from the name of a rule to what stands behind its value, over spacing
(`Round`). It ends the document, or a semicolon follows and leads to the next round.

**Drafts.** `Drafts` says the same as `readRules`, with a case for each way in which the reader goes
on or comes to an end, so that what holds of every draft is proved by induction on it.

**How far the reader gets.** A document is read through if rounds lead to its end, either right
behind a rule (`EndsWithRule`) or behind a semicolon.

Main results: `drafts_readRules`, and `ending_eq_complete_iff`, a draft is complete exactly if the
document was read through.
-/

namespace PasswordPolicy

open Text

/-! ## Rounds -/

/-- The text begins like the name of a rule. -/
def AtName (text : List Char) : Prop :=
  ∃ c, text.head? = some c ∧ isIdentifierChar c = true

/-- A rule is read at the front of the text, and over spacing `next` is left behind it. A rule of no
use leaves only its findings. -/
structure Round (words : List String) (text : List Char) (fs : List Finding) (rule : Option Rule)
    (next : List Char) : Prop where
  name : AtName text
  value : ∃ rest, readRule words text = ⟨fs, .read rule rest⟩ ∧ skipSpacing rest = next

section Rounds

variable {words : List String} {text next more : List Char} {fs : List Finding}
  {rule : Option Rule}

theorem Round.readRules_last (h : Round words text fs rule []) :
    readRules words text = ⟨fs, rule.toList, .complete⟩ := by
  obtain ⟨⟨c, hh, hc⟩, rest, hread, hnext⟩ := h
  rw [readRules_of_head hh hc, hread]
  simp only [hnext]

theorem Round.readRules_next (h : Round words text fs rule (';' :: more)) :
    readRules words text = (readRules words (skipSpacing more)).after fs rule.toList := by
  obtain ⟨⟨c, hh, hc⟩, rest, hread, hnext⟩ := h
  rw [readRules_of_head hh hc, hread]
  simp only [hnext, if_true]

theorem Round.readRules_unseparated {c : Char} (h : Round words text fs rule (c :: more))
    (hc : c ≠ ';') : readRules words text =
      ⟨fs ++ [⟨.expected [.char ';', .endOfText], c :: more⟩], rule.toList, .abandoned⟩ := by
  obtain ⟨⟨d, hh, hd⟩, rest, hread, hnext⟩ := h
  rw [readRules_of_head hh hd, hread]
  simp only [hnext, if_neg hc]

end Rounds

/-! ## Drafts -/

/-- From the name of a rule on, the text is read as the draft. -/
inductive Drafts (words : List String) : List Char → Draft → Prop
  | nothing : Drafts words [] ⟨[], [], .complete⟩
  | noName {c : Char} {text : List Char} : isIdentifierChar c = false →
      Drafts words (c :: text) ⟨[⟨.expected [.ruleName], c :: text⟩], [], .stopped⟩
  | stop {text : List Char} {fs : List Finding} : AtName text → readRule words text = ⟨fs, .stop⟩ →
      Drafts words text ⟨fs, [], .stopped⟩
  | abandon {text : List Char} {fs : List Finding} : AtName text →
      readRule words text = ⟨fs, .abandon⟩ → Drafts words text ⟨fs, [], .abandoned⟩
  | last {text : List Char} {fs : List Finding} {rule : Option Rule} :
      Round words text fs rule [] → Drafts words text ⟨fs, rule.toList, .complete⟩
  | unseparated {text more : List Char} {fs : List Finding} {rule : Option Rule} {c : Char} :
      Round words text fs rule (c :: more) → c ≠ ';' →
      Drafts words text
        ⟨fs ++ [⟨.expected [.char ';', .endOfText], c :: more⟩], rule.toList, .abandoned⟩
  | next {text more : List Char} {fs : List Finding} {rule : Option Rule} {d : Draft} :
      Round words text fs rule (';' :: more) → Drafts words (skipSpacing more) d →
      Drafts words text (d.after fs rule.toList)

theorem drafts_readRules (words : List String) (text : List Char) :
    Drafts words text (readRules words text) := by
  induction text using separator_induction with
  | step text ih =>
    cases text with
    | nil =>
      rw [readRules]
      exact .nothing
    | cons c text =>
      cases hc : isIdentifierChar c with
      | false =>
        rw [readRules]
        simp only [List.head?_cons, hc, Bool.not_false, if_true]
        exact .noName hc
      | true =>
        have hname : AtName (c :: text) := ⟨c, rfl, hc⟩
        cases hread : readRule words (c :: text) with
        | mk fs outcome =>
          cases outcome with
          | stop =>
            rw [readRules_of_head rfl hc, hread]
            exact .stop hname hread
          | abandon =>
            rw [readRules_of_head rfl hc, hread]
            exact .abandon hname hread
          | read rule rest =>
            cases hnext : skipSpacing rest with
            | nil =>
              have hround : Round words (c :: text) fs rule [] := ⟨hname, rest, hread, hnext⟩
              rw [hround.readRules_last]
              exact .last hround
            | cons d more =>
              have hround : Round words (c :: text) fs rule (d :: more) :=
                ⟨hname, rest, hread, hnext⟩
              by_cases hd : d = ';'
              · subst hd
                have hrest := (readRule_within words (c :: text)).rest rule rest (by rw [hread])
                rw [hround.readRules_next]
                exact .next hround (ih rest ';' more hrest hnext)
              · rw [hround.readRules_unseparated hd]
                exact .unseparated hround hd

/-! ## How far the reader gets -/

/-- The reader gets from one place to a later one in rounds. -/
inductive Reaches (words : List String) : List Char → List Char → Prop
  | here (text : List Char) : Reaches words text text
  | next {text more place : List Char} {fs : List Finding} {rule : Option Rule} :
      Round words text fs rule (';' :: more) → Reaches words (skipSpacing more) place →
      Reaches words text place

/-- The text is read to its end, and its end comes right behind a rule. -/
def EndsWithRule (words : List String) (text : List Char) : Prop :=
  ∃ place fs rule, Reaches words text place ∧ Round words place fs rule []

/-- The text is read to its end. -/
def ReadThrough (words : List String) (text : List Char) : Prop :=
  Reaches words text [] ∨ EndsWithRule words text

section Reaching

variable {words : List String} {text more : List Char} {fs : List Finding} {rule : Option Rule}

theorem Round.readThrough (h : Round words text fs rule (';' :: more))
    (hmore : ReadThrough words (skipSpacing more)) : ReadThrough words text := by
  rcases hmore with hend | ⟨place, gs, last, hreaches, hlast⟩
  · exact .inl (.next h hend)
  · exact .inr ⟨place, gs, last, .next h hreaches, hlast⟩

/-- Rounds on the way change nothing about how the document comes to its end. -/
theorem Reaches.ending_eq {place : List Char} (h : Reaches words text place) :
    (readRules words text).ending = (readRules words place).ending := by
  induction h with
  | here text => rfl
  | next hround _ ih =>
    rw [hround.readRules_next]
    exact ih

theorem ending_eq_complete_iff (words : List String) (text : List Char) :
    (readRules words text).ending = .complete ↔ ReadThrough words text := by
  constructor
  · have hdrafts := drafts_readRules words text
    generalize readRules words text = d at hdrafts
    induction hdrafts with
    | nothing => exact fun _ => .inl (.here [])
    | noName | stop | abandon | unseparated => exact fun h => (nomatch h)
    | last hround => exact fun _ => .inr ⟨_, _, _, .here _, hround⟩
    | next hround _ ih => exact fun h => hround.readThrough (ih h)
  · rintro (hend | ⟨place, fs, rule, hreaches, hround⟩)
    · rw [hend.ending_eq, readRules]
      rfl
    · rw [hreaches.ending_eq, hround.readRules_last]

end Reaching

end PasswordPolicy
