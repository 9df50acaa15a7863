import Mathlib.Data.List.TakeWhile
import PasswordPolicy.Proofs.GrammarComplete

/-!
# Carrying over

**Carrying over.** A reader that goes on behind its value takes the same value out of a text that
goes on behind a mark: no reader of a class looks past the comma or the semicolon behind it. The
findings are the same, too, at the tails that have grown (`Reading.CarriesOver`).

**Open ranges.** A range without a closing parenthesis is the exception. It ends at a semicolon just
as it does at the end of the text, but it takes in whatever else comes behind
(`Reading.ClosedBefore`).

Main results: `Reading.CarriesOver.bind`, what carries over composes, and `readClass_carriesOver`.
-/

namespace PasswordPolicy

open Text Grammar

/-! ## Scanning up to a mark -/

section Scanning

variable {p : Char → Bool}

/-- A scan that stops inside a text stops there in the text that goes on, too. -/
theorem dropWhile_append_of_stop {t more : List Char} {c : Char} (h : t.dropWhile p = c :: more)
    (u : List Char) : (t ++ u).dropWhile p = t.dropWhile p ++ u := by
  rw [List.dropWhile_append, h]
  rfl

theorem takeWhile_append_of_stop {t more : List Char} {c : Char} (h : t.dropWhile p = c :: more)
    (u : List Char) : (t ++ u).takeWhile p = t.takeWhile p := by
  have hlength : (t.takeWhile p ++ t.dropWhile p).length = t.length := by
    rw [List.takeWhile_append_dropWhile]
  rw [h, List.length_append, List.length_cons] at hlength
  rw [List.takeWhile_append, if_neg (by omega)]

variable {u : List Char} (hu : ∀ c more, u = c :: more → p c = false)
include hu

theorem dropWhile_append_of_ends (t : List Char) :
    (t ++ u).dropWhile p = t.dropWhile p ++ u := by
  cases h : t.dropWhile p with
  | nil =>
    rw [dropWhile_run (List.dropWhile_eq_nil_iff.1 h) hu]
    rfl
  | cons c more => rw [dropWhile_append_of_stop h, h]

theorem takeWhile_append_of_ends (t : List Char) : (t ++ u).takeWhile p = t.takeWhile p := by
  cases h : t.dropWhile p with
  | nil =>
    have ht : ∀ c ∈ t, p c = true := List.dropWhile_eq_nil_iff.1 h
    rw [takeWhile_run ht hu, List.takeWhile_eq_self_iff.2 ht]
  | cons c more => exact takeWhile_append_of_stop h u

end Scanning

/-- What begins with another mark behind the text does not make the text begin with this one. -/
theorem ne_cons_append {c : Char} {t u : List Char} (ht : ∀ more, t ≠ c :: more)
    (hu : ∀ more, u ≠ c :: more) : ∀ more, t ++ u ≠ c :: more := by
  cases t with
  | nil => exact hu
  | cons d t =>
    intro more heq
    exact ht t (by rw [List.head_eq_of_cons_eq heq])

theorem skipSpacing_append_of_cons {text more : List Char} {c : Char}
    (h : skipSpacing text = c :: more) (u : List Char) :
    skipSpacing (text ++ u) = c :: (more ++ u) := by
  rw [skipSpacing, dropWhile_append_of_stop h, ← skipSpacing, h, List.cons_append]

/-! ## Carrying over -/

/-- The finding in a text that goes on. -/
def Finding.extend (behind : List Char) (f : Finding) : Finding :=
  ⟨f.problem, f.tail ++ behind⟩

/-- No range is open to what comes behind: that begins with a semicolon, or every range has its
closing parenthesis. -/
def Reading.ClosedBefore {α : Type} (behind : List Char) (r : Reading α) : Prop :=
  (∃ u, behind = ';' :: u) ∨ ∀ f ∈ r.findings, f.problem ≠ .unterminatedRange

/-- If a value was read, and no range is open, then the value is read from the text that goes on,
with the same findings. -/
def Reading.CarriesOver {α : Type} (behind : List Char) (r s : Reading α) : Prop :=
  ∀ value rest, r.outcome = .read value rest → r.ClosedBefore behind →
    s = ⟨r.findings.map (·.extend behind), .read value (rest ++ behind)⟩

namespace Reading.CarriesOver

variable {α β : Type} {behind rest tail : List Char} {value : α} {problem : Problem}
  {r s : Reading α}

theorem ok : CarriesOver behind (Reading.ok value rest) (.ok value (rest ++ behind)) := by
  intro v t h _
  cases h
  rfl

theorem stopped : CarriesOver behind (Reading.stopped problem tail : Reading α) s :=
  fun _ _ h => (nomatch h)

theorem abandoned : CarriesOver behind (Reading.abandoned problem tail : Reading α) s :=
  fun _ _ h => (nomatch h)

theorem noting (h : CarriesOver behind r s) :
    CarriesOver behind (r.noting problem tail) (s.noting problem (tail ++ behind)) := by
  intro v t hv hclosed
  rw [h v t hv (hclosed.imp_right fun hf f hmem => hf f (List.mem_cons_of_mem _ hmem))]
  rfl

theorem bind {f g : α → List Char → Reading β} (h : CarriesOver behind r s)
    (hf : ∀ value rest, r.outcome = .read value rest →
      CarriesOver behind (f value rest) (g value (rest ++ behind))) :
    CarriesOver behind (r.bind f) (s.bind g) := by
  rcases r with ⟨fs, ⟨value, rest⟩ | _ | _⟩
  · intro v t hv hclosed
    have hclosed₁ : ClosedBefore behind ⟨fs, .read value rest⟩ :=
      hclosed.imp_right fun hall f hmem => hall f (List.mem_append_left _ hmem)
    have hclosed₂ : (f value rest).ClosedBefore behind :=
      hclosed.imp_right fun hall f hmem => hall f (List.mem_append_right _ hmem)
    rw [h value rest rfl hclosed₁]
    simp only [Reading.bind] at hv ⊢
    rw [hf value rest rfl v t hv hclosed₂, List.map_append]
  · intro v t hv
    cases hv
  · intro v t hv
    cases hv

theorem map {f : α → β} (h : CarriesOver behind r s) :
    CarriesOver behind (r.map f) (s.map f) :=
  h.bind fun _ _ _ => .ok

end Reading.CarriesOver

/-! ## Every reader of a class -/

section Readers

variable {behind : List Char} (hb : Behind [',', ';'] behind) (text : List Char)
include hb

theorem identifierOf_behind : identifierOf (text ++ behind) = identifierOf text :=
  takeWhile_append_of_ends (hb.ends (fun _ => not_identifierChar_of_spacing) (by decide)) text

theorem afterIdentifier_behind :
    afterIdentifier (text ++ behind) = afterIdentifier text ++ behind :=
  dropWhile_append_of_ends (hb.ends (fun _ => not_identifierChar_of_spacing) (by decide)) text

omit hb in
/-- An open range takes in what is behind it, unless that begins with a semicolon. -/
theorem readRange_carriesOver :
    (readRange text).CarriesOver behind (readRange (text ++ behind)) := by
  by_cases h : ∃ rest, text.dropWhile isRangeInside = ')' :: rest
  · obtain ⟨rest, hrest⟩ := h
    have hextended : (text ++ behind).dropWhile isRangeInside = ')' :: (rest ++ behind) := by
      rw [dropWhile_append_of_stop hrest, hrest, List.cons_append]
    rw [readRange_of_closed hrest, readRange_of_closed hextended, takeWhile_append_of_stop hrest]
    split
    · exact .ok
    · exact .noting .ok
  · have hopen := not_exists.1 h
    intro v t hv hclosed
    rw [readRange_of_unclosed hopen] at hv hclosed ⊢
    rcases hclosed with ⟨u, rfl⟩ | hnone
    · have hdrop : (text ++ ';' :: u).dropWhile isRangeInside =
          text.dropWhile isRangeInside ++ ';' :: u :=
        dropWhile_append_of_ends (fun c more hc => by cases hc; rfl) text
      rw [readRange_of_unclosed (hdrop ▸ ne_cons_append hopen (by simp)), hdrop]
      cases hv
      rfl
    · exact absurd rfl (hnone _ List.mem_cons_self)

theorem readOptionalRange_carriesOver :
    (readOptionalRange text).CarriesOver behind (readOptionalRange (text ++ behind)) := by
  cases hskip : skipSpacing text with
  | nil =>
    have hs : Spacing text := List.dropWhile_eq_nil_iff.1 hskip
    rw [readOptionalRange_of_none (by simp [hskip]),
      readOptionalRange_of_behind (behind_append hs hb)]
    exact .ok
  | cons c more =>
    have hextended := skipSpacing_append_of_cons hskip behind
    by_cases hc : c = '('
    · subst hc
      rw [readOptionalRange_of_range hskip, readOptionalRange_of_range hextended]
      exact readRange_carriesOver ('(' :: more)
    · rw [readOptionalRange_of_none (by simp [hskip, hc]),
        readOptionalRange_of_none (by simp [hextended, hc])]
      exact .ok

theorem readMembers_carriesOver (opening inside : List Char) :
    (readMembers opening inside).CarriesOver behind
      (readMembers (opening ++ behind) (inside ++ behind)) := by
  have hclose : ∀ more, behind ≠ ']' :: more :=
    fun more hm => absurd (hb.head hm) (by decide)
  fun_induction readMembers opening inside with
  | case1 => exact .abandoned
  | case2 rest => exact .ok
  | case3 rest h =>
    rw [List.cons_append, readMembers_close (ne_cons_append h hclose)]
    exact .ok
  | case4 rest _ _ others ih =>
    rw [List.cons_append, readMembers_cons (by decide), if_pos rfl]
    exact .noting ih
  | case5 c rest _ hc others hdash hprint ih =>
    rw [List.cons_append, readMembers_cons hc, if_neg hdash, if_pos hprint]
    exact .map ih
  | case6 c rest _ hc others hdash hprint ih =>
    rw [List.cons_append, readMembers_cons hc, if_neg hdash, if_neg hprint]
    exact .noting ih

theorem readBrackets_carriesOver (opening inside : List Char) :
    (readBrackets opening inside).CarriesOver behind
      (readBrackets (opening ++ behind) (inside ++ behind)) := by
  cases inside with
  | nil => exact .abandoned
  | cons c inside =>
    by_cases hc : c = '-'
    · subst hc
      exact .map (readMembers_carriesOver hb opening inside)
    · rw [List.cons_append, readBrackets, readBrackets]
      · exact readMembers_carriesOver hb opening (c :: inside)
      · exact fun _ h => hc (List.head_eq_of_cons_eq h)
      · exact fun _ h => hc (List.head_eq_of_cons_eq h)

theorem readCustomClass_carriesOver :
    (readCustomClass text).CarriesOver behind (readCustomClass (text ++ behind)) := by
  cases text with
  | nil => exact .abandoned
  | cons c more =>
    refine .bind (readBrackets_carriesOver hb (c :: more) more) fun cs rest _ => ?_
    refine .bind (readOptionalRange_carriesOver hb rest) fun range rest _ => ?_
    split
    · exact .noting .ok
    · exact .ok

theorem readNamedClass_carriesOver :
    (readNamedClass text).CarriesOver behind (readNamedClass (text ++ behind)) := by
  rw [readNamedClass, readNamedClass, afterIdentifier_behind hb, identifierOf_behind hb]
  refine .bind (readOptionalRange_carriesOver hb _) fun range rest _ => ?_
  split
  · exact .ok
  · exact .noting .ok

theorem readClass_carriesOver :
    (readClass text).CarriesOver behind (readClass (text ++ behind)) := by
  cases text with
  | nil => exact .abandoned
  | cons c more =>
    dsimp only [readClass, List.cons_append, List.head?_cons]
    split
    · exact readNamedClass_carriesOver hb (c :: more)
    · split
      · exact readCustomClass_carriesOver hb (c :: more)
      · exact .abandoned

end Readers

end PasswordPolicy
