import PasswordPolicy.Reading.Document

/-!
# Readings without findings

**A clean reading** is `Reading.ok`: a value, what is left to read, and nothing to report. Clean
readings compose (`ok_bind`), and a composition is clean only if its parts are (`bind_eq_ok`).

**Nothing goes unsaid.** A reading that did not go on has a finding that says why (`Accounted`). So
a reading without findings is a clean one, for every reader of the rule language.
-/

namespace PasswordPolicy

open Text

variable {α β : Type}

namespace Reading

variable {r : Reading α} {a : α} {b : β} {rest tail : List Char} {problem : Problem}

/-! ## Composing clean readings -/

@[simp] theorem ok_bind (a : α) (rest : List Char) (f : α → List Char → Reading β) :
    (ok a rest).bind f = f a rest := by
  simp [ok, bind]

@[simp] theorem ok_map (a : α) (rest : List Char) (f : α → β) :
    (ok a rest).map f = ok (f a) rest :=
  ok_bind a rest _

@[simp] theorem noting_ne_ok : r.noting problem tail ≠ ok a rest := by
  simp [noting, ok]

@[simp] theorem stopped_ne_ok : (stopped problem tail : Reading α) ≠ ok a rest := by
  simp [stopped, ok]

@[simp] theorem abandoned_ne_ok : (abandoned problem tail : Reading α) ≠ ok a rest := by
  simp [abandoned, ok]

@[simp] theorem ok_inj {a' : α} {rest' : List Char} :
    ok a rest = ok a' rest' ↔ a = a' ∧ rest = rest' := by
  simp [ok]

theorem bind_eq_ok {f : α → List Char → Reading β} (h : r.bind f = ok b rest) :
    ∃ a mid, r = ok a mid ∧ f a mid = ok b rest := by
  rcases r with ⟨fs, ⟨a, mid⟩ | _ | _⟩
  · simp only [bind, ok, mk.injEq, List.append_eq_nil_iff] at h
    obtain ⟨⟨rfl, hf⟩, ho⟩ := h
    refine ⟨a, mid, rfl, ?_⟩
    rw [ok, ← hf, ← ho]
  · simp [bind, ok] at h
  · simp [bind, ok] at h

theorem map_eq_ok {f : α → β} (h : r.map f = ok b rest) :
    ∃ a, r = ok a rest ∧ f a = b := by
  obtain ⟨a, mid, hr, hf⟩ := bind_eq_ok h
  obtain ⟨rfl, rfl⟩ := ok_inj.1 hf
  exact ⟨a, hr, rfl⟩

/-! ## Nothing goes unsaid -/

/-- Without findings the reading went on. -/
def Accounted (r : Reading α) : Prop :=
  r.findings = [] → ∃ a rest, r = ok a rest

namespace Accounted

theorem ok : (Reading.ok a rest).Accounted :=
  fun _ => ⟨a, rest, rfl⟩

theorem stopped : (Reading.stopped problem tail : Reading α).Accounted := by
  simp [Accounted, Reading.stopped]

theorem abandoned : (Reading.abandoned problem tail : Reading α).Accounted := by
  simp [Accounted, Reading.abandoned]

theorem noting : (r.noting problem tail).Accounted := by
  simp [Accounted, Reading.noting]

theorem bind {f : α → List Char → Reading β} (hr : r.Accounted)
    (hf : ∀ a rest, r.outcome = .read a rest → (f a rest).Accounted) : (r.bind f).Accounted := by
  intro h
  have hfs : r.findings = [] := by
    rcases r with ⟨fs, ⟨a, mid⟩ | _ | _⟩
    · exact (List.append_eq_nil_iff.1 h).1
    · exact h
    · exact h
  obtain ⟨a, rest, rfl⟩ := hr hfs
  rw [ok_bind] at h ⊢
  exact hf a rest rfl h

theorem map {f : α → β} (hr : r.Accounted) : (r.map f).Accounted :=
  hr.bind fun _ _ _ => .ok

end Accounted

end Reading

/-! ## Every reader -/

theorem readRange_accounted (text : List Char) : (readRange text).Accounted := by
  unfold readRange
  split
  · split
    · exact .ok
    · exact .noting
  · exact .noting

theorem readOptionalRange_accounted (text : List Char) : (readOptionalRange text).Accounted := by
  unfold readOptionalRange
  split
  · exact readRange_accounted _
  · exact .ok

theorem readMembers_accounted (opening inside : List Char) :
    (readMembers opening inside).Accounted := by
  fun_induction readMembers opening inside with
  | case1 => exact .abandoned
  | case2 rest => exact .ok
  | case3 rest => exact .ok
  | case4 rest _ _ _ ih => exact .noting
  | case5 c rest _ _ _ _ _ ih => exact .map ih
  | case6 c rest _ _ _ _ _ ih => exact .noting

theorem readBrackets_accounted (opening inside : List Char) :
    (readBrackets opening inside).Accounted := by
  unfold readBrackets
  split
  · exact .map (readMembers_accounted _ _)
  · exact readMembers_accounted _ _

theorem readClass_accounted (text : List Char) : (readClass text).Accounted := by
  unfold readClass
  split
  · exact .abandoned
  · split
    · refine .bind (readOptionalRange_accounted _) fun range rest _ => ?_
      split
      · exact .ok
      · exact .noting
    · split
      · refine .bind (readBrackets_accounted _ _) fun cs rest _ => ?_
        refine .bind (readOptionalRange_accounted _) fun range rest _ => ?_
        split
        · exact .noting
        · exact .ok
      · exact .abandoned

theorem readClassList_accounted (text : List Char) : (readClassList text).Accounted := by
  induction text using separator_induction with
  | step text ih =>
    rw [readClassList_eq]
    refine .bind (readClass_accounted text) fun found rest ho => ?_
    split
    · exact .ok
    · next c more hm =>
      split
      · exact .ok
      · split
        · exact .map (ih rest c more ((readClass_within text).rest _ _ ho) hm)
        · exact .abandoned

theorem readNumber_accounted (text : List Char) : (readNumber text).Accounted := by
  dsimp only [readNumber]
  split
  · split
    · exact .ok
    · exact .noting
  · exact .noting

theorem readBlocklist_accounted (words : List String) (text : List Char) :
    (readBlocklist words text).Accounted := by
  dsimp only [readBlocklist]
  split
  · exact .abandoned
  · split
    · exact .ok
    · split
      · exact .ok
      · exact .noting

theorem readValue_accounted (words : List String) (name : RuleName) (text : List Char) :
    (readValue words name text).Accounted := by
  cases name with
  | classes role => exact .map (readClassList_accounted text)
  | limit l => exact .map (readNumber_accounted text)
  | blocklist => exact .map (readBlocklist_accounted words text)

theorem readRule_accounted (words : List String) (text : List Char) :
    (readRule words text).Accounted := by
  dsimp only [readRule]
  split
  · exact .stopped
  · split
    · exact .stopped
    · split
      · split
        · exact .noting
        · exact readValue_accounted words _ _
      · exact .stopped

end PasswordPolicy
