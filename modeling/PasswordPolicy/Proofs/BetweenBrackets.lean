import Mathlib.Data.List.Basic
import PasswordPolicy.Reading.ClassList

/-!
# Every character between brackets

**Kept or dropped.** A character between brackets is kept if it is printable, and a dash only in the
first place (`isKept`). Every other character is dropped with a warning at its place.

**The first closing bracket** ends the class, whatever stands in front of it; a second one right
behind it is a member. Without a closing bracket there is no class, and the document is abandoned at
the opening bracket.

Main result: `readBrackets_accounts`, what becomes of every character behind an opening bracket.
-/

namespace PasswordPolicy

open Text

variable {α β : Type}

/-! ## Outcomes of values that are changed -/

def Outcome.map (f : α → β) : Outcome α → Outcome β
  | read value rest => read (f value) rest
  | stop => stop
  | abandon => abandon

theorem Reading.map_eq (f : α → β) (r : Reading α) : r.map f = ⟨r.findings, r.outcome.map f⟩ := by
  rcases r with ⟨fs, ⟨value, rest⟩ | _ | _⟩
  · simp [Reading.map, Reading.bind, Reading.ok, Outcome.map]
  · rfl
  · rfl

theorem Outcome.map_append (front : List α) (values : List α) (o : Outcome (List α)) :
    (o.map (values ++ ·)).map (front ++ ·) = o.map (front ++ values ++ ·) := by
  cases o with
  | read value rest => simp [Outcome.map]
  | stop => rfl
  | abandon => rfl

theorem Outcome.map_nil_append (o : Outcome (List α)) : o.map ([] ++ ·) = o := by
  cases o <;> rfl

/-! ## What is kept and what is dropped -/

/-- Whether a character counts in its place between brackets, the first of which is zero. -/
def isKept (place : Nat) (c : Char) : Bool :=
  isPrintable c && (c != '-' || place == 0)

/-- The characters that are kept if they stand from the place `start` on. -/
def keptFrom (start : Nat) (between : List Char) : List Char :=
  (between.zipIdx start).filterMap fun (c, place) => if isKept place c then some c else none

/-- What is wrong with a character that is dropped. -/
def dropReason (c : Char) : Problem :=
  if c = '-' then .misplacedDash else .nonPrintable c

/-- A diagnostic at the place behind the text. -/
def diagnosticBehind (before : List Char) (severity : Severity) (problem : Problem) : Diagnostic :=
  ⟨byteLength before, lineAfter before, columnAfter before, severity, problem⟩

/-- A warning for each character that is dropped, at its place. The text `opened` ends with the
opening bracket, and the characters `skipped` stand between it and the others. -/
def dropsFrom (opened skipped between : List Char) : List Diagnostic :=
  (between.zipIdx skipped.length).filterMap fun (c, place) =>
    if isKept place c then none
    else some (diagnosticBehind (opened ++ (skipped ++ between).take place) .warning (dropReason c))

theorem keptFrom_cons (start : Nat) (c : Char) (between : List Char) :
    keptFrom start (c :: between) =
      (if isKept start c then [c] else []) ++ keptFrom (start + 1) between := by
  rw [keptFrom, List.zipIdx_cons, List.filterMap_cons]
  by_cases hc : isKept start c = true <;> simp [hc, keptFrom]

theorem dropsFrom_cons (opened skipped : List Char) (c : Char) (between : List Char) :
    dropsFrom opened skipped (c :: between) =
      (if isKept skipped.length c then []
        else [diagnosticBehind (opened ++ skipped) .warning (dropReason c)]) ++
        dropsFrom opened (skipped ++ [c]) between := by
  have htake : (skipped ++ c :: between).take skipped.length = skipped := by simp
  have hsplit : skipped ++ c :: between = skipped ++ [c] ++ between := by simp
  have hlength : skipped.length + 1 = (skipped ++ [c]).length := by simp
  rw [dropsFrom, List.zipIdx_cons, List.filterMap_cons, dropsFrom, ← hlength, ← hsplit]
  by_cases hc : isKept skipped.length c = true
  · simp only [if_pos hc, List.nil_append]
  · simp only [if_neg hc, htake, List.singleton_append]

theorem Finding.locate_at_tail (before : List Char) (f : Finding) :
    f.locate (before ++ f.tail) = diagnosticBehind before f.problem.severity f.problem := by
  simp [Finding.locate, diagnosticBehind]

theorem severity_dropReason (c : Char) : (dropReason c).severity = .warning := by
  unfold dropReason
  split <;> rfl

/-! ## Up to the first closing bracket -/

/-- One character between brackets, unless it is a dash in the first place. -/
theorem readMembers_step {place : Nat} {c : Char} (hc : c ≠ ']') (hfirst : place = 0 → c ≠ '-')
    (opening rest : List Char) : readMembers opening (c :: rest) =
      if isKept place c then (readMembers opening rest).map (c :: ·)
      else (readMembers opening rest).noting (dropReason c) (c :: rest) := by
  rw [readMembers_cons hc]
  by_cases hdash : c = '-'
  · have hkept : isKept place c = false := by
      have hplace : place ≠ 0 := fun h => hfirst h hdash
      simp [isKept, hdash, hplace]
    rw [hkept, dropReason, if_pos hdash, if_pos hdash]
    rfl
  · have hkept : isKept place c = isPrintable c := by simp [isKept, hdash]
    rw [hkept, dropReason, if_neg hdash, if_neg hdash]

/-- In front of a closing bracket, or of the end of the text, the characters are kept or dropped one
by one, as long as the first of them all is no dash. -/
theorem readMembers_between {opening rest : List Char} (opened : List Char)
    {skipped between : List Char} (hb : ']' ∉ between)
    (hfirst : skipped = [] → between.head? ≠ some '-') :
    (readMembers opening (between ++ rest)).outcome =
        (readMembers opening rest).outcome.map (keptFrom skipped.length between ++ ·) ∧
      (readMembers opening (between ++ rest)).findings.map
          (·.locate (opened ++ skipped ++ (between ++ rest))) =
        dropsFrom opened skipped between ++ (readMembers opening rest).findings.map
          (·.locate (opened ++ skipped ++ (between ++ rest))) := by
  induction between generalizing skipped with
  | nil => exact ⟨(Outcome.map_nil_append _).symm, rfl⟩
  | cons c between ih =>
    have hc : c ≠ ']' := fun heq => hb (heq ▸ List.mem_cons_self)
    have hplace : skipped.length = 0 → c ≠ '-' := fun hlength heq =>
      hfirst (List.length_eq_zero_iff.1 hlength) (congrArg some heq)
    have hmore := @ih (skipped ++ [c]) (List.not_mem_of_not_mem_cons hb) (by simp)
    have hsplit : opened ++ (skipped ++ [c]) ++ (between ++ rest) =
        opened ++ skipped ++ c :: (between ++ rest) := by simp
    rw [hsplit, List.length_append, List.length_singleton] at hmore
    obtain ⟨houtcome, hfindings⟩ := hmore
    rw [keptFrom_cons, dropsFrom_cons, List.cons_append, readMembers_step hc hplace]
    by_cases hkept : isKept skipped.length c = true
    · simp only [if_pos hkept, Reading.map_eq]
      refine ⟨?_, hfindings⟩
      rw [houtcome]
      exact Outcome.map_append [c] _ _
    · simp only [if_neg hkept, Reading.noting]
      have hplaced :=
        Finding.locate_at_tail (opened ++ skipped) ⟨dropReason c, c :: (between ++ rest)⟩
      rw [severity_dropReason] at hplaced
      refine ⟨houtcome, ?_⟩
      rw [List.map_cons, hfindings, hplaced]
      rfl

theorem readBrackets_of_head {inside : List Char} (h : inside.head? ≠ some '-')
    (opening : List Char) : readBrackets opening inside = readMembers opening inside := by
  rw [readBrackets]
  rintro rest rfl
  exact h rfl

/-- The same from the first place on, where a dash is kept. -/
theorem readBrackets_between {opening rest : List Char} (opened : List Char) {between : List Char}
    (hb : ']' ∉ between) (hrest : rest.head? ≠ some '-') :
    (readBrackets opening (between ++ rest)).outcome =
        (readMembers opening rest).outcome.map (keptFrom 0 between ++ ·) ∧
      (readBrackets opening (between ++ rest)).findings.map
          (·.locate (opened ++ (between ++ rest))) =
        dropsFrom opened [] between ++ (readMembers opening rest).findings.map
          (·.locate (opened ++ (between ++ rest))) := by
  by_cases hdash : between.head? = some '-'
  · obtain ⟨between, rfl⟩ := List.head?_eq_some_iff.1 hdash
    have hkept : isKept 0 '-' = true := rfl
    have hmore := @readMembers_between opening rest opened ['-'] between
      (List.not_mem_of_not_mem_cons hb) (by simp)
    rw [List.append_assoc, List.singleton_append] at hmore
    obtain ⟨houtcome, hfindings⟩ := hmore
    rw [keptFrom_cons, dropsFrom_cons, List.cons_append, readBrackets, Reading.map_eq]
    simp only [List.length_nil, if_pos hkept]
    refine ⟨?_, hfindings⟩
    rw [houtcome]
    exact Outcome.map_append ['-'] _ _
  · have hhead : (between ++ rest).head? ≠ some '-' := by
      cases between with
      | nil => exact hrest
      | cons c between => exact hdash
    have hall := @readMembers_between opening rest opened [] between hb fun _ => hdash
    rw [List.append_nil] at hall
    rw [readBrackets_of_head hhead]
    exact hall

/-- **Every character between brackets is accounted for.** Behind an opening bracket, the characters
up to the first closing bracket are kept in order, or dropped with a warning at the place of each. A
second closing bracket right behind the first is kept as well, and reading goes on behind. If there
is no closing bracket, the characters are reported just the same, and the document is abandoned with
an error at the opening bracket. The text `before` stands in front of that. -/
theorem readBrackets_accounts (before inside : List Char) :
    (']' ∉ inside ∧ (readBrackets ('[' :: inside) inside).outcome = .abandon ∧
      (readBrackets ('[' :: inside) inside).findings.map (·.locate (before ++ '[' :: inside)) =
        dropsFrom (before ++ ['[']) [] inside ++
          [diagnosticBehind before .error .unterminatedCustomClass]) ∨
    ∃ between after, inside = between ++ ']' :: after ∧ ']' ∉ between ∧
      (readBrackets ('[' :: inside) inside).findings.map (·.locate (before ++ '[' :: inside)) =
        dropsFrom (before ++ ['[']) [] between ∧
      ((∃ rest, after = ']' :: rest ∧
          (readBrackets ('[' :: inside) inside).outcome =
            .read (keptFrom 0 between ++ [']']) rest) ∨
        (after.head? ≠ some ']' ∧
          (readBrackets ('[' :: inside) inside).outcome = .read (keptFrom 0 between) after)) := by
  have htext : before ++ '[' :: inside = before ++ ['['] ++ inside := by simp
  by_cases hb : ']' ∈ inside
  · obtain ⟨between, after, hinside, hbetween⟩ := List.eq_append_cons_of_mem hb
    have hbrackets := @readBrackets_between ('[' :: inside) (']' :: after) (before ++ ['['])
      between hbetween (by simp)
    rw [← hinside, ← htext] at hbrackets
    refine .inr ⟨between, after, hinside, hbetween, ?_⟩
    by_cases hafter : after.head? = some ']'
    · obtain ⟨rest, rfl⟩ := List.head?_eq_some_iff.1 hafter
      have hclose : readMembers ('[' :: inside) (']' :: ']' :: rest) = ⟨[], .read [']'] rest⟩ := rfl
      rw [hclose, List.map_nil, List.append_nil] at hbrackets
      exact ⟨hbrackets.2, .inl ⟨rest, rfl, hbrackets.1⟩⟩
    · have hclose : readMembers ('[' :: inside) (']' :: after) = ⟨[], .read [] after⟩ :=
        readMembers_close fun more hmore => hafter (by rw [hmore]; rfl)
      rw [hclose, List.map_nil, List.append_nil, Outcome.map, List.append_nil] at hbrackets
      exact ⟨hbrackets.2, .inr ⟨hafter, hbrackets.1⟩⟩
  · have hbrackets := @readBrackets_between ('[' :: inside) [] (before ++ ['[']) inside hb (by simp)
    rw [List.append_nil, ← htext] at hbrackets
    have hplaced := Finding.locate_at_tail before ⟨.unterminatedCustomClass, '[' :: inside⟩
    refine .inl ⟨hb, hbrackets.1, ?_⟩
    rw [hbrackets.2]
    exact congrArg (dropsFrom (before ++ ['[']) [] inside ++ [·]) hplaced

example : (readBrackets "[-a-é]]x".toList "-a-é]]x".toList).outcome =
    .read ['-', 'a', ']'] ['x'] := by
  rfl

end PasswordPolicy
