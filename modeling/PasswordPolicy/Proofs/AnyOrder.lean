import PasswordPolicy.Proofs.Absorption
import PasswordPolicy.Proofs.Conservation

/-!
# Allowed lists in any order

The order in which classes are allowed decides in which order their canonical form states them, and
nothing else: a pool holds what its classes hold together, and each class with a range remains or is
dropped whatever comes before it. Only of several ranges on one basic class the first of the widest
is stated, so two that are equally wide have to be the same. They are if no range has a least
number, as is the case once an allowed list has been collected.

Main result: the canonical forms of an allowed list in any two orders are the same classes
(`canonical_allowed_perm`).
-/

namespace PasswordPolicy

open Text

/-- No range asks for a character. -/
def WithoutMinimums (classes : List CharClass) : Prop :=
  ∀ c ∈ classes, ∀ r, c.range = some r → r.least = 0

instance (classes : List CharClass) : Decidable (WithoutMinimums classes) :=
  decidable_of_iff (∀ c ∈ classes, c.range.all (·.least = 0) = true)
    (by simp [WithoutMinimums, Option.all_eq_true])

theorem covers_perm {xs ys : List CharClass} (h : xs.Perm ys) : covers xs = covers ys :=
  funext fun _ => h.any_eq

namespace Pool

variable {pool : Pool} {bracketed : Bool} {xs ys : List CharClass}

theorem ofClasses_perm (role : Role) (h : xs.Perm ys) : ofClasses role xs = ofClasses role ys := by
  rw [ofClasses, ofClasses, covers_perm (h.filter _)]

/-! ## The widest range -/

theorem widest_eq_none_iff {ranges : List CountRange} : widest ranges = none ↔ ranges = [] := by
  cases ranges with
  | nil => exact iff_of_true rfl rfl
  | cons r ranges => exact iff_of_false (by simp [widest]) (List.cons_ne_nil _ _)

/-- Without least numbers, ranges that are equally wide are the same, so their order is nothing to
the widest of them. -/
theorem widest_perm {ranges others : List CountRange} (h : ranges.Perm others)
    (hleast : ∀ r ∈ ranges, r.least = 0) : widest ranges = widest others := by
  cases hr : widest ranges with
  | none =>
    rw [widest_eq_none_iff] at hr
    subst hr
    exact (widest_eq_none_iff.2 h.nil_eq.symm).symm
  | some r =>
    cases hs : widest others with
    | none =>
      rw [widest_eq_none_iff] at hs
      subst hs
      obtain rfl := h.eq_nil
      cases hr
    | some s =>
      have hrmem := mem_of_widest hr
      have hsmem := h.mem_iff.2 (mem_of_widest hs)
      have hmost : r.most = s.most :=
        UInt32.le_antisymm (most_le_of_widest hs (h.mem_iff.1 hrmem)) (most_le_of_widest hr hsmem)
      have hsame : r.least = s.least := (hleast r hrmem).trans (hleast s hsmem).symm
      obtain ⟨least, most⟩ := r
      obtain rfl : least = s.least := hsame
      obtain rfl : most = s.most := hmost
      rfl

/-! ## Named classes -/

theorem rangeOf_perm (hrole : pool.role = .allowed) (h : xs.Perm ys) (hleast : WithoutMinimums xs)
    (b : BasicClass) : pool.rangeOf xs b = pool.rangeOf ys b := by
  unfold rangeOf
  rw [hrole]
  refine widest_perm ((h.filter _).filterMap _) fun r hr => ?_
  obtain ⟨c, hc, hcr⟩ := List.mem_filterMap.1 hr
  exact hleast c (List.mem_filter.1 hc).1 r hcr

theorem namedClass_perm (hrole : pool.role = .allowed) (h : xs.Perm ys)
    (hleast : WithoutMinimums xs) (b : BasicClass) :
    pool.namedClass xs b = pool.namedClass ys b := by
  cases hcomplete : pool.isComplete b with
  | true => rw [namedClass_of_allowed hrole hcomplete, namedClass_of_allowed hrole hcomplete]
  | false =>
    simp only [namedClass, hcomplete, Bool.false_eq_true, if_false, rangeOf_perm hrole h hleast b]

theorem namedClasses_perm (hrole : pool.role = .allowed) (h : xs.Perm ys)
    (hleast : WithoutMinimums xs) : (pool.namedClasses xs).Perm (pool.namedClasses ys) := by
  have hsame : pool.namedClass? xs = pool.namedClass? ys := by
    funext b
    rw [namedClass?, namedClass?, namedClass_perm hrole h hleast b]
    exact if_congr (h.flatMap_right pool.namesFrom).mem_iff rfl rfl
  refine (perm_namedClasses pool xs).trans ?_
  rw [hsame]
  exact (perm_namedClasses pool ys).symm

/-! ## Custom classes -/

/-- The leftovers, once, and every class with a range that remains. -/
theorem perm_customClassesAfter (hrole : pool.role = .allowed) (before classes : List CharClass) :
    (pool.customClassesAfter bracketed before classes).Perm
      ((if classes.any pool.holdsLeftovers && !before.any pool.holdsLeftovers then
          [.custom (arrange bracketed pool.leftovers)]
        else []) ++ (classes.filter (pool.remains [])).map (kept bracketed)) := by
  induction classes generalizing before with
  | nil => exact List.Perm.refl _
  | cons c classes ih =>
    have ih := ih (c :: before)
    by_cases hremains : pool.remains before c = true
    · have hholds : pool.holdsLeftovers c = false := by
        simp [holdsLeftovers, isFree_eq_false_of_remains hremains]
      rw [List.any_cons, hholds, Bool.false_or] at ih
      rw [customClassesAfter_of_remains hremains, List.any_cons, hholds, Bool.false_or,
        List.filter_cons_of_pos (remains_of_allowed hrole before c ▸ hremains), List.map_cons]
      exact (ih.cons _).trans List.perm_middle.symm
    · have hdropped : ¬pool.remains [] c = true := remains_of_allowed hrole before c ▸ hremains
      rw [customClassesAfter, if_neg hremains, List.filter_cons_of_neg hdropped]
      refine (ih.append_left _).trans (List.Perm.of_eq ?_)
      rw [← List.append_assoc]
      congr 1
      cases hholds : pool.holdsLeftovers c <;> cases hbefore : before.any pool.holdsLeftovers <;>
        simp [hholds, hbefore]

theorem customClasses_perm (hrole : pool.role = .allowed) (h : xs.Perm ys) :
    (pool.customClasses bracketed xs).Perm (pool.customClasses bracketed ys) := by
  refine (perm_customClassesAfter hrole [] xs).trans ?_
  rw [h.any_eq]
  refine List.Perm.trans ?_ (perm_customClassesAfter hrole [] ys).symm
  exact ((h.filter _).map _).append_left _

end Pool

/-! ## Allowed lists -/

section Orders

variable {bracketed : Bool} {xs ys : List CharClass}

theorem regrouped_allowed_perm (h : xs.Perm ys) (hleast : WithoutMinimums xs) :
    (regrouped .allowed bracketed xs).Perm (regrouped .allowed bracketed ys) := by
  rw [regrouped, regrouped, ← Pool.ofClasses_perm .allowed h]
  exact (Pool.namedClasses_perm rfl h hleast).append (Pool.customClasses_perm rfl h)

/-- **The order of an allowed list does not matter** to what its canonical form states: without
universal classes and least numbers, any two orders lead to the same classes, with the same members
in the same order and the same ranges. -/
theorem canonical_allowed_perm (bracketed : Bool) (xs ys : List CharClass) (h : xs.Perm ys)
    (hu : ∀ c ∈ xs, c.isUniversal = false) (hleast : WithoutMinimums xs) :
    (canonical .allowed bracketed xs).Perm (canonical .allowed bracketed ys) := by
  have hnone := universal?_eq_none_iff.2 hu
  have hnone' : universal? ys = none :=
    universal?_eq_none_iff.2 fun c hc => hu c (h.mem_iff.2 hc)
  have hpool := Pool.ofClasses_perm .allowed h
  by_cases hall : BasicClass.all.all (Pool.ofClasses .allowed xs).isComplete = true
  · have hsame : canonical .allowed bracketed xs = canonical .allowed bracketed ys := by
      simp [canonical, hnone, hnone', ← hpool, hall]
    exact List.Perm.of_eq hsame
  · have hx : Ordinary .allowed xs := ⟨hnone, fun hr => absurd hr (by decide), hall⟩
    have hy : Ordinary .allowed ys := ⟨hnone', fun hr => absurd hr (by decide), hpool ▸ hall⟩
    rw [hx.canonical_eq, hy.canonical_eq]
    exact regrouped_allowed_perm h hleast

/-- Caps on the digits, by name and spelled out, and on letters of which one is allowed anyway. -/
def shuffledClasses : List CharClass :=
  [⟨.named (.basic .digit), some ⟨0, 3⟩⟩, ⟨.custom ['a', 'B'], some ⟨0, 2⟩⟩, .custom ['!', 'z'],
    ⟨.custom "9876543210".toList, some ⟨0, 5⟩⟩, .basic .upper]

theorem shuffledClasses_reversed :
    shuffledClasses.Perm shuffledClasses.reverse ∧
      (∀ c ∈ shuffledClasses, c.isUniversal = false) ∧ WithoutMinimums shuffledClasses ∧
      canonical .allowed false shuffledClasses =
        [⟨.named (.basic .digit), some ⟨0, 5⟩⟩, .basic .upper, ⟨.custom ['B', 'a'], some ⟨0, 2⟩⟩,
          .custom ['z', '!']] ∧
      canonical .allowed false shuffledClasses.reverse =
        [.basic .upper, ⟨.named (.basic .digit), some ⟨0, 5⟩⟩, .custom ['z', '!'],
          ⟨.custom ['B', 'a'], some ⟨0, 2⟩⟩] ∧
      (canonical .allowed false shuffledClasses).Perm
        (canonical .allowed false shuffledClasses.reverse) :=
  have hperm : shuffledClasses.Perm shuffledClasses.reverse := (List.reverse_perm _).symm
  ⟨hperm, by decide, by decide, by decide, by decide,
    canonical_allowed_perm false _ _ hperm (by decide) (by decide)⟩

end Orders

end PasswordPolicy
