import PasswordPolicy.Proofs.Reconciliation
import PasswordPolicy.Proofs.WritablePolicy

/-!
# Required lists of a policy that is read again

The required lists of a merged policy are read again as they were written, and are brought into
canonical form a second time. A list that does not clash comes through unchanged (`demand_again`),
one that clashes does not (`demand_again_ne`). Lists without a range never clash, so what a conflict
leaves always comes through (`demand_remedy`).
-/

namespace PasswordPolicy

open Text

/-! ## Raising minimums -/

/-- The range with a least number of one at least. -/
def raised (r : CountRange) : CountRange :=
  if r.least < 1 then { r with least := 1 } else r

theorem most_raised (r : CountRange) : (raised r).most = r.most := by
  unfold raised
  split
  · rfl
  · rfl

theorem raised_raised (r : CountRange) : raised (raised r) = raised r := by
  unfold raised
  by_cases h : r.least < 1
  · rw [if_pos h]
    rfl
  · rw [if_neg h, if_neg h]

namespace CharClass

theorem atLeastOne_atLeastOne (c : CharClass) : c.atLeastOne.atLeastOne = c.atLeastOne := by
  show mapRange raised (mapRange raised c) = mapRange raised c
  unfold mapRange withRange
  rw [Option.map_map]
  congr 2
  funext r
  exact raised_raised r

theorem atLeastOne_of_range {c : CharClass} (h : c.range = none) : c.atLeastOne = c := by
  rw [atLeastOne, h, Option.map_none, withRange, ← h]

theorem range_atLeastOne_eq_none {c : CharClass} : c.atLeastOne.range = none ↔ c.range = none :=
  Option.map_eq_none_iff

end CharClass

/-! ## Required lists -/

section Demand

variable {minified : Bool} {classes : List CharClass}

theorem map_atLeastOne_twice (classes : List CharClass) :
    (classes.map (·.atLeastOne)).map (·.atLeastOne) = classes.map (·.atLeastOne) := by
  rw [List.map_map]
  exact List.map_congr_left fun c _ => c.atLeastOne_atLeastOne

theorem written_demand :
    (demand minified classes).map CharClass.written =
      (canonical .required minified classes).map (CharClass.rewritten raised) := by
  rw [demand, List.map_map]
  rfl

/-- Where a list is taken apart, so is its canonical form when it is read again. -/
theorem Ordinary.demand_again (h : Ordinary .required classes) :
    demand minified ((demand minified classes).map CharClass.written) =
      (regrouped .required minified (regrouped .required minified classes)).map (·.atLeastOne) := by
  rw [written_demand, h.canonical_eq, demand,
    (ordinary_rewritten_iff.2 h.required_again).canonical_eq,
    regrouped_rewritten most_raised]
  exact map_atLeastOne_twice _

/-- **A required list that does not clash settles**, unless it is kept as it is and is written
otherwise. -/
theorem demand_again (hp : PrintableOnly classes) (hclash : ¬Clashing classes)
    (hkept : classes.map CharClass.written = classes ∨ anyRange classes = false) :
    demand minified ((demand minified classes).map CharClass.written) =
      demand minified classes := by
  rcases canonical_cases .required minified classes with
    ⟨c, hu, hcanonical⟩ | ⟨hu, ⟨-, hall, hrange, hcanonical⟩ | ⟨-, hcanonical⟩⟩ | h
  · have hagain : universal? [c.rewritten raised] = some (c.mapRange raised) := by
      have hself : universal? [c] = some c := universal?_singleton (mem_of_universal? hu).2
      have hmap := universal?_rewritten (f := raised) [c]
      rw [hself] at hmap
      exact hmap
    rw [written_demand, hcanonical, List.map_singleton, demand, canonical_of_universal hagain,
      demand, hcanonical]
    exact map_atLeastOne_twice [c]
  · have hwritten : classes.map CharClass.written = classes :=
      hkept.resolve_right (by simp [hrange])
    have hrewritten : classes.map (CharClass.rewritten raised) = classes.map (·.atLeastOne) :=
      calc classes.map (CharClass.rewritten raised)
        _ = (classes.map CharClass.written).map (·.atLeastOne) := by
          rw [List.map_map]
          rfl
        _ = classes.map (·.atLeastOne) := by rw [hwritten]
    have hagain : canonical .required minified (classes.map (CharClass.rewritten raised)) =
        if anyRange (classes.map (CharClass.rewritten raised)) then
          classes.map (CharClass.rewritten raised) else [.named .asciiPrintable] :=
      canonical_of_covering minified (by rw [universal?_rewritten, hu]; rfl)
        (by rw [covers_rewritten]; exact hall)
    rw [anyRange_rewritten, if_pos hrange] at hagain
    rw [written_demand, hcanonical, demand, hagain, demand, hcanonical, hrewritten]
    exact map_atLeastOne_twice classes
  · rw [written_demand, hcanonical, demand, demand, hcanonical]
    rfl
  · rw [h.demand_again, regrouped_required_again h hp hclash, demand, h.canonical_eq]

/-- **A required list that clashes does not settle.** -/
theorem demand_again_ne (h : Clashing classes) :
    demand minified ((demand minified classes).map CharClass.written) ≠
      demand minified classes := by
  intro heq
  rw [h.1.demand_again, demand, h.1.canonical_eq] at heq
  obtain ⟨c, hc, hrange, hlost⟩ := exists_lost_of_clashing minified h
  -- A class without a range is not changed by raising minimums, neither before nor after.
  have hmem : c ∈ (regrouped .required minified classes).map (·.atLeastOne) :=
    List.mem_map.2 ⟨c, hc, CharClass.atLeastOne_of_range hrange⟩
  rw [← heq] at hmem
  obtain ⟨d, hd, hdc⟩ := List.mem_map.1 hmem
  have hdrange : d.range = none := by
    rw [← CharClass.range_atLeastOne_eq_none, hdc]
    exact hrange
  rw [CharClass.atLeastOne_of_range hdrange] at hdc
  exact hlost (hdc ▸ hd)

theorem exists_range_demand_of_clashing (minified : Bool) (h : Clashing classes) :
    ∃ c ∈ demand minified classes, c.range ≠ none := by
  obtain ⟨c, hc, hrange⟩ := exists_range_of_clashing minified h
  refine ⟨c.atLeastOne, List.mem_map.2 ⟨c, h.1.canonical_eq ▸ hc, rfl⟩, fun hnone => ?_⟩
  exact hrange (CharClass.range_atLeastOne_eq_none.1 hnone)

/-! ## What a conflict leaves -/

theorem not_clashing_of_range (h : ∀ c ∈ classes, c.range = none) : ¬Clashing classes := by
  rintro ⟨-, c, hc, b, hranged, -⟩
  exact CharClass.range_ne_none (Pool.rangedBasic?_eq_some_iff.1 hranged).1 (h c hc)

/-- What is left of a required list when ranges are given up settles. -/
theorem demand_remedy (remedy : Remedy) (hw : ∀ c ∈ classes, c.Writable) :
    demand minified ((remedy.apply minified classes).map CharClass.written) =
      remedy.apply minified classes := by
  cases remedy with
  | collapse => rfl
  | dropRanges =>
    have hdemand : Remedy.dropRanges.apply minified classes =
        demand minified (classes.map (·.withoutRange)) := by
      refine ((List.map_congr_left fun c hc => ?_).trans (List.map_id _)).symm
      refine CharClass.atLeastOne_of_range (Option.eq_none_iff_forall_ne_some.2 fun r hr => ?_)
      obtain ⟨d, hd, hdr⟩ := range_of_mem_canonical hc hr
      exact absurd hdr (by simp [range_of_mem_withoutRange hd])
    rw [hdemand]
    refine demand_again (printableOnly_of_writable fun c hc => ?_)
      (not_clashing_of_range fun c hc => range_of_mem_withoutRange hc)
      (.inr (anyRange_withoutRange classes))
    obtain ⟨d, hd, rfl⟩ := List.mem_map.1 hc
    exact (hw d hd).withoutRange

end Demand

end PasswordPolicy
