import PasswordPolicy.Proofs.Reconciliation

/-!
# Ranges that are kept fit the limits on length

**Counted exactly**, all required classes of a policy together ask for some number of characters
and allow some number (`requiredTotal`). Where a range is kept, the longest password should have as
many as they ask for, and the shortest password no more than they allow.

**At the largest word.** Whether ranges are kept is decided by totals that stop at the largest word.
On the side of the shortest password nothing is lost by that (`total_lt_toNat_iff`). On the side of
the longest password a total that has stopped no longer exceeds a limit of just that many characters
(`lt_total_iff`).

Main result: the ranges that are kept fit, except that they may ask for more characters than a
longest password of the largest word has (`kept_ranges_fit_iff`).
-/

namespace PasswordPolicy

/-! ## Totals that stop, and exact ones -/

theorem lt_total_iff {n : Nat} {counts : List UInt32} :
    n < total counts ↔ n < exactTotal counts ∧ n < largestCount := by
  unfold total
  omega

/-- A limit is never larger than the number at which totals stop. -/
theorem toNat_le_largestCount (n : UInt32) : n.toNat ≤ largestCount := by
  have hn : n.toNat < UInt32.size := n.toNat_lt
  unfold largestCount
  omega

theorem total_lt_toNat_iff {n : UInt32} {counts : List UInt32} :
    total counts < n.toNat ↔ exactTotal counts < n.toNat := by
  have hn := toNat_le_largestCount n
  unfold total
  omega

/-! ## Ranges and limits of a policy -/

/-- The sum of the bounds of all required classes, without any limit to it. -/
def requiredTotal (bound : CountRange → UInt32) (policy : List Rule) : Nat :=
  exactTotal (boundsOf bound (listsIn .required policy))

/-- The shortest password has a character, and the required classes allow as many as it has. -/
def FillsShortest (policy : List Rule) : Prop :=
  ∀ n ∈ numbersIn .minLength policy, n ≠ 0 ∧ n.toNat ≤ requiredTotal CountRange.most policy

/-- The longest password has as many characters as the required classes ask for. -/
def FitsLongest (policy : List Rule) : Prop :=
  ∀ n ∈ numbersIn .maxLength policy, requiredTotal CountRange.least policy ≤ n.toNat

def HasRequiredRange (policy : List Rule) : Prop :=
  ∃ cs ∈ listsIn .required policy, ∃ c ∈ cs, c.range ≠ none

/-- The longest password has as many characters as a word can count, and the required classes ask
for more than that. -/
def AsksBeyondWords (minified : Bool) (rules : List Rule) : Prop :=
  (strictest .maxLength rules).map UInt32.toNat = some largestCount ∧
    largestCount < exactTotal (boundsOf CountRange.least (demandedLists minified rules))

section Policy

variable {minified : Bool} {rules : List Rule}

theorem feasible_of_hasRequiredRange (h : HasRequiredRange (merge minified rules)) :
    ¬InfeasibleRules minified rules := by
  intro hinfeasible
  obtain ⟨cs, hcs, c, hc, hr⟩ := h
  rw [listsIn_merge_of_infeasible hinfeasible] at hcs
  obtain ⟨ds, -, rfl⟩ := List.mem_map.1 hcs
  exact hr (range_of_mem_remedy hc)

/-- Where ranges are kept, the totals that stop at the largest word fit both limits. -/
theorem totals_fit_of_hasRequiredRange (h : HasRequiredRange (merge minified rules)) :
    (∀ n, strictest .maxLength rules = some n →
        ¬n.toNat < total (boundsOf CountRange.least (listsIn .required (merge minified rules)))) ∧
      ∀ n, strictest .minLength rules = some n → n ≠ 0 ∧
        ¬total (boundsOf CountRange.most (listsIn .required (merge minified rules))) < n.toNat := by
  have hfeasible := feasible_of_hasRequiredRange h
  have hlists := listsIn_merge_of_feasible hfeasible
  unfold HasRequiredRange at h
  rw [hlists] at h ⊢
  simp only [← toNat_saturatingSum, ← UInt32.lt_iff_toNat_lt]
  constructor
  · exact fun n hn hlt => hfeasible ⟨h, .inl ⟨n, hn, hlt⟩⟩
  · intro n hn
    have hshort := fun hunfit => hfeasible ⟨h, .inr ⟨n, hn, hunfit⟩⟩
    exact ⟨fun hzero => hshort (.inl hzero), fun hlt => hshort (.inr hlt)⟩

theorem mem_numbersIn_merge_iff {l : Limit} (hl : l ≠ .minClasses) {n : UInt32} :
    n ∈ numbersIn l (merge minified rules) ↔ strictest l rules = some n := by
  rw [numbersIn_merge, if_neg hl, Option.mem_toList]

/-- **Ranges that are kept fit the limits**, counted exactly: they always allow the characters of
the shortest password, and they ask for no more than the longest one has unless its length and what
they ask for lie at the end of the words and beyond it. -/
theorem kept_ranges_fit_iff (h : HasRequiredRange (merge minified rules)) :
    FillsShortest (merge minified rules) ∧
      (FitsLongest (merge minified rules) ↔ ¬AsksBeyondWords minified rules) := by
  obtain ⟨hlongest, hshortest⟩ := totals_fit_of_hasRequiredRange h
  have hlists := listsIn_merge_of_feasible (feasible_of_hasRequiredRange h)
  constructor
  · intro n hn
    obtain ⟨hzero, hfit⟩ := hshortest n ((mem_numbersIn_merge_iff (by decide)).1 hn)
    rw [total_lt_toNat_iff] at hfit
    exact ⟨hzero, Nat.le_of_not_lt hfit⟩
  · unfold AsksBeyondWords
    rw [← hlists]
    constructor
    · rintro hfits ⟨hlargest, hbeyond⟩
      obtain ⟨n, hn, hsize⟩ := Option.map_eq_some_iff.1 hlargest
      have hle := hfits n ((mem_numbersIn_merge_iff (by decide)).2 hn)
      unfold requiredTotal at hle
      omega
    · intro hbeyond n hn
      have hn := (mem_numbersIn_merge_iff (by decide)).1 hn
      have hfit := hlongest n hn
      have hsize := toNat_le_largestCount n
      rw [lt_total_iff] at hfit
      rw [hn, Option.map_some, Option.some.injEq] at hbeyond
      unfold requiredTotal
      omega

end Policy

/-- Two lists whose ranges just fit, next to a class without a range. -/
def fittingRules : List Rule :=
  [.classes .required [⟨.named (.basic .upper), some ⟨0, 2⟩⟩, .custom ['!']],
    .classes .required [⟨.named (.basic .digit), some ⟨4294967166, 4294967295⟩⟩],
    .limit .minLength 4294967295, .limit .maxLength 4294967295]

theorem fittingRules_fit :
    HasRequiredRange (merge false fittingRules) ∧ FillsShortest (merge false fittingRules) ∧
      FitsLongest (merge false fittingRules) := by
  have hrange : HasRequiredRange (merge false fittingRules) := by
    unfold HasRequiredRange
    decide
  have hbeyond : ¬AsksBeyondWords false fittingRules := by
    unfold AsksBeyondWords
    decide
  obtain ⟨hshortest, hlongest⟩ := kept_ranges_fit_iff hrange
  exact ⟨hrange, hshortest, hlongest.2 hbeyond⟩

/-- One character more is asked for than the longest password has. -/
def overaskingRules : List Rule :=
  [.classes .required [⟨.named (.basic .upper), some ⟨4294967295, 4294967295⟩⟩,
      ⟨.named (.basic .lower), some ⟨1, 1⟩⟩],
    .limit .maxLength 4294967295]

theorem overaskingRules_keep_ranges :
    HasRequiredRange (merge true overaskingRules) ∧ ¬FitsLongest (merge true overaskingRules) := by
  have hrange : HasRequiredRange (merge true overaskingRules) := by
    unfold HasRequiredRange
    decide
  have htotal : requiredTotal CountRange.least (merge true overaskingRules) = 4294967296 := by
    decide
  refine ⟨hrange, fun hfits => ?_⟩
  have hfit := hfits 4294967295 (by decide)
  rw [htotal] at hfit
  exact absurd hfit (by decide)

end PasswordPolicy
