import PasswordPolicy.Proofs.Overriding
import PasswordPolicy.Proofs.StatedRules

/-!
# Policies that read back

A merged policy is written down and read again. Nothing is found in it, but it is not always the
same policy: a required list may clash, and where ranges are given up, a required list that
collapses into all printable characters may override the range that an allowed class gives them.

Main result: a policy reads back exactly if neither is the case (`policy_reads_back_iff`).
-/

namespace PasswordPolicy

open Text

variable {words : List String} {minified : Bool} {rules : List Rule}

/-! ## Required lists -/

/-- Feasible lists that do not clash come through. -/
theorem settledPolicy_of_feasible (hs : ∀ r ∈ rules, r.Stated words)
    (hfeasible : ¬InfeasibleRules minified rules)
    (hclash : ∀ cs ∈ listsIn .required rules, ¬Clashing cs) : SettledPolicy minified rules := by
  have hnone := mergeConflict?_of_feasible hfeasible
  have hdemands : demands minified (reread minified rules) = reconciled minified rules := by
    rw [demands_reread]
    refine demands_written fun r hr => ?_
    rw [reconciled_of_none hnone] at hr
    rcases mem_demands_cases hr with ⟨cs, hcs, rfl⟩ | ⟨ws, rfl⟩
    · have hstated := hs _ hcs
      exact demand_again (printableOnly_of_writable hstated.1.2) (hclash cs (mem_listsIn_iff.2 hcs))
        (.inl (map_written_of_stated hstated))
    · trivial
  refine ⟨hdemands, ?_⟩
  rw [mergeConflict?, hdemands, reconciled_of_none hnone, lengthLimits_reread]
  exact hnone

/-- What is left of infeasible lists comes through. -/
theorem settledPolicy_of_infeasible (hw : ∀ r ∈ rules, r.Writable words)
    (hinfeasible : InfeasibleRules minified rules) : SettledPolicy minified rules := by
  have hsome := mergeConflict?_of_infeasible hinfeasible
  have hdemands : demands minified (reread minified rules) = reconciled minified rules := by
    rw [demands_reread]
    refine demands_written fun r hr => ?_
    rw [reconciled_of_some hsome] at hr
    obtain ⟨q, hq, rfl⟩ := List.mem_map.1 hr
    rcases mem_demands_cases hq with ⟨cs, hcs, rfl⟩ | ⟨ws, rfl⟩
    · exact demand_remedy _ (writable_demand (hw _ hcs).2)
    · trivial
  refine ⟨hdemands, ?_⟩
  have hrange : anyRange (listsIn .required (reconciled minified rules)).flatten = false := by
    refine List.any_eq_false.2 fun c hc => ?_
    obtain ⟨cs, hcs, hc⟩ := List.mem_flatten.1 hc
    rw [listsIn_reconciled_of_some hsome] at hcs
    obtain ⟨ds, -, rfl⟩ := List.mem_map.1 hcs
    simp [range_of_mem_remedy hc]
  rw [mergeConflict?, hdemands, conflict?, if_neg]
  simp [hrange]

/-- Feasible lists come through only if none of them clashes. -/
theorem merge_reread_ne_of_clashing (hfeasible : ¬InfeasibleRules minified rules)
    {cs : List CharClass} (hcs : cs ∈ listsIn .required rules) (hclash : Clashing cs) :
    merge minified (reread minified rules) ≠ merge minified rules := by
  intro heq
  have hlists := congrArg (listsIn .required) heq
  rw [listsIn_required_merge, listsIn_required_merge,
    listsIn_reconciled_of_none (mergeConflict?_of_feasible hfeasible)] at hlists
  by_cases hagain : InfeasibleRules minified (reread minified rules)
  · -- All ranges would be gone, but a clashing list has one.
    obtain ⟨c, hc, hrange⟩ := exists_range_demand_of_clashing minified hclash
    have hmem : demand minified cs ∈ (listsIn .required rules).map (demand minified) :=
      List.mem_map.2 ⟨cs, hcs, rfl⟩
    rw [← hlists, listsIn_reconciled_of_some (mergeConflict?_of_infeasible hagain)] at hmem
    obtain ⟨ds, -, hds⟩ := List.mem_map.1 hmem
    rw [← hds] at hc
    exact hrange (range_of_mem_remedy hc)
  · rw [listsIn_reconciled_of_none (mergeConflict?_of_feasible hagain), reread, listsIn_written,
      listsIn_required_merge, listsIn_reconciled_of_none (mergeConflict?_of_feasible hfeasible),
      List.map_map, List.map_map] at hlists
    exact demand_again_ne hclash (List.map_inj_left.1 hlists cs hcs)

/-! ## Whole policies -/

/-- What makes the merged policy of the rules come through. -/
structure ReadsBack (minified : Bool) (rules : List Rule) : Prop where
  feasible : ¬InfeasibleRules minified rules → ∀ cs ∈ listsIn .required rules, ¬Clashing cs
  infeasible : InfeasibleRules minified rules → minified = false → ¬Overridden rules

instance (minified : Bool) (rules : List Rule) : Decidable (ReadsBack minified rules) :=
  decidable_of_iff
    ((¬InfeasibleRules minified rules → ∀ cs ∈ listsIn .required rules, ¬Clashing cs) ∧
      (InfeasibleRules minified rules → minified = false → ¬Overridden rules))
    ⟨fun h => ⟨h.1, h.2⟩, fun h => ⟨h.feasible, h.infeasible⟩⟩

theorem allowedRule?_reread_of_feasible (hw : ∀ r ∈ rules, r.Writable words)
    (hsettled : SettledPolicy minified rules) (hfeasible : ¬InfeasibleRules minified rules) :
    allowedRule? minified (reread minified rules) = allowedRule? minified rules := by
  have hnone := mergeConflict?_of_feasible hfeasible
  refine allowedRule?_reread hw hsettled ?_ (added_of_noConflict hnone)
  rw [copied, hsettled.demands, reconciled_of_none hnone, copied]

theorem allowedRule?_reread_of_minified (hw : ∀ r ∈ rules, r.Writable words)
    (hsettled : SettledPolicy true rules) :
    allowedRule? true (reread true rules) = allowedRule? true rules := by
  refine allowedRule?_reread hw hsettled ?_ ?_
  · rw [copied_minified, copied_minified]
  · unfold added
    split <;> rfl

theorem merge_reread_eq_iff_readsBack (hs : ∀ r ∈ rules, r.Stated words) :
    merge minified (reread minified rules) = merge minified rules ↔ ReadsBack minified rules := by
  have hw : ∀ r ∈ rules, r.Writable words := fun r hr => (hs r hr).1
  by_cases h : InfeasibleRules minified rules
  · have hsettled := settledPolicy_of_infeasible hw h
    rw [merge_reread_eq_iff hsettled]
    cases minified with
    | true =>
      have hallowed := allowedRule?_reread_of_minified hw hsettled
      refine iff_of_true hallowed ⟨fun hnot => absurd h hnot, fun _ hfalse => ?_⟩
      exact absurd hfalse (by decide)
    | false =>
      rw [allowedRule?_reread_iff hw hsettled h]
      exact ⟨fun hno => ⟨fun hnot => absurd h hnot, fun _ _ => hno⟩, fun hr => hr.infeasible h rfl⟩
  · by_cases hclash : ∀ cs ∈ listsIn .required rules, ¬Clashing cs
    · have hsettled := settledPolicy_of_feasible hs h hclash
      rw [merge_reread_eq_iff hsettled]
      refine iff_of_true (allowedRule?_reread_of_feasible hw hsettled h) ⟨fun _ => hclash, ?_⟩
      exact fun hinfeasible => absurd hinfeasible h
    · refine iff_of_false (fun heq => hclash fun cs hcs hc => ?_) fun hr => hclash (hr.feasible h)
      exact merge_reread_ne_of_clashing h hcs hc heq

/-! ## Documents -/

theorem readDocument_documentOf (hw : ∀ r ∈ rules, r.Writable words) :
    readDocument words (documentOf rules).toList = ⟨[], rules.map Rule.written, .complete⟩ := by
  rw [documentOf, String.toList_ofList]
  exact (document_renderRules hw).read

theorem rules?_documentOf (hw : ∀ r ∈ rules, r.Writable words) :
    (readDocument words (documentOf rules).toList).rules? = some (rules.map Rule.written) := by
  rw [readDocument_documentOf hw]
  rfl

/-- **Which policies read back**: nothing is found in the document that a merged policy is written
as, and it states the same policy exactly if no required list clashes, or, where ranges are given
up, if the allowed list of the full form is not overridden. -/
theorem policy_reads_back_iff (words : List String) (minified : Bool) (text : String)
    (h : (readDocument words text.toList).rules? = some rules) :
    (Report.ofText words minified (documentOf (policyOf words minified text))).diagnostics = [] ∧
      (policyOf words minified (documentOf (policyOf words minified text)) =
        policyOf words minified text ↔ ReadsBack minified rules) := by
  have hs := stated_of_mem_rules? h
  have hw : ∀ r ∈ merge minified rules, r.Writable words :=
    writable_of_mem_merge fun r hr => (hs r hr).1
  rw [policyOf_eq h, policyOf_eq (rules?_documentOf hw), Report.ofText, readDocument_documentOf hw]
  exact ⟨List.mergeSort_nil, merge_reread_eq_iff_readsBack hs⟩

example : ¬ReadsBack false
    [.classes .required (BasicClass.all.map fun b => ⟨.named (.basic b), some ⟨1, 1⟩⟩),
      .limit .minLength 20, .classes .allowed [⟨.named .asciiPrintable, some ⟨0, 5⟩⟩]] := by
  decide

/-- Ranges that are given up, and an allowed range that no required list overrides. -/
def relaxedRules : List Rule :=
  [.classes .required [.named (.basic .upper), ⟨.custom ['-', 'b', 'a'], some ⟨0, 2⟩⟩],
    .classes .required [.named (.basic .special), .named (.basic .digit)],
    .limit .maxLength 1, .classes .allowed [⟨.named .asciiPrintable, some ⟨1, 5⟩⟩]]

theorem relaxedRules_read_back :
    (readDocument [] (documentOf relaxedRules).toList).rules? = some relaxedRules ∧
      (Report.ofText [] false
        (documentOf (policyOf [] false (documentOf relaxedRules)))).diagnostics = [] ∧
      policyOf [] false (documentOf (policyOf [] false (documentOf relaxedRules))) =
        policyOf [] false (documentOf relaxedRules) := by
  have hwritten : relaxedRules.map Rule.written = relaxedRules := by decide
  have hread : (readDocument [] (documentOf relaxedRules).toList).rules? = some relaxedRules := by
    rw [rules?_documentOf (by decide), hwritten]
  obtain ⟨hclean, hagain⟩ := policy_reads_back_iff [] false (documentOf relaxedRules) hread
  exact ⟨hread, hclean, hagain.2 (by decide)⟩

/-- One small letter on its own, and all of them with a range. -/
def clashingRules : List Rule :=
  [.classes .required
    [.custom ['j'], ⟨.custom "abcdefghijklmnopqrstuvwxyz".toList, some ⟨1, 5⟩⟩]]

/-- The single letter is lost: once the small letters are named, it is a part of them. -/
theorem clashingRules_do_not_read_back :
    let policy := policyOf [] false "required: [j], [abcdefghijklmnopqrstuvwxyz](1, 5);"
    let again := policyOf [] false (documentOf policy)
    policy = [.classes .required [⟨.named (.basic .lower), some ⟨1, 5⟩⟩, .custom ['j']],
        .classes .allowed [.named (.basic .lower)], .limit .minClasses 4] ∧
      again = [.classes .required [⟨.named (.basic .lower), some ⟨1, 5⟩⟩],
        .classes .allowed [.named (.basic .lower)], .limit .minClasses 4] ∧
      again ≠ policy := by
  have htext : "required: [j], [abcdefghijklmnopqrstuvwxyz](1, 5);" = documentOf clashingRules := by
    decide
  have hpolicy : policyOf [] false (documentOf clashingRules) = merge false clashingRules := by
    rw [policyOf_eq (rules?_documentOf (by decide))]
    decide
  have hagain : policyOf [] false (documentOf (merge false clashingRules)) =
      merge false (reread false clashingRules) :=
    policyOf_eq (rules?_documentOf (by decide))
  intro policy again
  have hp : policy = merge false clashingRules := by rw [← hpolicy, ← htext]
  have ha : again = merge false (reread false clashingRules) := by rw [← hagain, ← hp]
  rw [ha, hp]
  decide

end PasswordPolicy
