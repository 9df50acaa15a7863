import PasswordPolicy.Proofs.BracketedForm
import PasswordPolicy.Proofs.Reconciliation

/-!
# The two forms of a merged policy

**The full and the minified form** are meant to differ in what they allow, not in what they ask
for. Apart from the allowed rule they state the same rules in the same order, and only the members
of a custom class may stand in another order (`Rule.Reordered`).

**Conflicts** are seen alike: whether the ranges fit the limits on length, which basic classes are
named, and what is done about it does not depend on how members are written
(`mergeConflict?_bracketed`).

Main result: the two forms agree on everything but what is allowed (`merge_two_forms`).
-/

namespace PasswordPolicy

/-! ## Reordered rules -/

/-- The same rule, but for the order of members in the custom classes of a required list. -/
inductive Rule.Reordered : Rule → Rule → Prop
  | required {cs ds : List CharClass} : List.Forall₂ CharClass.Reordered cs ds →
    Reordered (.classes .required cs) (.classes .required ds)
  | limit (l : Limit) (n : UInt32) : Reordered (.limit l n) (.limit l n)
  | blocklist (words : List String) : Reordered (.blocklist words) (.blocklist words)

/-- The rules of the policy but for those that say what is allowed. -/
def withoutAllowed (policy : List Rule) : List Rule :=
  policy.filter (·.name ≠ .classes .allowed)

/-! ## Conflicts as they are written -/

/-- The conflict between the lists as they are written and the limits. -/
def Conflict.written (conflict : Conflict) : Conflict :=
  { conflict with lists := conflict.lists.map (List.map CharClass.written) }

namespace Conflict

variable (conflict : Conflict)

theorem classes_written : conflict.written.classes = conflict.classes.map CharClass.written :=
  List.map_flatten.symm

@[simp]
theorem seen_written : conflict.written.seen = conflict.seen := by
  unfold seen namedBasics
  simp only [classes_written, List.any_map, Function.comp_def, CharClass.written_eq_rewritten,
    CharClass.name?_rewritten]

@[simp]
theorem unseen_written : conflict.written.unseen = conflict.unseen := by
  unfold unseen
  rw [seen_written]

@[simp]
theorem remedy_written : conflict.written.remedy = conflict.remedy := by
  unfold remedy
  rw [unseen_written, written, List.length_map]

end Conflict

theorem LengthLimits.exceededBy_written (limits : LengthLimits) (classes : List CharClass) :
    limits.exceededBy (classes.map CharClass.written) = limits.exceededBy classes := by
  unfold exceededBy leastTotal
  rw [List.map_map]
  rfl

theorem LengthLimits.missedBy_written (limits : LengthLimits) (classes : List CharClass) :
    limits.missedBy (classes.map CharClass.written) = limits.missedBy classes := by
  unfold missedBy mostTotal
  rw [List.map_map]
  rfl

theorem conflict?_written (lists : List (List CharClass)) (limits : LengthLimits) :
    conflict? (lists.map (List.map CharClass.written)) limits =
      (conflict? lists limits).map Conflict.written := by
  have hflatten : (lists.map (List.map CharClass.written)).flatten =
      lists.flatten.map CharClass.written := List.map_flatten.symm
  unfold conflict?
  rw [hflatten, anyRange_written, LengthLimits.exceededBy_written, LengthLimits.missedBy_written,
    apply_ite (Option.map Conflict.written)]
  rfl

/-! ## Demands -/

section Demands

variable (classes : List CharClass)

theorem reordered_demand :
    List.Forall₂ CharClass.Reordered (demand true classes) (demand false classes) := by
  unfold demand
  rw [List.forall₂_map_left_iff, List.forall₂_map_right_iff]
  refine (reordered_canonical .required classes).imp fun c d h => ?_
  unfold CharClass.atLeastOne
  rw [h.range]
  exact h.withRange _

/-- A change of ranges is made in what is written as well. -/
theorem written_demand_eq (minified : Bool) : (demand minified classes).map CharClass.written =
    ((canonical .required minified classes).map CharClass.written).map (·.atLeastOne) := by
  unfold demand
  rw [List.map_map, List.map_map]
  rfl

theorem written_demand_bracketed : (demand true classes).map CharClass.written =
    (demand false classes).map CharClass.written := by
  rw [written_demand_eq, written_demand_eq, written_canonical]

theorem written_withoutRange (cs : List CharClass) :
    (cs.map (·.withoutRange)).map CharClass.written =
      (cs.map CharClass.written).map (·.withoutRange) := by
  rw [List.map_map, List.map_map]
  rfl

/-- Without ranges, what becomes of a list in a conflict depends only on how it is written. -/
theorem reordered_remedy (remedy : Remedy) :
    List.Forall₂ CharClass.Reordered (remedy.apply true (demand true classes))
      (remedy.apply false (demand false classes)) := by
  cases remedy with
  | collapse => exact reordered_refl _
  | dropRanges =>
    have hwritten : ((demand true classes).map (·.withoutRange)).map CharClass.written =
        ((demand false classes).map (·.withoutRange)).map CharClass.written := by
      rw [written_withoutRange, written_withoutRange, written_demand_bracketed]
    have hsame : canonical .required true ((demand true classes).map (·.withoutRange)) =
        canonical .required true ((demand false classes).map (·.withoutRange)) := by
      rw [← canonical_written .required true (anyRange_withoutRange _), hwritten,
        canonical_written .required true (anyRange_withoutRange _)]
    show List.Forall₂ CharClass.Reordered
      (canonical .required true ((demand true classes).map (·.withoutRange)))
      (canonical .required false ((demand false classes).map (·.withoutRange)))
    rw [hsame]
    exact reordered_canonical .required _

end Demands

/-! ## Conflicts of both forms -/

variable (rules : List Rule)

theorem mergeConflict?_bracketed : (mergeConflict? true rules).map Conflict.written =
    (mergeConflict? false rules).map Conflict.written := by
  have hlists : ((listsIn .required rules).map (demand true)).map (List.map CharClass.written) =
      ((listsIn .required rules).map (demand false)).map (List.map CharClass.written) := by
    rw [List.map_map, List.map_map]
    exact List.map_congr_left fun cs _ => written_demand_bracketed cs
  unfold mergeConflict?
  rw [listsIn_demands, listsIn_demands, ← conflict?_written, hlists, conflict?_written]

/-- There is a conflict in both forms, written the same, or in neither. -/
theorem mergeConflict?_cases :
    (mergeConflict? true rules = none ∧ mergeConflict? false rules = none) ∨
      ∃ conflict conflict', mergeConflict? true rules = some conflict ∧
        mergeConflict? false rules = some conflict' ∧ conflict.written = conflict'.written := by
  have h := mergeConflict?_bracketed rules
  cases ht : mergeConflict? true rules with
  | none =>
    rw [ht, Option.map_none, eq_comm, Option.map_eq_none_iff] at h
    exact .inl ⟨rfl, h⟩
  | some conflict =>
    rw [ht, Option.map_some, eq_comm, Option.map_eq_some_iff] at h
    obtain ⟨conflict', hf, hwritten⟩ := h
    exact .inr ⟨conflict, conflict', rfl, hf, hwritten.symm⟩

theorem remedy_bracketed : (mergeConflict? true rules).map Conflict.remedy =
    (mergeConflict? false rules).map Conflict.remedy := by
  rcases mergeConflict?_cases rules with ⟨ht, hf⟩ | ⟨conflict, conflict', ht, hf, h⟩
  · rw [ht, hf]
  · rw [ht, hf, Option.map_some, Option.map_some, ← conflict.remedy_written, h,
      conflict'.remedy_written]

theorem mergedMinClasses_bracketed :
    mergedMinClasses true rules = mergedMinClasses false rules := by
  unfold mergedMinClasses
  rcases mergeConflict?_cases rules with ⟨ht, hf⟩ | ⟨conflict, conflict', ht, hf, h⟩
  · rw [ht, hf]
  · have hseen : conflict.seen = conflict'.seen := by
      rw [← conflict.seen_written, h, conflict'.seen_written]
    have hunseen : conflict.unseen = conflict'.unseen := by
      rw [← conflict.unseen_written, h, conflict'.unseen_written]
    rw [ht, hf]
    simp only [hseen, hunseen]

/-! ## The merged policy -/

/-- Rules stay reordered when the lists of each are changed alike. -/
theorem reordered_demands {f g : List CharClass → List CharClass}
    (h : ∀ cs, List.Forall₂ CharClass.Reordered (f (demand true cs)) (g (demand false cs))) :
    List.Forall₂ Rule.Reordered ((demands true rules).map (·.mapRequired f))
      ((demands false rules).map (·.mapRequired g)) := by
  induction rules with
  | nil => exact .nil
  | cons r rules ih =>
    rcases r with ⟨⟨⟩, cs⟩ | _ | ws
    · exact .cons (.required (h cs)) ih
    · exact ih
    · exact ih
    · exact .cons (.blocklist ws) ih

theorem reordered_reconciled :
    List.Forall₂ Rule.Reordered (reconciled true rules) (reconciled false rules) := by
  rcases mergeConflict?_cases rules with ⟨ht, hf⟩ | ⟨conflict, conflict', ht, hf, h⟩
  · have hid : ∀ rules : List Rule, rules.map (·.mapRequired id) = rules := by
      intro rules
      refine (List.map_congr_left fun r _ => ?_).trans (List.map_id rules)
      rcases r with ⟨⟨⟩, cs⟩ | _ | _ <;> rfl
    rw [reconciled_of_none ht, reconciled_of_none hf, ← hid (demands true rules),
      ← hid (demands false rules)]
    exact reordered_demands rules reordered_demand
  · have hremedy : conflict.remedy = conflict'.remedy := by
      rw [← conflict.remedy_written, h, conflict'.remedy_written]
    rw [reconciled_of_some ht, reconciled_of_some hf, hremedy]
    exact reordered_demands rules fun cs => reordered_remedy cs _

/-- The numbers that a merged policy states, each as a rule. -/
def statedNumbers (minified : Bool) (rules : List Rule) : List Rule :=
  (limitRule? .maxConsecutive rules).toList ++ (limitRule? .minLength rules).toList ++
    (limitRule? .maxLength rules).toList ++ [.limit .minClasses (mergedMinClasses minified rules)]

theorem mem_statedNumbers {minified : Bool} {r : Rule} (h : r ∈ statedNumbers minified rules) :
    ∃ l n, r = .limit l n := by
  unfold statedNumbers at h
  simp only [List.mem_append, List.mem_singleton] at h
  rcases h with ((h | h) | h) | h
  · obtain ⟨n, -, rfl⟩ := mem_limitRule h
    exact ⟨_, n, rfl⟩
  · obtain ⟨n, -, rfl⟩ := mem_limitRule h
    exact ⟨_, n, rfl⟩
  · obtain ⟨n, -, rfl⟩ := mem_limitRule h
    exact ⟨_, n, rfl⟩
  · exact ⟨_, _, h⟩

theorem withoutAllowed_merge (minified : Bool) : withoutAllowed (merge minified rules) =
    reconciled minified rules ++ statedNumbers minified rules := by
  have hmerge : merge minified rules = reconciled minified rules ++
      ((allowedRule? minified rules).toList ++ statedNumbers minified rules) := by
    simp only [merge, statedNumbers, List.append_assoc]
  have hreconciled : withoutAllowed (reconciled minified rules) = reconciled minified rules := by
    refine List.filter_eq_self.2 fun r hr => ?_
    rcases mem_reconciled_cases hr with ⟨-, -, ds, rfl, -⟩ | ⟨ws, rfl⟩ <;> rfl
  have hallowed : withoutAllowed (allowedRule? minified rules).toList = [] := by
    rcases allowedRule?_cases minified rules with h | ⟨cs, h⟩ <;> rw [h] <;> rfl
  have hnumbers : withoutAllowed (statedNumbers minified rules) = statedNumbers minified rules := by
    refine List.filter_eq_self.2 fun r hr => ?_
    obtain ⟨l, n, rfl⟩ := mem_statedNumbers rules hr
    rfl
  calc withoutAllowed (merge minified rules)
    _ = withoutAllowed (reconciled minified rules) ++
        (withoutAllowed (allowedRule? minified rules).toList ++
          withoutAllowed (statedNumbers minified rules)) := by
      rw [hmerge]
      simp only [withoutAllowed, List.filter_append]
    _ = reconciled minified rules ++ statedNumbers minified rules := by
      rw [hreconciled, hallowed, hnumbers, List.nil_append]

theorem statedNumbers_bracketed : statedNumbers true rules = statedNumbers false rules := by
  unfold statedNumbers
  rw [mergedMinClasses_bracketed]

/-- **The two forms agree on everything but what is allowed**: both do the same about a conflict,
and their other rules are the same one by one, except for the order of members in the custom
classes of required lists. -/
theorem merge_two_forms :
    (mergeConflict? true rules).map Conflict.remedy =
      (mergeConflict? false rules).map Conflict.remedy ∧
    List.Forall₂ Rule.Reordered (withoutAllowed (merge true rules))
      (withoutAllowed (merge false rules)) := by
  refine ⟨remedy_bracketed rules, ?_⟩
  rw [withoutAllowed_merge, withoutAllowed_merge, statedNumbers_bracketed]
  refine List.rel_append (reordered_reconciled rules) (List.forall₂_same.2 fun r hr => ?_)
  obtain ⟨l, n, rfl⟩ := mem_statedNumbers rules hr
  exact .limit l n

/-- Only the minified form puts the dash first. -/
example : withoutAllowed (merge true [.classes .required [.custom ['+', '-']]]) =
      [.classes .required [.custom ['-', '+']], .limit .minClasses 4] ∧
    withoutAllowed (merge false [.classes .required [.custom ['+', '-']]]) =
      [.classes .required [.custom ['+', '-']], .limit .minClasses 4] := by
  decide

end PasswordPolicy
