import PasswordPolicy.Proofs.CanonicalClasses
import PasswordPolicy.Proofs.MergedRules

/-!
# Reconciliation is all or nothing

**Infeasible lists.** The classes of all required lists, in canonical form and each asking for one
character at least, take a least and a most number of characters, both added up in machine words
that stay at the largest one. The lists are infeasible if some class has a range and the longest
password is shorter than the least number, or the shortest one longer than the most.

Main result: feasible lists are stated as they are, infeasible ones without any range at all
(`reconciliation_all_or_nothing`).
-/

namespace PasswordPolicy

open Text

/-! ## Totals in machine words -/

/-- The sum of two words, or the largest word if they have none. -/
def saturatingAdd (a b : UInt32) : UInt32 :=
  if a.toNat + b.toNat < UInt32.size then a + b else -1

def saturatingSum (counts : List UInt32) : UInt32 :=
  counts.foldl saturatingAdd 0

theorem toNat_saturatingAdd (a b : UInt32) :
    (saturatingAdd a b).toNat = min (a.toNat + b.toNat) largestCount := by
  unfold saturatingAdd largestCount
  by_cases h : a.toNat + b.toNat < UInt32.size
  · rw [if_pos h, UInt32.toNat_add, Nat.mod_eq_of_lt h]
    omega
  · rw [if_neg h]
    have hlargest : (-1 : UInt32).toNat = UInt32.size - 1 := rfl
    omega

theorem toNat_saturatingSum (counts : List UInt32) :
    (saturatingSum counts).toNat = total counts := by
  have hfold : ∀ (counts : List UInt32) (a : UInt32),
      (counts.foldl saturatingAdd a).toNat = min (a.toNat + exactTotal counts) largestCount := by
    intro counts
    induction counts with
    | nil =>
      intro a
      have ha : a.toNat < UInt32.size := a.toNat_lt
      rw [List.foldl_nil, exactTotal, largestCount]
      omega
    | cons n counts ih =>
      intro a
      rw [List.foldl_cons, ih, toNat_saturatingAdd, exactTotal]
      omega
  rw [saturatingSum, hfold, total, UInt32.toNat_zero, Nat.zero_add]

/-! ## Infeasible lists -/

def demandedLists (minified : Bool) (rules : List Rule) : List (List CharClass) :=
  (listsIn .required rules).map (demand minified)

/-- The bound of every class, which for a class without a range is the same on both sides. -/
def boundsOf (bound : CountRange → UInt32) (lists : List (List CharClass)) : List UInt32 :=
  lists.flatten.map fun c => match c.range with
    | some r => bound r
    | none => 128

structure Infeasible (lists : List (List CharClass)) (shortest longest : Option UInt32) : Prop where
  ranged : ∃ cs ∈ lists, ∃ c ∈ cs, c.range ≠ none
  unfit : (∃ n, longest = some n ∧ n < saturatingSum (boundsOf CountRange.least lists)) ∨
    ∃ n, shortest = some n ∧ (n = 0 ∨ saturatingSum (boundsOf CountRange.most lists) < n)

theorem boundsOf_eq (bound : CountRange → UInt32) (lists : List (List CharClass)) :
    boundsOf bound lists = lists.flatten.map (·.range.elim unrangedCount bound) := by
  unfold boundsOf
  congr 1
  funext c
  cases c.range <;> rfl

theorem anyRange_flatten_iff {lists : List (List CharClass)} :
    anyRange lists.flatten = true ↔ ∃ cs ∈ lists, ∃ c ∈ cs, c.range ≠ none := by
  unfold anyRange
  simp only [List.any_eq_true, List.mem_flatten, Option.isSome_iff_ne_none]
  constructor
  · rintro ⟨c, ⟨cs, hcs, hc⟩, hr⟩
    exact ⟨cs, hcs, c, hc, hr⟩
  · rintro ⟨cs, hcs, c, hc, hr⟩
    exact ⟨c, ⟨cs, hcs, hc⟩, hr⟩

theorem exceededBy_iff {limits : LengthLimits} {lists : List (List CharClass)} :
    limits.exceededBy lists.flatten = true ↔
      ∃ n, limits.most = some n ∧ n < saturatingSum (boundsOf CountRange.least lists) := by
  unfold LengthLimits.exceededBy leastTotal
  simp only [Option.any_eq_true, decide_eq_true_eq, UInt32.lt_iff_toNat_lt, toNat_saturatingSum,
    boundsOf_eq]

theorem missedBy_iff {limits : LengthLimits} {lists : List (List CharClass)} :
    limits.missedBy lists.flatten = true ↔ ∃ n, limits.least = some n ∧
      (n = 0 ∨ saturatingSum (boundsOf CountRange.most lists) < n) := by
  unfold LengthLimits.missedBy mostTotal
  simp only [Option.any_eq_true, Bool.or_eq_true, decide_eq_true_eq, beq_iff_eq,
    UInt32.lt_iff_toNat_lt, toNat_saturatingSum, boundsOf_eq, or_comm]

theorem infeasible_iff {lists : List (List CharClass)} {limits : LengthLimits} :
    Infeasible lists limits.least limits.most ↔ anyRange lists.flatten = true ∧
      (limits.exceededBy lists.flatten = true ∨ limits.missedBy lists.flatten = true) := by
  rw [anyRange_flatten_iff, exceededBy_iff, missedBy_iff]
  exact ⟨fun h => ⟨h.ranged, h.unfit⟩, fun h => ⟨h.1, h.2⟩⟩

section Conflict

variable {minified : Bool} {rules : List Rule}

theorem mergeConflict?_of_infeasible
    (h : Infeasible (demandedLists minified rules) (strictest .minLength rules)
      (strictest .maxLength rules)) :
    mergeConflict? minified rules = some ⟨demandedLists minified rules, lengthLimits rules⟩ := by
  unfold mergeConflict?
  rw [listsIn_demands]
  exact if_pos (infeasible_iff.1 h)

theorem mergeConflict?_of_feasible
    (h : ¬Infeasible (demandedLists minified rules) (strictest .minLength rules)
      (strictest .maxLength rules)) : mergeConflict? minified rules = none := by
  unfold mergeConflict?
  rw [listsIn_demands]
  exact if_neg fun hr => h (infeasible_iff.2 hr)

end Conflict

/-! ## Names that are seen -/

def CharClass.basicName? (c : CharClass) : Option BasicClass :=
  match c.name? with
  | some (.basic b) => some b
  | _ => none

/-- The names of basic classes that stand in the lists, each once. -/
def namesSeen (lists : List (List CharClass)) : List BasicClass :=
  (lists.flatten.filterMap CharClass.basicName?).eraseDups

theorem basicName?_eq_some_iff {c : CharClass} {b : BasicClass} :
    c.basicName? = some b ↔ c.name? = some (.basic b) := by
  unfold CharClass.basicName?
  split
  · next d hd => simp [hd]
  · next hd => exact ⟨fun h => (nomatch h), fun h => absurd h (hd b)⟩

theorem mem_namedBasics_iff {classes : List CharClass} {b : BasicClass} :
    b ∈ namedBasics classes ↔ ∃ c ∈ classes, c.name? = some (.basic b) := by
  unfold namedBasics
  rw [List.mem_filter, List.any_eq_true]
  simp only [b.mem_all, true_and, beq_iff_eq]

/-- Counting the names in the order of the basic classes counts each of them once. -/
theorem length_namesSeen (lists : List (List CharClass)) :
    (namesSeen lists).length = (namedBasics lists.flatten).length := by
  refine List.Perm.length_eq ?_
  refine (List.perm_ext_iff_of_nodup (nodup_eraseDups _) ?_).2 fun b => ?_
  · exact List.Pairwise.filter _ (by decide)
  · rw [List.mem_eraseDups, List.mem_filterMap, mem_namedBasics_iff]
    simp only [basicName?_eq_some_iff]

/-- All four basic classes are seen exactly if none is left to be added. -/
theorem unseen_eq_nil_iff {lists : List (List CharClass)} {limits : LengthLimits} :
    (Conflict.mk lists limits).unseen = [] ↔ ¬(namesSeen lists).length < 4 := by
  rw [length_namesSeen]
  show BasicClass.all.filter (· ∉ namedBasics lists.flatten) = [] ↔ _
  have hall :=
    List.length_eq_countP_add_countP (l := BasicClass.all) (· ∈ namedBasics lists.flatten)
  rw [List.countP_eq_length_filter, List.countP_eq_length_filter] at hall
  have hseen : BasicClass.all.filter (· ∈ namedBasics lists.flatten) =
      namedBasics lists.flatten := by
    refine List.filter_congr fun b _ => ?_
    rw [Bool.eq_iff_iff, decide_eq_true_eq, namedBasics, List.mem_filter]
    exact and_iff_right b.mem_all
  rw [hseen] at hall
  have hfour : BasicClass.all.length = 4 := rfl
  rw [← List.length_eq_zero_iff]
  simp only [decide_eq_true_eq] at hall
  omega

/-! ## What a conflict leaves -/

/-- The printable characters that the classes contain. -/
def contents (classes : List CharClass) : List Char :=
  printable.filter (covers classes)

theorem contents_congr {cs ds : List CharClass}
    (h : ∀ ch, isPrintable ch = true → covers cs ch = covers ds ch) : contents cs = contents ds :=
  List.filter_congr fun ch hch => h ch (mem_printable_iff.1 hch)

theorem covers_withoutRange (classes : List CharClass) (ch : Char) :
    covers (classes.map (·.withoutRange)) ch = covers classes ch := by
  unfold covers
  rw [List.any_map]
  rfl

theorem range_of_mem_withoutRange {classes : List CharClass} {c : CharClass}
    (h : c ∈ classes.map (·.withoutRange)) : c.range = none := by
  obtain ⟨d, -, rfl⟩ := List.mem_map.1 h
  rfl

theorem anyRange_withoutRange (classes : List CharClass) :
    anyRange (classes.map (·.withoutRange)) = false := by
  refine List.any_eq_false.2 fun c hc => ?_
  rw [range_of_mem_withoutRange hc]
  exact Bool.false_ne_true

theorem range_of_mem_remedy {remedy : Remedy} {bracketed : Bool} {classes : List CharClass}
    {c : CharClass} (h : c ∈ remedy.apply bracketed classes) : c.range = none := by
  cases remedy with
  | collapse =>
    rw [Remedy.apply, List.mem_singleton] at h
    rw [h]
    rfl
  | dropRanges =>
    cases hr : c.range with
    | none => rfl
    | some r =>
      obtain ⟨d, hd, hdr⟩ := range_of_mem_canonical h hr
      exact absurd hdr (by simp [range_of_mem_withoutRange hd])

theorem contents_dropRanges (bracketed : Bool) (classes : List CharClass) :
    contents (Remedy.dropRanges.apply bracketed classes) = contents classes :=
  contents_congr fun ch hp => by
    rw [Remedy.apply, covers_canonical _ _ _ hp, covers_withoutRange]

/-- A single list that names all four basic classes contains what it collapses into. -/
theorem contents_collapse {classes : List CharClass} {limits : LengthLimits} (bracketed : Bool)
    (h : (Conflict.mk [classes] limits).unseen = []) :
    contents (Remedy.collapse.apply bracketed classes) = contents classes := by
  refine contents_congr fun ch hp => ?_
  have hall : covers (Remedy.collapse.apply bracketed classes) ch = true :=
    covers_iff.2 ⟨_, List.mem_singleton_self _, hp⟩
  rw [hall, eq_comm]
  obtain ⟨b, hb⟩ := BasicClass.exists_contains hp
  have hseen : b ∈ (Conflict.mk [classes] limits).seen := by
    simpa using List.filter_eq_nil_iff.1 h b b.mem_all
  obtain ⟨c, hc, hname⟩ : ∃ c ∈ [classes].flatten, c.name? = some (.basic b) :=
    mem_namedBasics_iff.1 hseen
  refine covers_iff.2 ⟨c, by simpa using hc, ?_⟩
  rw [CharClass.contains, CharClass.body_of_name? hname]
  exact hb

theorem contents_remedy (conflict : Conflict) (bracketed : Bool) :
    (conflict.lists.map (conflict.remedy.apply bracketed)).map contents =
      conflict.lists.map contents := by
  rw [List.map_map]
  refine List.map_congr_left fun cs hcs => ?_
  show contents (conflict.remedy.apply bracketed cs) = contents cs
  unfold Conflict.remedy
  by_cases h : conflict.unseen = [] ∧ conflict.lists.length = 1
  · rw [if_pos h]
    obtain ⟨lists, limits⟩ := conflict
    obtain ⟨ds, hds⟩ := List.length_eq_one_iff.1 h.2
    obtain rfl : lists = [ds] := hds
    obtain rfl := List.mem_singleton.1 hcs
    exact contents_collapse bracketed h.1
  · rw [if_neg h]
    exact contents_dropRanges bracketed cs

/-! ## All or nothing -/

/-- The required lists of the rules do not fit the strictest limits on length. -/
def InfeasibleRules (minified : Bool) (rules : List Rule) : Prop :=
  Infeasible (demandedLists minified rules) (strictest .minLength rules)
    (strictest .maxLength rules)

instance (minified : Bool) (rules : List Rule) : Decidable (InfeasibleRules minified rules) :=
  decidable_of_iff (anyRange (demandedLists minified rules).flatten = true ∧
      ((lengthLimits rules).exceededBy (demandedLists minified rules).flatten = true ∨
        (lengthLimits rules).missedBy (demandedLists minified rules).flatten = true))
    infeasible_iff.symm

theorem listsIn_merge_of_feasible {minified : Bool} {rules : List Rule}
    (h : ¬InfeasibleRules minified rules) :
    listsIn .required (merge minified rules) = demandedLists minified rules := by
  rw [listsIn_required_merge, listsIn_reconciled_of_none (mergeConflict?_of_feasible h)]
  rfl

theorem listsIn_merge_of_infeasible {minified : Bool} {rules : List Rule}
    (h : InfeasibleRules minified rules) :
    listsIn .required (merge minified rules) =
      (demandedLists minified rules).map ((Conflict.mk (demandedLists minified rules)
        (lengthLimits rules)).remedy.apply minified) := by
  rw [listsIn_required_merge, listsIn_reconciled_of_some (mergeConflict?_of_infeasible h)]
  rfl

/-- **All or nothing**: the merged policy states feasible lists as they are, and the number of
classes that was asked for. Of infeasible lists it keeps the contents, list by list, and no range;
the number of classes is then lowered to the names that are seen, unless all four are. -/
theorem reconciliation_all_or_nothing (minified : Bool) (rules : List Rule) :
    (¬InfeasibleRules minified rules ∧
      listsIn .required (merge minified rules) = demandedLists minified rules ∧
      numbersIn .minClasses (merge minified rules) = [askedMinClasses rules]) ∨
    (InfeasibleRules minified rules ∧
      (∀ cs ∈ listsIn .required (merge minified rules), ∀ c ∈ cs, c.range = none) ∧
      (listsIn .required (merge minified rules)).map contents =
        (demandedLists minified rules).map contents ∧
      numbersIn .minClasses (merge minified rules) =
        [if (namesSeen (demandedLists minified rules)).length < 4 then
          min (askedMinClasses rules)
            (max 1 (namesSeen (demandedLists minified rules)).length.toUInt32)
        else askedMinClasses rules]) := by
  by_cases h : InfeasibleRules minified rules
  · have hconflict := mergeConflict?_of_infeasible h
    have hlists : listsIn .required (merge minified rules) = (demandedLists minified rules).map
        ((Conflict.mk (demandedLists minified rules) (lengthLimits rules)).remedy.apply
          minified) := by
      rw [listsIn_required_merge, listsIn_reconciled_of_some hconflict]
      rfl
    refine .inr ⟨h, fun cs hcs c hc => ?_, ?_, ?_⟩
    · rw [hlists] at hcs
      obtain ⟨ds, -, rfl⟩ := List.mem_map.1 hcs
      exact range_of_mem_remedy hc
    · rw [hlists]
      exact contents_remedy ⟨demandedLists minified rules, lengthLimits rules⟩ minified
    · rw [numbersIn_merge, if_pos rfl, mergedMinClasses, hconflict]
      simp only [unseen_eq_nil_iff, ite_not, Conflict.seen, Conflict.classes, length_namesSeen]
  · have hconflict := mergeConflict?_of_feasible h
    refine .inl ⟨h, ?_, ?_⟩
    · rw [listsIn_required_merge, listsIn_reconciled_of_none hconflict]
      rfl
    · rw [numbersIn_merge, if_pos rfl, mergedMinClasses, hconflict]

end PasswordPolicy
