import Mathlib.Data.List.Basic
import PasswordPolicy.Rule.Merge

/-!
# Reading off a merged policy

A merged policy is one list of rules. What it says of each kind is read off again with `listsIn` and
`numbersIn`: its required lists are those of `reconciled`, its only allowed list is `allowedClasses`
where that is stated, and of each limit it gives at most one number, the strictest.
-/

namespace PasswordPolicy

variable {minified : Bool} {rules : List Rule}

/-! ## One kind of a longer list -/

@[simp]
theorem listsIn_append (role : Role) (xs ys : List Rule) :
    listsIn role (xs ++ ys) = listsIn role xs ++ listsIn role ys :=
  List.filterMap_append

@[simp]
theorem numbersIn_append (l : Limit) (xs ys : List Rule) :
    numbersIn l (xs ++ ys) = numbersIn l xs ++ numbersIn l ys :=
  List.filterMap_append

theorem demands_append (xs ys : List Rule) :
    demands minified (xs ++ ys) = demands minified xs ++ demands minified ys :=
  List.filterMap_append

/-! ## Required lists and blocklists -/

theorem listsIn_demands :
    listsIn .required (demands minified rules) =
      (listsIn .required rules).map (demand minified) := by
  unfold listsIn demands
  rw [List.filterMap_filterMap, List.map_filterMap]
  congr 1
  funext r
  rcases r with ⟨⟨⟩, cs⟩ | _ | _ <;> rfl

theorem mem_demands_cases {r : Rule} (h : r ∈ demands minified rules) :
    (∃ cs, .classes .required cs ∈ rules ∧ r = .classes .required (demand minified cs)) ∨
      ∃ ws, r = .blocklist ws := by
  obtain ⟨q, hq, heq⟩ := List.mem_filterMap.1 h
  rcases q with ⟨⟨⟩, cs⟩ | _ | ws
  · cases heq
    exact .inl ⟨cs, hq, rfl⟩
  · cases heq
  · cases heq
  · cases heq
    exact .inr ⟨ws, rfl⟩

theorem listsIn_mapRequired (f : List CharClass → List CharClass) :
    listsIn .required (rules.map (·.mapRequired f)) = (listsIn .required rules).map f := by
  unfold listsIn
  rw [List.filterMap_map, List.map_filterMap]
  congr 1
  funext r
  rcases r with ⟨⟨⟩, cs⟩ | _ | _ <;> rfl

theorem reconciled_of_none (h : mergeConflict? minified rules = none) :
    reconciled minified rules = demands minified rules := by
  unfold reconciled
  rw [h]

theorem reconciled_of_some {conflict : Conflict}
    (h : mergeConflict? minified rules = some conflict) :
    reconciled minified rules =
      (demands minified rules).map (·.mapRequired (conflict.remedy.apply minified)) := by
  unfold reconciled
  rw [h]

theorem listsIn_reconciled_of_none (h : mergeConflict? minified rules = none) :
    listsIn .required (reconciled minified rules) =
      (listsIn .required rules).map (demand minified) := by
  rw [reconciled_of_none h, listsIn_demands]

theorem listsIn_reconciled_of_some {conflict : Conflict}
    (h : mergeConflict? minified rules = some conflict) :
    listsIn .required (reconciled minified rules) =
      ((listsIn .required rules).map (demand minified)).map (conflict.remedy.apply minified) := by
  rw [reconciled_of_some h, listsIn_mapRequired, listsIn_demands]

/-- Before the other rules stand blocklists and required lists, these changed by a remedy if there
is a conflict. -/
theorem mem_reconciled_cases {r : Rule} (h : r ∈ reconciled minified rules) :
    (∃ cs, .classes .required cs ∈ rules ∧ ∃ ds, r = .classes .required ds ∧
        (ds = demand minified cs ∨
          ∃ remedy : Remedy, ds = remedy.apply minified (demand minified cs))) ∨
      ∃ ws, r = .blocklist ws := by
  unfold reconciled at h
  split at h
  · rcases mem_demands_cases h with ⟨cs, hcs, rfl⟩ | ⟨ws, rfl⟩
    · exact .inl ⟨cs, hcs, _, rfl, .inl rfl⟩
    · exact .inr ⟨ws, rfl⟩
  · next conflict _ =>
    obtain ⟨q, hq, rfl⟩ := List.mem_map.1 h
    rcases mem_demands_cases hq with ⟨cs, hcs, rfl⟩ | ⟨ws, rfl⟩
    · exact .inl ⟨cs, hcs, _, rfl, .inr ⟨conflict.remedy, rfl⟩⟩
    · exact .inr ⟨ws, rfl⟩

theorem listsIn_allowed_reconciled : listsIn .allowed (reconciled minified rules) = [] := by
  refine List.filterMap_eq_nil_iff.2 fun r hr => ?_
  rcases mem_reconciled_cases hr with ⟨-, -, ds, rfl, -⟩ | ⟨ws, rfl⟩ <;> rfl

theorem numbersIn_reconciled (l : Limit) : numbersIn l (reconciled minified rules) = [] := by
  refine List.filterMap_eq_nil_iff.2 fun r hr => ?_
  rcases mem_reconciled_cases hr with ⟨-, -, ds, rfl, -⟩ | ⟨ws, rfl⟩ <;> rfl

/-! ## The stricter of two numbers -/

instance instLawfulOrderMaxUInt32 : Std.LawfulOrderMax UInt32 where
  max_eq_or a b := by
    simp only [← UInt32.toNat_inj, UInt32.toNat_max]
    omega
  max_le_iff a b c := by
    simp only [UInt32.le_iff_toNat_le, UInt32.toNat_max]
    omega

/-! ## The other rules -/

theorem mem_limitRule {l : Limit} {r : Rule} (h : r ∈ (limitRule? l rules).toList) :
    ∃ n, strictest l rules = some n ∧ r = .limit l n := by
  obtain ⟨n, hn, rfl⟩ := Option.map_eq_some_iff.1 (Option.mem_toList.1 h)
  exact ⟨n, hn, rfl⟩

theorem listsIn_limitRule (role : Role) (l : Limit) :
    listsIn role (limitRule? l rules).toList = [] := by
  unfold limitRule?
  cases strictest l rules <;> rfl

theorem numbersIn_limitRule (k l : Limit) :
    numbersIn k (limitRule? l rules).toList = if l = k then (strictest l rules).toList else [] := by
  unfold limitRule?
  cases strictest l rules with
  | none => simp [numbersIn]
  | some n =>
    by_cases h : l = k
    · simp [numbersIn, h]
    · simp [numbersIn, h]

theorem allowedRule?_cases (minified : Bool) (rules : List Rule) :
    allowedRule? minified rules = none ∨
      ∃ cs, allowedRule? minified rules = some (.classes .allowed cs) := by
  unfold allowedRule?
  cases allowedClasses minified rules with
  | nil =>
    cases minified with
    | false => exact .inr ⟨_, rfl⟩
    | true => exact .inl rfl
  | cons c cs => exact .inr ⟨c :: cs, rfl⟩

theorem listsIn_allowedRule (role : Role) :
    listsIn role (allowedRule? minified rules).toList =
      if role = .allowed then ((allowedRule? minified rules).bind Rule.classes?).toList
      else [] := by
  rcases allowedRule?_cases minified rules with h | ⟨cs, h⟩ <;> rw [h] <;> cases role <;> rfl

theorem numbersIn_allowedRule (l : Limit) :
    numbersIn l (allowedRule? minified rules).toList = [] := by
  rcases allowedRule?_cases minified rules with h | ⟨cs, h⟩ <;> rw [h] <;> rfl

/-! ## The merged policy -/

theorem listsIn_required_merge :
    listsIn .required (merge minified rules) = listsIn .required (reconciled minified rules) := by
  unfold merge
  simp only [listsIn_append, listsIn_limitRule, listsIn_allowedRule]
  simp [listsIn]

theorem listsIn_allowed_merge :
    listsIn .allowed (merge minified rules) =
      ((allowedRule? minified rules).bind Rule.classes?).toList := by
  unfold merge
  simp only [listsIn_append, listsIn_limitRule, listsIn_allowedRule, listsIn_allowed_reconciled]
  simp [listsIn]

theorem numbersIn_merge (l : Limit) :
    numbersIn l (merge minified rules) =
      if l = .minClasses then [mergedMinClasses minified rules]
      else (strictest l rules).toList := by
  unfold merge
  simp only [numbersIn_append, numbersIn_limitRule, numbersIn_allowedRule, numbersIn_reconciled]
  cases l <;> simp [numbersIn]

end PasswordPolicy
