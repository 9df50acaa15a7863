import PasswordPolicy.Proofs.DemandsAgain

/-!
# A merged policy as rules

**The rules of a merged policy** can be merged again, in the order of their brackets, as they are
read (`reread`). The limits come through (`strictest_reread`), and so does the number of classes
unless a conflict arises.

**A settled policy** is one whose required lists come through and leave no conflict
(`SettledPolicy`). It comes through as a whole exactly if its allowed list does
(`merge_reread_eq_iff`).
-/

namespace PasswordPolicy

variable {minified : Bool} {rules : List Rule}

/-- The rules of the merged policy as they are written. -/
def reread (minified : Bool) (rules : List Rule) : List Rule :=
  (merge minified rules).map Rule.written

/-! ## Reading off what is written -/

theorem listsIn_written (role : Role) (rules : List Rule) :
    listsIn role (rules.map Rule.written) =
      (listsIn role rules).map (List.map CharClass.written) := by
  unfold listsIn
  rw [List.filterMap_map, List.map_filterMap]
  congr 1
  funext r
  rcases r with ⟨role', cs⟩ | _ | _
  · by_cases h : role' = role <;> simp [Rule.written, h]
  · rfl
  · rfl

theorem numbersIn_written (l : Limit) (rules : List Rule) :
    numbersIn l (rules.map Rule.written) = numbersIn l rules := by
  unfold numbersIn
  rw [List.filterMap_map]
  congr 1
  funext r
  rcases r with _ | _ | _ <;> rfl

/-! ## Limits -/

theorem strictest_reread {l : Limit} (h : l ≠ .minClasses) :
    strictest l (reread minified rules) = strictest l rules := by
  have hnumbers : numbersIn l (reread minified rules) = (strictest l rules).toList := by
    rw [reread, numbersIn_written, numbersIn_merge, if_neg h]
  generalize strictest l rules = n at hnumbers
  cases l with
  | minClasses => exact absurd rfl h
  | maxConsecutive | minLength | maxLength =>
    unfold strictest
    rw [hnumbers]
    cases n <;> rfl

theorem lengthLimits_reread : lengthLimits (reread minified rules) = lengthLimits rules := by
  unfold lengthLimits
  rw [strictest_reread (by decide), strictest_reread (by decide)]

theorem limitRule?_reread {l : Limit} (h : l ≠ .minClasses) :
    limitRule? l (reread minified rules) = limitRule? l rules := by
  rw [limitRule?, strictest_reread h, limitRule?]

theorem toNat_askedMinClasses (rules : List Rule) :
    1 ≤ (askedMinClasses rules).toNat ∧ (askedMinClasses rules).toNat ≤ 4 := by
  have hone : (1 : UInt32).toNat = 1 := rfl
  have hfour : allClasses.toNat = 4 := rfl
  rw [askedMinClasses, UInt32.toNat_max, UInt32.toNat_min]
  omega

/-- The number of classes of a merged policy is one at least and four at most. -/
theorem toNat_mergedMinClasses (minified : Bool) (rules : List Rule) :
    1 ≤ (mergedMinClasses minified rules).toNat ∧ (mergedMinClasses minified rules).toNat ≤ 4 := by
  have hasked := toNat_askedMinClasses rules
  have hone : (1 : UInt32).toNat = 1 := rfl
  unfold mergedMinClasses
  split
  · split
    · exact hasked
    · rw [UInt32.toNat_min, UInt32.toNat_max]
      omega
  · exact hasked

theorem askedMinClasses_reread :
    askedMinClasses (reread minified rules) = mergedMinClasses minified rules := by
  have hnumbers : numbersIn .minClasses (reread minified rules) =
      [mergedMinClasses minified rules] := by
    rw [reread, numbersIn_written, numbersIn_merge, if_pos rfl]
  have hbounds := toNat_mergedMinClasses minified rules
  have hone : (1 : UInt32).toNat = 1 := rfl
  have hfour : allClasses.toNat = 4 := rfl
  rw [askedMinClasses, strictest, hnumbers]
  refine UInt32.toNat_inj.1 ?_
  rw [UInt32.toNat_max, UInt32.toNat_min]
  show max (1 : UInt32).toNat (min allClasses.toNat (mergedMinClasses minified rules).toNat) = _
  omega

/-! ## Required lists and blocklists -/

/-- The rule comes through: it is a required list that is in canonical form when it is read, or a
blocklist. -/
def Rule.Settled (minified : Bool) : Rule → Prop
  | classes .required cs => demand minified (cs.map CharClass.written) = cs
  | blocklist _ => True
  | _ => False

theorem demands_written {standing : List Rule} (h : ∀ r ∈ standing, r.Settled minified) :
    demands minified (standing.map Rule.written) = standing := by
  induction standing with
  | nil => rfl
  | cons r standing ih =>
    have hr := h r List.mem_cons_self
    have hrest := ih fun q hq => h q (List.mem_cons_of_mem r hq)
    rw [List.map_cons, ← List.singleton_append, demands_append, hrest]
    rcases r with ⟨⟨⟩, cs⟩ | _ | ws
    · exact congrArg (fun ds => Rule.classes .required ds :: standing) hr
    · exact hr.elim
    · exact hr.elim
    · rfl

/-- Of a merged policy only the required lists and blocklists matter to those of the next one. -/
theorem demands_reread :
    demands minified (reread minified rules) =
      demands minified ((reconciled minified rules).map Rule.written) := by
  have hallowed :
      demands minified ((allowedRule? minified rules).toList.map Rule.written) = [] := by
    rcases allowedRule?_cases minified rules with h | ⟨cs, h⟩ <;> rw [h] <;> rfl
  have hlimit : ∀ l, demands minified ((limitRule? l rules).toList.map Rule.written) = [] := by
    intro l
    unfold limitRule?
    cases strictest l rules <;> rfl
  unfold reread merge
  simp only [List.map_append, demands_append, hallowed, hlimit, List.append_nil]
  exact List.append_nil _

/-- What comes through the second time, if a conflict does not arise then. -/
structure SettledPolicy (minified : Bool) (rules : List Rule) : Prop where
  demands : demands minified (reread minified rules) = reconciled minified rules
  noConflict : mergeConflict? minified (reread minified rules) = none

/-- An allowed rule is its list. -/
theorem allowedRule?_eq (minified : Bool) (rules : List Rule) :
    allowedRule? minified rules =
      ((allowedRule? minified rules).bind Rule.classes?).map (.classes .allowed) := by
  rcases allowedRule?_cases minified rules with h | ⟨cs, h⟩ <;> rw [h] <;> rfl

theorem merge_reread_eq_iff (h : SettledPolicy minified rules) :
    merge minified (reread minified rules) = merge minified rules ↔
      allowedRule? minified (reread minified rules) = allowedRule? minified rules := by
  constructor
  · intro hmerge
    have hlists := congrArg (listsIn .allowed) hmerge
    rw [listsIn_allowed_merge, listsIn_allowed_merge] at hlists
    have hlist : (allowedRule? minified (reread minified rules)).bind Rule.classes? =
        (allowedRule? minified rules).bind Rule.classes? := by
      simpa using congrArg List.head? hlists
    rw [allowedRule?_eq, hlist, ← allowedRule?_eq]
  · intro hallowed
    have hmin : mergedMinClasses minified (reread minified rules) =
        mergedMinClasses minified rules := by
      rw [mergedMinClasses, h.noConflict]
      exact askedMinClasses_reread
    unfold merge
    rw [reconciled_of_none h.noConflict, h.demands, hallowed, hmin, limitRule?_reread (by decide),
      limitRule?_reread (by decide), limitRule?_reread (by decide)]

end PasswordPolicy
