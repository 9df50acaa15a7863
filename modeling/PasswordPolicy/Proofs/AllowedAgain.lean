import PasswordPolicy.Proofs.Reread

/-!
# The allowed list of a policy that is read again

The allowed list of a settled policy is collected again from its required lists and from itself. It
comes through if the required lists contribute the same classes as before, and no conflict adds any
(`allowedRule?_reread`).
-/

namespace PasswordPolicy

open Text

variable {words : List String} {minified : Bool} {rules : List Rule}

/-! ## Minimums of allowed classes -/

namespace CharClass

theorem least_withoutMinimum {c : CharClass} {r : CountRange}
    (h : c.withoutMinimum.range = some r) :
    r.least = 0 := by
  obtain ⟨s, -, hs⟩ := Option.bind_eq_some_iff.1 h
  by_cases hleast : 1 ≤ s.least
  · rw [if_pos hleast, CountRange.of?] at hs
    split at hs
    · cases hs
    · cases hs
      rfl
  · rw [if_neg hleast] at hs
    cases hs
    exact UInt32.lt_one_iff.1 (UInt32.not_le.1 hleast)

theorem withoutMinimum_of_least {c : CharClass} (h : ∀ r, c.range = some r → r.least = 0) :
    c.withoutMinimum = c := by
  obtain ⟨body, range⟩ := c
  cases range with
  | none => rfl
  | some r =>
    show CharClass.mk body (if 1 ≤ r.least then CountRange.of? 0 r.most else some r) =
      ⟨body, some r⟩
    rw [h r rfl]
    rfl

end CharClass

/-! ## What is collected -/

/-- The classes that the allowed rules state, without their minimums. -/
def statedAllowed (rules : List Rule) : List CharClass :=
  (listsIn .allowed rules).flatten.map (·.withoutMinimum)

theorem allowedClasses_eq (minified : Bool) (rules : List Rule) : allowedClasses minified rules =
    canonical .allowed minified
      (copied minified rules ++ statedAllowed rules ++ added minified rules) := rfl

theorem copied_minified (rules : List Rule) : copied true rules = [] := rfl

theorem copied_full (rules : List Rule) : copied false rules =
    (listsIn .required (demands false rules)).flatten.map (·.withoutRange) := rfl

theorem range_of_mem_copied {c : CharClass} (h : c ∈ copied minified rules) : c.range = none := by
  unfold copied at h
  split at h
  · exact absurd h List.not_mem_nil
  · obtain ⟨d, -, rfl⟩ := List.mem_map.1 h
    rfl

theorem mem_added {c : CharClass} (h : c ∈ added minified rules) :
    ∃ b : BasicClass, c = .basic b := by
  unfold added at h
  split at h
  · split at h
    · exact absurd h List.not_mem_nil
    · obtain ⟨b, -, rfl⟩ := List.mem_map.1 h
      exact ⟨b, rfl⟩
  · exact absurd h List.not_mem_nil

theorem writable_of_mem_collected (hw : ∀ r ∈ rules, r.Writable words) :
    ∀ c ∈ copied minified rules ++ statedAllowed rules ++ added minified rules, c.Writable := by
  intro c hc
  rcases List.mem_append.1 hc with hc | hc
  · rcases List.mem_append.1 hc with hc | hc
    · exact writable_of_mem_copied hw c hc
    · exact writable_of_mem_stated hw c hc
  · exact writable_of_mem_added c hc

theorem range_of_mem_collected {c : CharClass} {r : CountRange}
    (hc : c ∈ copied minified rules ++ statedAllowed rules ++ added minified rules)
    (hr : c.range = some r) : c ∈ statedAllowed rules := by
  rcases List.mem_append.1 hc with hc | hc
  · rcases List.mem_append.1 hc with hc | hc
    · exact absurd hr (by simp [range_of_mem_copied hc])
    · exact hc
  · obtain ⟨b, rfl⟩ := mem_added hc
    exact absurd hr (by simp [CharClass.basic, CharClass.named])

/-- An allowed class of a merged policy asks for no character. -/
theorem least_of_mem_allowedClasses {c : CharClass} (hc : c ∈ allowedClasses minified rules)
    {r : CountRange} (hr : c.range = some r) : r.least = 0 := by
  obtain ⟨d, hd, hdr⟩ := range_of_mem_canonical hc hr
  obtain ⟨e, -, rfl⟩ := List.mem_map.1 (range_of_mem_collected hd hdr)
  exact CharClass.least_withoutMinimum hdr

/-- The allowed list is collected again as it is written. -/
theorem statedAllowed_reread :
    statedAllowed (reread minified rules) =
      (((allowedRule? minified rules).bind Rule.classes?).getD []).map CharClass.written := by
  have hlists : listsIn .allowed (reread minified rules) =
      ((allowedRule? minified rules).bind Rule.classes?).toList.map
        (List.map CharClass.written) := by
    rw [reread, listsIn_written, listsIn_allowed_merge]
  have hsame : ∀ cs : List CharClass, (∀ c ∈ cs, ∀ r, c.range = some r → r.least = 0) →
      (cs.map CharClass.written).map (·.withoutMinimum) = cs.map CharClass.written := by
    intro cs hcs
    rw [List.map_map]
    exact List.map_congr_left fun c hc => CharClass.withoutMinimum_of_least (hcs c hc)
  unfold statedAllowed
  rw [hlists]
  unfold allowedRule?
  cases hclasses : allowedClasses minified rules with
  | nil => cases minified <;> rfl
  | cons c cs =>
    have hleast := hsame (c :: cs) fun d hd r hr => least_of_mem_allowedClasses (hclasses ▸ hd) hr
    simpa [Rule.classes?] using hleast

theorem added_of_noConflict (h : mergeConflict? minified rules = none) :
    added minified rules = [] := by
  unfold added
  rw [h]

/-- **An allowed list comes through** if the required lists contribute the same classes again and no
conflict adds any. -/
theorem allowedRule?_reread (hw : ∀ r ∈ rules, r.Writable words)
    (hsettled : SettledPolicy minified rules)
    (hcopied : copied minified (reread minified rules) = copied minified rules)
    (hadded : added minified rules = []) :
    allowedRule? minified (reread minified rules) = allowedRule? minified rules := by
  have hwritable : ∀ c ∈ copied minified rules ++ statedAllowed rules, c.Writable := by
    intro c hc
    exact writable_of_mem_collected hw c (List.mem_append_left (added minified rules) hc)
  have hclasses : allowedClasses minified rules =
      canonical .allowed minified (copied minified rules ++ statedAllowed rules) := by
    rw [allowedClasses_eq, hadded, List.append_nil]
  have hagain : allowedClasses minified (reread minified rules) = canonical .allowed minified
      (copied minified rules ++
        (((allowedRule? minified rules).bind Rule.classes?).getD []).map CharClass.written) := by
    rw [allowedClasses_eq, hcopied, statedAllowed_reread, added_of_noConflict hsettled.noConflict,
      List.append_nil]
  cases h : allowedClasses minified rules with
  | nil =>
    -- Nothing was collected at all.
    have hnil : copied minified rules ++ statedAllowed rules = [] := by
      refine Classical.byContradiction fun hne => ?_
      exact canonical_ne_nil hwritable hne (hclasses ▸ h)
    rw [(List.append_eq_nil_iff.1 hnil).1] at hagain
    cases minified with
    | true =>
      have hempty : allowedClasses true (reread true rules) = [] := by
        rw [hagain, allowedRule?, h]
        rfl
      rw [allowedRule?, hempty, allowedRule?, h]
    | false =>
      have hall : allowedClasses false (reread false rules) = [.named .asciiPrintable] := by
        rw [hagain, allowedRule?, h]
        rfl
      rw [allowedRule?, hall, allowedRule?, h]
      rfl
  | cons c cs =>
    have hsame : allowedClasses minified (reread minified rules) = c :: cs := by
      rw [hagain, allowedRule?, h]
      show canonical .allowed minified
        (copied minified rules ++ (c :: cs).map CharClass.written) = _
      rw [← h, hclasses]
      exact canonical_allowed_again (printableOnly_of_writable hwritable)
        fun d hd => range_of_mem_copied hd
    rw [allowedRule?, hsame, allowedRule?, h]

end PasswordPolicy
