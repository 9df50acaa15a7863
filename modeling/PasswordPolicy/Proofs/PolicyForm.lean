import PasswordPolicy.Proofs.AllowedAgain
import PasswordPolicy.Proofs.BracketedForm
import PasswordPolicy.Proofs.DocumentEnding
import PasswordPolicy.Proofs.StatedRules

/-!
# The form of a merged policy

**Sections.** A policy states required lists and blocklists first, then what is allowed, then the
limits, each at most once and in a fixed order, and the number of classes last (`PolicyForm`).

**Classes.** No list of classes and no custom class is empty, brackets hold printable characters,
required classes ask for one character at least, and allowed ones ask for none but admit some. In
the minified form brackets can be written just as they are.

Each of these is brought in by another part: the reader leaves out what is empty or not printable,
canonical form puts brackets in order, and merging changes the ranges. A canonical list may be the
list itself or its universal class, so what is said of its classes has to be true of the list
beforehand (`ready_of_mem_canonical`).

Main result: every document that is not abandoned states a policy of this form
(`policy_has_form`).
-/

namespace PasswordPolicy

open Text

/-! ## Forms -/

/-- A dash stands only in the first place between brackets, a closing bracket only in the last. -/
def ClassBody.InOrder : ClassBody → Prop
  | named _ => True
  | custom cs => Grammar.Members cs

structure CharClass.WellFormed (minified : Bool) (c : CharClass) : Prop where
  writable : c.body.Writable
  inOrder : minified = true → c.body.InOrder

/-- A required list or a blocklist of a merged policy. -/
inductive WellFormedDemand (words : List String) (minified : Bool) : Rule → Prop
  | required {cs : List CharClass} : cs ≠ [] → (∀ c ∈ cs, c.WellFormed minified) →
    (∀ c ∈ cs, ∀ r ∈ c.range, 1 ≤ r.least) → WellFormedDemand words minified (.classes .required cs)
  | hibp : WellFormedDemand words minified (.blocklist ["hibp"])
  | fullList : WellFormedDemand words minified (.blocklist words)

structure WellFormedAllowed (minified : Bool) (cs : List CharClass) : Prop where
  nonempty : cs ≠ []
  wellFormed : ∀ c ∈ cs, c.WellFormed minified
  ranges : ∀ c ∈ cs, ∀ r ∈ c.range, r.least = 0 ∧ 1 ≤ r.most

/-- What a merged policy states; `words` is the list that the default blocklist stands for. -/
structure PolicyForm (words : List String) (minified : Bool) where
  demands : List Rule
  allowed : Option (List CharClass)
  maxConsecutive : Option UInt32
  minLength : Option UInt32
  maxLength : Option UInt32
  minClasses : UInt32
  wellFormed_demands : ∀ r ∈ demands, WellFormedDemand words minified r
  wellFormed_allowed : ∀ cs ∈ allowed, WellFormedAllowed minified cs
  /-- Only the minified form may do without. -/
  allowed_stated : minified = false → allowed ≠ none
  one_le_minClasses : 1 ≤ minClasses
  minClasses_le : minClasses ≤ 4

def PolicyForm.rules {words : List String} {minified : Bool} (form : PolicyForm words minified) :
    List Rule :=
  form.demands ++ (form.allowed.map (.classes .allowed)).toList ++
    (form.maxConsecutive.map (.limit .maxConsecutive)).toList ++
    (form.minLength.map (.limit .minLength)).toList ++
    (form.maxLength.map (.limit .maxLength)).toList ++ [.limit .minClasses form.minClasses]

/-! ## Classes -/

/-- The class can be written and, if the form is minified, is written as it stands. -/
def CharClass.Ready (minified : Bool) (c : CharClass) : Prop :=
  c.Writable ∧ (minified = true → c.written = c)

namespace CharClass.Ready

variable {minified : Bool} {c : CharClass}

theorem withoutRange (h : c.Ready minified) : c.withoutRange.Ready minified :=
  ⟨h.1.withoutRange, fun hm => congrArg CharClass.withoutRange (h.2 hm)⟩

theorem atLeastOne (h : c.Ready minified) : c.atLeastOne.Ready minified :=
  ⟨h.1.atLeastOne, fun hm => congrArg CharClass.atLeastOne (h.2 hm)⟩

theorem withoutMinimum (h : c.Ready minified) : c.withoutMinimum.Ready minified :=
  ⟨h.1.withoutMinimum, fun hm => congrArg CharClass.withoutMinimum (h.2 hm)⟩

theorem wellFormed (h : c.Ready minified) : c.WellFormed minified := by
  refine ⟨h.1.1, fun hm => ?_⟩
  obtain ⟨body, range⟩ := c
  cases body with
  | named n => trivial
  | custom cs =>
    have hordered : bracketOrder cs = cs := by
      have hwritten := congrArg CharClass.body (h.2 hm)
      simpa [CharClass.written, ClassBody.written] using hwritten
    have hmembers := members_bracketOrder h.1.1.2
    rw [hordered] at hmembers
    exact hmembers

end CharClass.Ready

section Classes

variable {words : List String} {minified : Bool} {role : Role} {classes : List CharClass}
  {c : CharClass}

theorem ready_of_stated (h : (Rule.classes role classes).Stated words) :
    ∀ c ∈ classes, c.Ready minified := by
  have hwritten : classes.map CharClass.written = classes.map id := by
    rw [map_written_of_stated h, List.map_id]
  exact fun c hc => ⟨h.1.2 c hc, fun _ => List.map_inj_left.1 hwritten c hc⟩

theorem ready_of_mem_canonical (h : ∀ c ∈ classes, c.Ready minified)
    (hc : c ∈ canonical role minified classes) : c.Ready minified := by
  refine ⟨writable_of_mem_canonical (fun d hd => (h d hd).1) hc, ?_⟩
  rintro rfl
  exact written_of_mem_canonical (fun d hd => (h d hd).2 rfl) hc

theorem ready_of_mem_demand (h : ∀ c ∈ classes, c.Ready minified)
    (hc : c ∈ demand minified classes) : c.Ready minified := by
  obtain ⟨d, hd, rfl⟩ := List.mem_map.1 hc
  exact (ready_of_mem_canonical h hd).atLeastOne

theorem one_le_of_mem_demand (hc : c ∈ demand minified classes) {r : CountRange}
    (hr : c.range = some r) : 1 ≤ r.least := by
  obtain ⟨d, -, rfl⟩ := List.mem_map.1 hc
  obtain ⟨s, -, rfl⟩ := Option.map_eq_some_iff.1 hr
  by_cases hless : s.least < 1
  · rw [if_pos hless]
    exact UInt32.le_refl 1
  · rw [if_neg hless]
    exact UInt32.not_lt.1 hless

theorem ready_of_mem_remedy (remedy : Remedy) (h : ∀ c ∈ classes, c.Ready minified)
    (hc : c ∈ remedy.apply minified classes) : c.Ready minified := by
  cases remedy with
  | collapse =>
    rw [List.mem_singleton.1 hc]
    exact ⟨by decide, fun _ => rfl⟩
  | dropRanges =>
    refine ready_of_mem_canonical (fun d hd => ?_) hc
    obtain ⟨e, he, rfl⟩ := List.mem_map.1 hd
    exact (h e he).withoutRange

end Classes

/-! ## Merged policies -/

section Policies

variable {words : List String} {minified : Bool} {rules : List Rule}

theorem wellFormedDemand_of_mem_reconciled (h : ∀ r ∈ rules, r.Stated words) :
    ∀ r ∈ reconciled minified rules, WellFormedDemand words minified r := by
  intro r hr
  have hwritable := writable_of_mem_reconciled (fun q hq => (h q hq).1) r hr
  rcases mem_reconciled_cases hr with ⟨cs, hcs, ds, rfl, hds⟩ | ⟨ws, rfl⟩
  · have hready : ∀ c ∈ demand minified cs, c.Ready minified := fun c =>
      ready_of_mem_demand (ready_of_stated (h _ hcs))
    rcases hds with rfl | ⟨remedy, rfl⟩
    · exact .required hwritable.1 (fun c hc => (hready c hc).wellFormed) fun c hc r hr =>
        one_le_of_mem_demand hc hr
    · refine .required hwritable.1 (fun c hc => ?_) fun c hc r hr => ?_
      · exact (ready_of_mem_remedy remedy hready hc).wellFormed
      · exact absurd hr (by simp [range_of_mem_remedy hc])
  · rcases hwritable with ⟨source, hsource, rfl⟩ | rfl
    · rw [List.mem_singleton.1 hsource]
      exact .hibp
    · exact .fullList

theorem ready_of_mem_copied (h : ∀ r ∈ rules, r.Stated words) :
    ∀ c ∈ copied minified rules, c.Ready minified := by
  unfold copied
  split
  · exact fun c hc => absurd hc List.not_mem_nil
  · intro c hc
    rw [listsIn_demands] at hc
    obtain ⟨d, hd, rfl⟩ := List.mem_map.1 hc
    obtain ⟨ds, hds, hd⟩ := List.mem_flatten.1 hd
    obtain ⟨cs, hcs, rfl⟩ := List.mem_map.1 hds
    exact (ready_of_mem_demand (ready_of_stated (h _ (mem_listsIn_iff.1 hcs))) hd).withoutRange

theorem ready_of_mem_statedAllowed (h : ∀ r ∈ rules, r.Stated words) :
    ∀ c ∈ statedAllowed rules, c.Ready minified := by
  intro c hc
  obtain ⟨d, hd, rfl⟩ := List.mem_map.1 hc
  obtain ⟨cs, hcs, hd⟩ := List.mem_flatten.1 hd
  exact (ready_of_stated (h _ (mem_listsIn_iff.1 hcs)) d hd).withoutMinimum

theorem ready_of_mem_added : ∀ c ∈ added minified rules, c.Ready minified := by
  intro c hc
  have hwritable := writable_of_mem_added c hc
  obtain ⟨b, rfl⟩ := mem_added hc
  exact ⟨hwritable, fun _ => rfl⟩

theorem ready_of_mem_allowedClasses (h : ∀ r ∈ rules, r.Stated words) :
    ∀ c ∈ allowedClasses minified rules, c.Ready minified := by
  refine fun c hc => ready_of_mem_canonical (fun d hd => ?_) hc
  rcases List.mem_append.1 hd with hd | hd
  · rcases List.mem_append.1 hd with hd | hd
    · exact ready_of_mem_copied h d hd
    · exact ready_of_mem_statedAllowed h d hd
  · exact ready_of_mem_added d hd

theorem wellFormed_allowedClasses (h : ∀ r ∈ rules, r.Stated words)
    (hne : allowedClasses minified rules ≠ []) :
    WellFormedAllowed minified (allowedClasses minified rules) := by
  have hready : ∀ c ∈ allowedClasses minified rules, c.Ready minified :=
    ready_of_mem_allowedClasses h
  refine ⟨hne, fun c hc => (hready c hc).wellFormed, fun c hc r hr => ?_⟩
  have hleast : r.least = 0 := least_of_mem_allowedClasses hc hr
  refine ⟨hleast, UInt32.not_lt.1 fun hless => ?_⟩
  exact (hready c hc).1.2 r hr ⟨hleast, UInt32.lt_one_iff.1 hless⟩

theorem wellFormed_allowedRule (h : ∀ r ∈ rules, r.Stated words) :
    ∀ cs ∈ (allowedRule? minified rules).bind Rule.classes?, WellFormedAllowed minified cs := by
  intro cs hcs
  unfold allowedRule? at hcs
  cases hclasses : allowedClasses minified rules with
  | nil =>
    rw [hclasses] at hcs
    cases minified with
    | true => exact absurd hcs (by simp)
    | false =>
      -- Nothing in particular is allowed, so everything is.
      cases hcs
      refine ⟨List.cons_ne_nil _ _, fun c hc => ?_, fun c hc r hr => ?_⟩
      · rw [List.mem_singleton.1 hc]
        exact ⟨trivial, fun hm => (nomatch hm)⟩
      · rw [List.mem_singleton.1 hc] at hr
        cases hr
  | cons c more =>
    rw [hclasses] at hcs
    cases hcs
    have hwellFormed : WellFormedAllowed minified (allowedClasses minified rules) :=
      wellFormed_allowedClasses h (by simp [hclasses])
    rw [hclasses] at hwellFormed
    exact hwellFormed

theorem allowedRule_full_ne_none : (allowedRule? false rules).bind Rule.classes? ≠ none := by
  unfold allowedRule?
  cases allowedClasses false rules <;> exact fun h => (nomatch h)

/-- The form of the policy that the rules of a document are merged into. -/
def formOf (minified : Bool) (h : ∀ r ∈ rules, r.Stated words) : PolicyForm words minified where
  demands := reconciled minified rules
  allowed := (allowedRule? minified rules).bind Rule.classes?
  maxConsecutive := strictest .maxConsecutive rules
  minLength := strictest .minLength rules
  maxLength := strictest .maxLength rules
  minClasses := mergedMinClasses minified rules
  wellFormed_demands := wellFormedDemand_of_mem_reconciled h
  wellFormed_allowed := wellFormed_allowedRule h
  allowed_stated := by
    rintro rfl
    exact allowedRule_full_ne_none
  one_le_minClasses := UInt32.le_iff_toNat_le.2 (toNat_mergedMinClasses minified rules).1
  minClasses_le := UInt32.le_iff_toNat_le.2 (toNat_mergedMinClasses minified rules).2

theorem rules_formOf (h : ∀ r ∈ rules, r.Stated words) :
    (formOf minified h).rules = merge minified rules := by
  show reconciled minified rules ++
    (((allowedRule? minified rules).bind Rule.classes?).map (.classes .allowed)).toList ++ _ ++ _ ++
      _ ++ _ = _
  rw [← allowedRule?_eq]
  rfl

end Policies

/-- **Every policy is well-formed**: a document is abandoned and states no rules, or the policy that
it states has the form of a merged one. -/
theorem policy_has_form (words : List String) (minified : Bool) (text : String) :
    ((readDocument words text.toList).ending = .abandoned ∧ policyOf words minified text = []) ∨
      ∃ form : PolicyForm words minified, policyOf words minified text = form.rules := by
  cases hrules : (readDocument words text.toList).rules? with
  | none =>
    have habandoned := rules?_eq_none_iff.1 hrules
    exact .inl ⟨habandoned, policy_eq_nil_iff.2 habandoned⟩
  | some rules =>
    have hstated := stated_of_mem_rules? hrules
    exact .inr ⟨formOf minified hstated, by rw [policyOf_eq hrules, rules_formOf]⟩

end PasswordPolicy
