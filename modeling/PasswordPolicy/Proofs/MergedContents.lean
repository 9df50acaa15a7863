import PasswordPolicy.Proofs.Overriding

/-!
# What a merged policy contains

Merging regroups classes, drops ranges and joins lists, but it keeps the characters. The contents of
a list, its printable characters in code order (`contents`), are followed through every step:
canonical form, demands, remedies, and the collection of what may be used.

Main result: each required list contains what it was stated with, the allowed list of the minified
form what the allowed lists were stated with, and that of the full form what all lists were stated
with, unless it has to allow everything (`merge_keeps_contents`).
-/

namespace PasswordPolicy

open Text

/-! ## Contents of lists -/

section Lists

variable {classes : List CharClass} {ch : Char}

theorem mem_contents_iff : ch ∈ contents classes ↔
    isPrintable ch = true ∧ covers classes ch = true := by
  rw [contents, List.mem_filter, mem_printable_iff]

theorem covers_append (xs ys : List CharClass) (ch : Char) :
    covers (xs ++ ys) ch = (covers xs ch || covers ys ch) :=
  List.any_append

theorem covers_flatten (lists : List (List CharClass)) (ch : Char) :
    covers lists.flatten ch = lists.any (covers · ch) := by
  unfold covers
  rw [List.any_flatten]

/-- Only the bodies of classes matter to what they cover. -/
theorem covers_map (f : CharClass → CharClass) (hf : ∀ c, (f c).body = c.body)
    (classes : List CharClass) (ch : Char) : covers (classes.map f) ch = covers classes ch := by
  unfold covers
  rw [List.any_map]
  congr 1
  funext c
  show (f c).body.contains ch = c.body.contains ch
  rw [hf]

/-- Lists of the same contents, one by one, cover the same printable characters together. -/
theorem covers_flatten_congr {xss yss : List (List CharClass)}
    (h : xss.map contents = yss.map contents) (hp : isPrintable ch = true) :
    covers xss.flatten ch = covers yss.flatten ch := by
  have hany : ∀ lists : List (List CharClass),
      covers lists.flatten ch = (lists.map contents).any (·.contains ch) := by
    intro lists
    rw [covers_flatten, List.any_map]
    congr 1
    funext cs
    rw [Bool.eq_iff_iff, Function.comp_apply, List.contains_iff_mem, mem_contents_iff]
    exact (and_iff_right hp).symm
  rw [hany, hany, h]

theorem contents_ne_nil {c : CharClass} (hc : c ∈ classes) (hw : c.Writable) :
    contents classes ≠ [] := by
  obtain ⟨ch, hch, hp⟩ := CharClass.exists_contains_of_writable hw
  exact List.ne_nil_of_mem (mem_contents_iff.2 ⟨hp, covers_iff.2 ⟨c, hc, hch⟩⟩)

theorem contents_eq_printable (h : ∀ ch, isPrintable ch = true → covers classes ch = true) :
    contents classes = printable :=
  List.filter_eq_self.2 fun ch hch => h ch (mem_printable_iff.1 hch)

theorem contents_of_isUniversal {c : CharClass} (h : c.isUniversal = true) :
    contents [c] = printable :=
  contents_eq_printable fun _ hp =>
    covers_iff.2 ⟨c, List.mem_singleton_self c, CharClass.contains_of_isUniversal h hp⟩

theorem contents_canonical (role : Role) (bracketed : Bool) (classes : List CharClass) :
    contents (canonical role bracketed classes) = contents classes :=
  contents_congr fun _ hp => covers_canonical role bracketed classes hp

end Lists

variable {minified : Bool} {rules : List Rule}

/-! ## Required lists -/

theorem contents_demand (classes : List CharClass) :
    contents (demand minified classes) = contents classes := by
  have hraised : contents (demand minified classes) =
      contents (canonical .required minified classes) :=
    contents_congr fun ch _ => covers_map CharClass.atLeastOne (fun _ => rfl) _ ch
  rw [hraised, contents_canonical]

theorem contents_demandedLists :
    (demandedLists minified rules).map contents = (listsIn .required rules).map contents := by
  rw [demandedLists, List.map_map]
  exact List.map_congr_left fun cs _ => contents_demand cs

/-- Each required list keeps its contents, whether its ranges are kept, dropped or collapsed. -/
theorem contents_required_merge (minified : Bool) (rules : List Rule) :
    (listsIn .required (merge minified rules)).map contents =
      (listsIn .required rules).map contents := by
  by_cases h : InfeasibleRules minified rules
  · rw [listsIn_merge_of_infeasible h, ← contents_demandedLists]
    exact contents_remedy ⟨demandedLists minified rules, lengthLimits rules⟩ minified
  · rw [listsIn_merge_of_feasible h, contents_demandedLists]

/-! ## The allowed list -/

section Collected

variable {ch : Char}

theorem covers_statedAllowed (rules : List Rule) (ch : Char) :
    covers (statedAllowed rules) ch = covers (listsIn .allowed rules).flatten ch :=
  covers_map CharClass.withoutMinimum (fun _ => rfl) _ ch

theorem covers_copied (hp : isPrintable ch = true) :
    covers (copied false rules) ch = covers (listsIn .required rules).flatten ch := by
  rw [copied_full, covers_withoutRange, listsIn_demands]
  exact covers_flatten_congr contents_demandedLists hp

theorem added_minified (rules : List Rule) : added true rules = [] := by
  unfold added
  split <;> rfl

/-- The minified form allows what the allowed lists were stated with. -/
theorem contents_allowedClasses_minified (rules : List Rule) :
    contents (allowedClasses true rules) = contents (listsIn .allowed rules).flatten := by
  rw [allowedClasses_eq, copied_minified, added_minified, List.nil_append, List.append_nil,
    contents_canonical]
  exact contents_congr fun ch _ => covers_statedAllowed rules ch

/-- Without a conflict the full form allows what all lists were stated with. -/
theorem contents_allowedClasses_of_feasible (h : ¬InfeasibleRules false rules) :
    contents (allowedClasses false rules) =
      contents (listsIn .required rules ++ listsIn .allowed rules).flatten := by
  rw [allowedClasses_eq, added_of_noConflict (mergeConflict?_of_feasible h), List.append_nil,
    contents_canonical]
  refine contents_congr fun ch hp => ?_
  rw [covers_append, covers_copied hp, covers_statedAllowed, List.flatten_append, covers_append]

theorem contents_allowedClasses_of_infeasible (h : InfeasibleRules false rules) :
    contents (allowedClasses false rules) = printable := by
  rw [allowedClasses_of_infeasible h]
  exact contents_of_isUniversal (isUniversal_allowedUniversal rules)

end Collected

/-- As documents state them: no list is empty, brackets hold printable characters, at least one, and
no range is zero throughout. -/
def WritableLists (rules : List Rule) : Prop :=
  ∀ role, ∀ cs ∈ listsIn role rules, cs ≠ [] ∧ ∀ c ∈ cs, c.Writable

theorem WritableLists.contents_flatten_ne_nil (h : WritableLists rules) {role : Role}
    {lists : List (List CharClass)} (hne : listsIn role rules ≠ [])
    (hsub : ∀ cs ∈ listsIn role rules, cs ∈ lists) : contents lists.flatten ≠ [] := by
  obtain ⟨cs, more, hlists⟩ := List.exists_cons_of_ne_nil hne
  have hcs : cs ∈ listsIn role rules := hlists ▸ List.mem_cons_self
  obtain ⟨hcsne, hw⟩ := h role cs hcs
  obtain ⟨c, others, rfl⟩ := List.exists_cons_of_ne_nil hcsne
  have hc : c ∈ c :: others := List.mem_cons_self
  exact contents_ne_nil (List.mem_flatten.2 ⟨_, hsub _ hcs, hc⟩) (hw c hc)

theorem allowedClasses_ne_nil (h : contents (allowedClasses minified rules) ≠ []) :
    allowedClasses minified rules ≠ [] := by
  intro hnil
  rw [hnil] at h
  exact h (by decide)

theorem listsIn_allowed_merge_of_ne_nil (h : allowedClasses minified rules ≠ []) :
    listsIn .allowed (merge minified rules) = [allowedClasses minified rules] := by
  rw [listsIn_allowed_merge]
  unfold allowedRule?
  cases hclasses : allowedClasses minified rules with
  | nil => exact absurd hclasses h
  | cons c cs => rfl

theorem listsIn_allowed_merge_of_nil (h : allowedClasses minified rules = []) :
    listsIn .allowed (merge minified rules) =
      if minified then [] else [[.named .asciiPrintable]] := by
  rw [listsIn_allowed_merge]
  unfold allowedRule?
  rw [h]
  cases minified <;> rfl

theorem canonical_nil (role : Role) (bracketed : Bool) : canonical role bracketed [] = [] := by
  cases role <;> cases bracketed <;> decide

/-- The minified form has an allowed rule exactly if one was stated, and with the same contents. -/
theorem contents_allowed_merge_minified (h : WritableLists rules) :
    (listsIn .allowed (merge true rules)).map contents =
      if listsIn .allowed rules = [] then [] else [contents (listsIn .allowed rules).flatten] := by
  have hcontents := contents_allowedClasses_minified rules
  by_cases hnone : listsIn .allowed rules = []
  · have hnil : allowedClasses true rules = [] := by
      rw [allowedClasses_eq, copied_minified, added_minified, statedAllowed, hnone]
      exact canonical_nil .allowed true
    rw [if_pos hnone, listsIn_allowed_merge_of_nil hnil]
    rfl
  · have hne := h.contents_flatten_ne_nil hnone fun _ hcs => hcs
    rw [← hcontents] at hne
    rw [if_neg hnone, listsIn_allowed_merge_of_ne_nil (allowedClasses_ne_nil hne), ← hcontents]
    rfl

/-- Everything is allowed after a conflict, and where nothing at all was stated. -/
def AllowsEverything (rules : List Rule) : Prop :=
  InfeasibleRules false rules ∨ listsIn .required rules = [] ∧ listsIn .allowed rules = []

instance (rules : List Rule) : Decidable (AllowsEverything rules) :=
  inferInstanceAs (Decidable (_ ∨ _))

/-- The full form has one allowed rule, with the contents of everything that was stated. -/
theorem exists_allowed_merge_full (h : WritableLists rules) :
    ∃ allowed, listsIn .allowed (merge false rules) = [allowed] ∧
      contents allowed = if AllowsEverything rules then printable
        else contents (listsIn .required rules ++ listsIn .allowed rules).flatten := by
  by_cases hinfeasible : InfeasibleRules false rules
  · have hcontents := contents_allowedClasses_of_infeasible hinfeasible
    have hne : allowedClasses false rules ≠ [] := by
      refine allowedClasses_ne_nil ?_
      rw [hcontents]
      exact List.cons_ne_nil _ _
    have hall : AllowsEverything rules := .inl hinfeasible
    exact ⟨_, listsIn_allowed_merge_of_ne_nil hne, by rw [if_pos hall, hcontents]⟩
  · have hcontents := contents_allowedClasses_of_feasible hinfeasible
    by_cases hnone : listsIn .required rules = [] ∧ listsIn .allowed rules = []
    · have hnil : allowedClasses false rules = [] := by
        rw [allowedClasses_eq, added_of_noConflict (mergeConflict?_of_feasible hinfeasible),
          copied_full, listsIn_demands, statedAllowed, hnone.1, hnone.2]
        exact canonical_nil .allowed false
      have hall : AllowsEverything rules := .inr hnone
      refine ⟨_, listsIn_allowed_merge_of_nil hnil, ?_⟩
      rw [if_pos hall]
      exact contents_of_isUniversal rfl
    · have hne : contents (listsIn .required rules ++ listsIn .allowed rules).flatten ≠ [] := by
        by_cases hrequired : listsIn .required rules = []
        · have hallowed := fun heq => hnone ⟨hrequired, heq⟩
          exact h.contents_flatten_ne_nil hallowed fun _ hcs => List.mem_append_right _ hcs
        · exact h.contents_flatten_ne_nil hrequired fun _ hcs => List.mem_append_left _ hcs
      have hrest : ¬AllowsEverything rules := by
        rintro (hi | hn)
        · exact hinfeasible hi
        · exact hnone hn
      rw [← hcontents] at hne
      exact ⟨_, listsIn_allowed_merge_of_ne_nil (allowedClasses_ne_nil hne), by
        rw [if_neg hrest, hcontents]⟩

/-- **Merging keeps the characters.** Every required list of the merged policy contains what it was
stated with. The minified form allows what was allowed, if anything was. The full form has one
allowed list, of everything that was stated or, after a conflict or where nothing was stated, of
all printable characters; so every required character is allowed. -/
theorem merge_keeps_contents (rules : List Rule) (h : WritableLists rules) :
    (∀ minified, (listsIn .required (merge minified rules)).map contents =
        (listsIn .required rules).map contents) ∧
      (listsIn .allowed (merge true rules)).map contents =
        (if listsIn .allowed rules = [] then [] else
          [contents (listsIn .allowed rules).flatten]) ∧
      ∃ allowed, listsIn .allowed (merge false rules) = [allowed] ∧
        contents allowed = (if AllowsEverything rules then printable
          else contents (listsIn .required rules ++ listsIn .allowed rules).flatten) ∧
        ∀ required ∈ listsIn .required (merge false rules),
          contents required ⊆ contents allowed := by
  refine ⟨fun minified => contents_required_merge minified rules,
    contents_allowed_merge_minified h, ?_⟩
  obtain ⟨allowed, hmerge, hcontents⟩ := exists_allowed_merge_full h
  refine ⟨allowed, hmerge, hcontents, fun required hrequired ch hch => ?_⟩
  obtain ⟨hp, hcovers⟩ := mem_contents_iff.1 hch
  rw [hcontents]
  split
  · exact mem_printable_iff.2 hp
  · refine mem_contents_iff.2 ⟨hp, ?_⟩
    have hstated : covers (listsIn .required rules).flatten ch = true := by
      rw [← covers_flatten_congr (contents_required_merge false rules) hp, covers_flatten]
      exact List.any_eq_true.2 ⟨required, hrequired, hcovers⟩
    rw [List.flatten_append, covers_append, hstated, Bool.true_or]

/-- Two required lists that fit the longest password, and allowed lists with and without a range. -/
def mixedRules : List Rule :=
  [.classes .required [⟨.named (.basic .upper), some ⟨0, 2⟩⟩, .custom ['b', 'a', 'b', ']']],
    .classes .allowed [⟨.named (.basic .digit), some ⟨1, 3⟩⟩], .blocklist ["secret"],
    .classes .required [.custom ['-', '7']], .limit .maxLength 300,
    .classes .allowed [.named (.basic .lower)]]

theorem mixedRules_keep_contents :
    WritableLists mixedRules ∧
      (∀ minified, (listsIn .required (merge minified mixedRules)).map contents =
        ["ABCDEFGHIJKLMNOPQRSTUVWXYZ]ab".toList, "-7".toList]) ∧
      (listsIn .allowed (merge true mixedRules)).map contents =
        ["0123456789abcdefghijklmnopqrstuvwxyz".toList] ∧
      ∃ allowed, listsIn .allowed (merge false mixedRules) = [allowed] ∧ contents allowed =
        "-0123456789ABCDEFGHIJKLMNOPQRSTUVWXYZ]abcdefghijklmnopqrstuvwxyz".toList := by
  have hw : WritableLists mixedRules := by
    intro role
    cases role <;> decide
  obtain ⟨hrequired, hminified, allowed, hfull, hcontents, -⟩ := merge_keeps_contents mixedRules hw
  refine ⟨hw, fun minified => (hrequired minified).trans ?_, hminified.trans ?_,
    allowed, hfull, hcontents.trans ?_⟩
  · decide
  · decide
  · decide

end PasswordPolicy
