import PasswordPolicy.Proofs.AllowedAgain

/-!
# Overridden ranges

After a conflict the full form allows all four basic classes, so its allowed list is one universal
class: the first that is brought up, required classes before allowed ones, or else all printable
characters. When the policy is read again, a required list that has collapsed into all printable
characters brings them up without a range. If the allowed list gave them a range that no required
list stood in the way of, that range is overridden (`Overridden`).

Main result: the allowed list comes through exactly if its range is not overridden
(`allowedRule?_reread_iff`).
-/

namespace PasswordPolicy

open Text

/-! ## The first universal class -/

section Universal

variable {xs ys : List CharClass} {c x : CharClass}

theorem CharClass.eq_of_name? {n : ClassName} (hc : c.name? = some n) (hx : x.name? = some n)
    (hr : c.range = x.range) : c = x := by
  obtain ⟨body, range⟩ := c
  obtain ⟨body', range'⟩ := x
  obtain rfl : body = .named n := body_of_name? hc
  obtain rfl : body' = .named n := body_of_name? hx
  obtain rfl : range = range' := hr
  rfl

theorem CharClass.name?_of_isUniversal (h : c.isUniversal = true) :
    c.name? = some .unicode ∨ c.name? = some .asciiPrintable := by
  obtain ⟨n, hn, hu⟩ := (Option.any_eq_true _ _).1 h
  cases n with
  | basic b => exact absurd hu (by simp [ClassName.isUniversal])
  | asciiPrintable => exact .inr hn
  | unicode => exact .inl hn

theorem CharClass.isUniversal_of_name? {n : ClassName} (h : c.name? = some n)
    (hn : n.isUniversal = true) : c.isUniversal = true := by
  rw [isUniversal, h]
  exact hn

theorem exists_universal? (hc : c ∈ xs) (hu : c.isUniversal = true) :
    ∃ x, universal? xs = some x := by
  refine Option.ne_none_iff_exists'.1 fun hnone => ?_
  have hnot := universal?_eq_none_iff.1 hnone c hc
  rw [hu] at hnot
  cases hnot

theorem universal?_append_of_none_right (h : universal? ys = none) :
    universal? (xs ++ ys) = universal? xs := by
  unfold universal? at h ⊢
  obtain ⟨hu, ha⟩ := Option.or_eq_none_iff.1 h
  rw [List.find?_append, List.find?_append, hu, ha, Option.or_none, Option.or_none]

/-- All of Unicode is found before anything else. -/
theorem name?_of_universal? (h : universal? xs = some x) (hc : c ∈ xs)
    (hname : c.name? = some .unicode) : x.name? = some .unicode := by
  have hsome : (xs.find? (·.name? == some .unicode)).isSome = true :=
    List.find?_isSome.2 ⟨c, hc, by simp [hname]⟩
  obtain ⟨y, hy⟩ := Option.isSome_iff_exists.1 hsome
  unfold universal? at h
  rw [hy, Option.some_or, Option.some.injEq] at h
  subst h
  simpa using List.find?_some hy

/-- Of classes of one name the first is found. -/
theorem mem_left_of_universal? (h : universal? (xs ++ ys) = some x) (hc : c ∈ xs)
    (hname : c.name? = x.name?) : x ∈ xs := by
  have hx := (mem_of_universal? h).2
  unfold universal? at h
  rw [List.find?_append, List.find?_append] at h
  rcases CharClass.name?_of_isUniversal hx with hux | hax
  · have hsome : (xs.find? (·.name? == some .unicode)).isSome = true :=
      List.find?_isSome.2 ⟨c, hc, by simp [hname, hux]⟩
    obtain ⟨y, hy⟩ := Option.isSome_iff_exists.1 hsome
    rw [hy, Option.some_or, Option.some_or, Option.some.injEq] at h
    exact h ▸ List.mem_of_find?_eq_some hy
  · have hcu := CharClass.isUniversal_of_name? (hname.trans hax) rfl
    have hsome : (xs.find? (·.isUniversal)).isSome = true := List.find?_isSome.2 ⟨c, hc, hcu⟩
    obtain ⟨y, hy⟩ := Option.isSome_iff_exists.1 hsome
    cases hunicode : (xs.find? (·.name? == some .unicode)).or
      (ys.find? (·.name? == some .unicode)) with
    | some z =>
      rw [hunicode, Option.some_or, Option.some.injEq] at h
      have hz : z.name? = some .unicode := by
        rcases Option.or_eq_some_iff.1 hunicode with hz | ⟨-, hz⟩
        · simpa using List.find?_some hz
        · simpa using List.find?_some hz
      rw [h, hax] at hz
      cases hz
    | none =>
      rw [hunicode, Option.none_or, hy, Option.some_or, Option.some.injEq] at h
      exact h ▸ List.mem_of_find?_eq_some hy

/-- A universal class is found behind classes without a range if it has none either, or if there is
none of its name among them. -/
theorem universal?_append_singleton_iff (hrange : ∀ c ∈ xs, c.range = none)
    (hx : x.isUniversal = true)
    (hunicode : ∀ c ∈ xs, c.name? = some .unicode → x.name? = some .unicode) :
    universal? (xs ++ [x]) = some x ↔ x.range = none ∨ ∀ c ∈ xs, c.name? ≠ x.name? := by
  have hlast : x ∈ xs ++ [x] := List.mem_append_right xs (List.mem_singleton_self x)
  obtain ⟨y, hy⟩ := exists_universal? hlast hx
  obtain ⟨hymem, hyu⟩ := mem_of_universal? hy
  -- What is found has the name of the class behind, whichever of the two it is.
  have hname : y.name? = x.name? := by
    rcases CharClass.name?_of_isUniversal hx with hux | hax
    · rw [hux, name?_of_universal? hy hlast hux]
    · rcases CharClass.name?_of_isUniversal hyu with huy | hay
      · rcases List.mem_append.1 hymem with hmem | hmem
        · rw [huy, hunicode y hmem huy]
        · rw [List.mem_singleton.1 hmem]
      · rw [hay, hax]
  rw [hy, Option.some.injEq]
  constructor
  · rintro rfl
    by_cases hall : ∀ c ∈ xs, c.name? ≠ y.name?
    · exact .inr hall
    · simp only [Classical.not_forall, Classical.not_not] at hall
      obtain ⟨c, hc, hcy⟩ := hall
      exact .inl (hrange y (mem_left_of_universal? hy hc hcy))
  · rintro (hnone | hall)
    · have hyrange : y.range = none := by
        rcases List.mem_append.1 hymem with hmem | hmem
        · exact hrange y hmem
        · rw [List.mem_singleton.1 hmem, hnone]
      obtain ⟨n, hn, -⟩ := (Option.any_eq_true _ _).1 hx
      exact CharClass.eq_of_name? (hname.trans hn) hn (hyrange.trans hnone.symm)
    · rcases List.mem_append.1 hymem with hmem | hmem
      · exact absurd hname (hall y hmem)
      · exact List.mem_singleton.1 hmem

end Universal

/-! ## What a conflict allows -/

variable {words : List String} {rules : List Rule}

/-- The range that the allowed rules give all printable characters gives way to a required list. -/
structure Overridden (rules : List Rule) : Prop where
  noUniversal : ∀ cs ∈ demandedLists false rules, universal? cs = none
  covering : ∃ cs ∈ demandedLists false rules, printable.all (covers cs) = true
  capped : ∃ c r, universal? (listsIn .allowed rules).flatten = some c ∧
    c.name? = some .asciiPrintable ∧ c.range = some r ∧ r.most ≠ 0

instance (rules : List Rule) : Decidable (Overridden rules) :=
  decidable_of_iff ((∀ cs ∈ demandedLists false rules, universal? cs = none) ∧
      (∃ cs ∈ demandedLists false rules, printable.all (covers cs) = true) ∧
      (universal? (listsIn .allowed rules).flatten).any
        (fun c => c.name? = some .asciiPrintable ∧ c.range.any (·.most ≠ 0)) = true)
    ⟨fun h => ⟨h.1, h.2.1, by simpa [Option.any_eq_true] using h.2.2⟩,
      fun h => ⟨h.noUniversal, h.covering, by simpa [Option.any_eq_true] using h.capped⟩⟩

theorem mem_copied_iff {c : CharClass} :
    c ∈ copied false rules ↔ ∃ cs ∈ demandedLists false rules, ∃ d ∈ cs, c = d.withoutRange := by
  rw [copied_full, listsIn_demands, List.mem_map]
  constructor
  · rintro ⟨d, hd, rfl⟩
    obtain ⟨cs, hcs, hd⟩ := List.mem_flatten.1 hd
    exact ⟨cs, hcs, d, hd, rfl⟩
  · rintro ⟨cs, hcs, d, hd, rfl⟩
    exact ⟨d, List.mem_flatten.2 ⟨cs, hcs, hd⟩, rfl⟩

/-- Everything that a conflict leaves unnamed is added, so all basic classes are allowed. -/
theorem isComplete_collected (h : InfeasibleRules false rules) (b : BasicClass) :
    (Pool.ofClasses .allowed (copied false rules ++ statedAllowed rules ++
      added false rules)).isComplete b = true := by
  have hsome := mergeConflict?_of_infeasible h
  obtain ⟨c, hc, hname, hrange⟩ : ∃ c ∈ copied false rules ++ statedAllowed rules ++
      added false rules, c.name? = some (.basic b) ∧ c.range = none := by
    by_cases hseen : b ∈ namedBasics (demandedLists false rules).flatten
    · obtain ⟨d, hd, hname⟩ := mem_namedBasics_iff.1 hseen
      obtain ⟨cs, hcs, hd⟩ := List.mem_flatten.1 hd
      refine ⟨d.withoutRange, ?_, hname, rfl⟩
      exact List.mem_append_left _ (List.mem_append_left _ (mem_copied_iff.2 ⟨cs, hcs, d, hd, rfl⟩))
    · refine ⟨.basic b, List.mem_append_right _ ?_, rfl, rfl⟩
      unfold added
      rw [hsome]
      have hunseen : decide (b ∉ namedBasics (demandedLists false rules).flatten) = true := by
        simpa using hseen
      exact List.mem_map.2 ⟨b, List.mem_filter.2 ⟨b.mem_all, hunseen⟩, rfl⟩
  exact Pool.isComplete_of_name? hc (CharClass.isFree_of_range hrange _) hname

/-- The universal class that all printable characters are allowed by. -/
def allowedUniversal (rules : List Rule) : CharClass :=
  (universal? (copied false rules ++ statedAllowed rules ++ added false rules)).getD
    (.named .asciiPrintable)

theorem allowedClasses_of_infeasible (h : InfeasibleRules false rules) :
    allowedClasses false rules = [allowedUniversal rules] := by
  rw [allowedClasses_eq, allowedUniversal]
  rcases canonical_cases .allowed false
    (copied false rules ++ statedAllowed rules ++ added false rules) with
    ⟨c, hu, hcanonical⟩ | ⟨hu, ⟨hr, -⟩ | ⟨-, hcanonical⟩⟩ | ho
  · rw [hcanonical, hu]
    rfl
  · exact absurd hr (by decide)
  · rw [hcanonical, hu]
    rfl
  · exact absurd (List.all_eq_true.2 fun b _ => isComplete_collected h b) ho.incomplete

theorem isUniversal_allowedUniversal (rules : List Rule) :
    (allowedUniversal rules).isUniversal = true := by
  unfold allowedUniversal
  cases hu : universal? (copied false rules ++ statedAllowed rules ++ added false rules) with
  | none => rfl
  | some c => exact (mem_of_universal? hu).2

/-! ## What the required lists bring up again -/

/-- What becomes of the required lists of an infeasible policy. -/
def lastRemedy (rules : List Rule) : Remedy :=
  (Conflict.mk (demandedLists false rules) (lengthLimits rules)).remedy

theorem mem_copied_reread_iff (hsettled : SettledPolicy false rules)
    (h : InfeasibleRules false rules) {c : CharClass} :
    c ∈ copied false (reread false rules) ↔
      ∃ cs ∈ demandedLists false rules, c ∈ (lastRemedy rules).apply false cs := by
  have hlists : listsIn .required (demands false (reread false rules)) =
      (demandedLists false rules).map ((lastRemedy rules).apply false) := by
    rw [hsettled.demands, listsIn_reconciled_of_some (mergeConflict?_of_infeasible h)]
    rfl
  rw [copied_full, hlists, List.mem_map]
  have hself : ∀ cs, ∀ d ∈ (lastRemedy rules).apply false cs, d.withoutRange = d := by
    intro cs d hd
    rw [CharClass.withoutRange, ← range_of_mem_remedy hd]
    rfl
  constructor
  · rintro ⟨d, hd, rfl⟩
    obtain ⟨ds, hds, hd⟩ := List.mem_flatten.1 hd
    obtain ⟨cs, hcs, rfl⟩ := List.mem_map.1 hds
    exact ⟨cs, hcs, (hself cs d hd).symm ▸ hd⟩
  · rintro ⟨cs, hcs, hc⟩
    exact ⟨c, List.mem_flatten.2 ⟨_, List.mem_map.2 ⟨cs, hcs, rfl⟩, hc⟩, hself cs c hc⟩

/-- All of Unicode is in a canonical list only if it is in the list. -/
theorem mem_of_mem_canonical {role : Role} {bracketed : Bool} {classes : List CharClass}
    {c : CharClass} (h : c ∈ canonical role bracketed classes) (hname : c.name? = some .unicode) :
    c ∈ classes := by
  rcases mem_canonical_cases h with hc | rfl | hc
  · exact hc
  · exact absurd hname (by decide)
  · have huniversal := CharClass.isUniversal_of_name? hname rfl
    exact absurd huniversal (by simp [isUniversal_of_mem_regrouped hc])

theorem exists_unicode_copied (hsettled : SettledPolicy false rules)
    (h : InfeasibleRules false rules) {c : CharClass} (hc : c ∈ copied false (reread false rules))
    (hname : c.name? = some .unicode) : ∃ d ∈ copied false rules, d.name? = some .unicode := by
  obtain ⟨cs, hcs, hc⟩ := (mem_copied_reread_iff hsettled h).1 hc
  cases hremedy : lastRemedy rules with
  | collapse =>
    rw [hremedy, Remedy.apply, List.mem_singleton] at hc
    rw [hc] at hname
    exact absurd hname (by decide)
  | dropRanges =>
    rw [hremedy] at hc
    obtain ⟨d, hd, rfl⟩ := List.mem_map.1 (mem_of_mem_canonical hc hname)
    exact ⟨_, mem_copied_iff.2 ⟨cs, hcs, d, hd, rfl⟩, hname⟩

theorem covering_iff {cs : List CharClass} :
    printable.all (covers cs) = true ↔ contents cs = printable := by
  rw [contents, List.filter_eq_self, List.all_eq_true]

theorem contents_lastRemedy {cs : List CharClass} (hcs : cs ∈ demandedLists false rules) :
    contents ((lastRemedy rules).apply false cs) = contents cs := by
  have hall := contents_remedy (Conflict.mk (demandedLists false rules) (lengthLimits rules)) false
  rw [List.map_map] at hall
  exact List.map_inj_left.1 hall cs hcs

/-- A required list without a universal class brings one up again if it contains all that is
printable, and only then. -/
theorem exists_universal_remedy_iff {cs : List CharClass} (hcs : cs ∈ demandedLists false rules)
    (hu : universal? cs = none) :
    (∃ c ∈ (lastRemedy rules).apply false cs, c.name? = some .asciiPrintable) ↔
      printable.all (covers cs) = true := by
  rw [covering_iff, ← contents_lastRemedy hcs, ← covering_iff]
  constructor
  · rintro ⟨c, hc, hname⟩
    refine List.all_eq_true.2 fun ch hch => covers_iff.2 ⟨c, hc, ?_⟩
    exact CharClass.contains_of_isUniversal (CharClass.isUniversal_of_name? hname rfl)
      (mem_printable_iff.1 hch)
  · intro hall
    cases hremedy : lastRemedy rules with
    | collapse => exact ⟨_, List.mem_singleton_self _, rfl⟩
    | dropRanges =>
      rw [covering_iff, contents_lastRemedy hcs, ← covering_iff] at hall
      have hnone : universal? (cs.map (·.withoutRange)) = none := by
        refine universal?_eq_none_iff.2 fun c hc => ?_
        obtain ⟨d, hd, rfl⟩ := List.mem_map.1 hc
        exact universal?_eq_none_iff.1 hu d hd
      have hcovers : printable.all (covers (cs.map (·.withoutRange))) = true := by
        refine List.all_eq_true.2 fun ch hch => ?_
        rw [covers_withoutRange]
        exact List.all_eq_true.1 hall ch hch
      have hcanonical := canonical_of_covering false hnone hcovers
      rw [if_neg (by simp [anyRange_withoutRange])] at hcanonical
      refine ⟨.named .asciiPrintable, ?_, rfl⟩
      rw [Remedy.apply, hcanonical]
      exact List.mem_singleton_self _

/-! ## Ranges that are overridden -/

theorem universal?_statedAllowed (rules : List Rule) :
    universal? (statedAllowed rules) =
      (universal? (listsIn .allowed rules).flatten).map (·.withoutMinimum) := by
  unfold universal? statedAllowed
  rw [List.find?_map, List.find?_map]
  exact Option.map_or.symm

/-- A class keeps a range when its minimum is dropped, if the range allows anything at all. -/
theorem CharClass.range_withoutMinimum_ne_none_iff {c : CharClass} (hw : c.Writable) :
    c.withoutMinimum.range ≠ none ↔ ∃ r, c.range = some r ∧ r.most ≠ 0 := by
  obtain ⟨body, range⟩ := c
  cases range with
  | none => simp [withoutMinimum, withRange]
  | some r =>
    have hne : ¬(r.least = 0 ∧ r.most = 0) := hw.2 r rfl
    show (if 1 ≤ r.least then CountRange.of? 0 r.most else some r) ≠ none ↔ _
    by_cases hleast : 1 ≤ r.least
    · rw [if_pos hleast, CountRange.of?]
      by_cases hmost : r.most = 0 <;> simp [hmost]
    · have hzero : r.least = 0 := UInt32.lt_one_iff.1 (UInt32.not_le.1 hleast)
      rw [if_neg hleast]
      simpa [hzero] using hne

theorem universal?_collected (h : universal? (copied false rules) = none) :
    universal? (copied false rules ++ statedAllowed rules ++ added false rules) =
      (universal? (listsIn .allowed rules).flatten).map (·.withoutMinimum) := by
  have hadded : universal? (added false rules) = none := by
    refine universal?_eq_none_iff.2 fun c hc => ?_
    obtain ⟨b, rfl⟩ := mem_added hc
    rfl
  rw [universal?_append_of_none_right hadded, universal?_append_of_none h, universal?_statedAllowed]

theorem universal?_copied_eq_none_iff : universal? (copied false rules) = none ↔
    ∀ cs ∈ demandedLists false rules, universal? cs = none := by
  simp only [universal?_eq_none_iff, mem_copied_iff]
  constructor
  · exact fun h cs hcs d hd => h d.withoutRange ⟨cs, hcs, d, hd, rfl⟩
  · rintro h c ⟨cs, hcs, d, hd, rfl⟩
    exact h cs hcs d hd

theorem Overridden.range_ne_none (ho : Overridden rules) (hw : ∀ r ∈ rules, r.Writable words)
    (hsettled : SettledPolicy false rules) (h : InfeasibleRules false rules) :
    (allowedUniversal rules).range ≠ none ∧
      ∃ c ∈ copied false (reread false rules), c.name? = (allowedUniversal rules).name? := by
  obtain ⟨hnone, ⟨cs, hcs, hall⟩, c, r, hu, hname, hr, hmost⟩ := ho
  have hx : allowedUniversal rules = c.withoutMinimum := by
    rw [allowedUniversal, universal?_collected (universal?_copied_eq_none_iff.2 hnone), hu]
    rfl
  have hcw : c.Writable := writable_of_mem_listsIn hw c (mem_of_universal? hu).1
  obtain ⟨d, hd, hdname⟩ := (exists_universal_remedy_iff hcs (hnone cs hcs)).2 hall
  rw [hx]
  refine ⟨(CharClass.range_withoutMinimum_ne_none_iff hcw).2 ⟨r, hr, hmost⟩, d, ?_, ?_⟩
  · exact (mem_copied_reread_iff hsettled h).2 ⟨cs, hcs, hd⟩
  · exact hdname.trans hname.symm

theorem Overridden.of_range_ne_none (hw : ∀ r ∈ rules, r.Writable words)
    (hsettled : SettledPolicy false rules) (h : InfeasibleRules false rules)
    (hrange : (allowedUniversal rules).range ≠ none) {c : CharClass}
    (hc : c ∈ copied false (reread false rules))
    (hname : c.name? = (allowedUniversal rules).name?) : Overridden rules := by
  obtain ⟨x, hx⟩ : ∃ x, universal? (copied false rules ++
      (statedAllowed rules ++ added false rules)) = some x := by
    refine Option.ne_none_iff_exists'.1 fun hnone => hrange ?_
    rw [← List.append_assoc] at hnone
    rw [allowedUniversal, hnone]
    rfl
  have hallowed : allowedUniversal rules = x := by
    rw [allowedUniversal, List.append_assoc, hx]
    rfl
  rw [hallowed] at hrange hname
  have hnot : x ∉ copied false rules := fun hmem => hrange (range_of_mem_copied hmem)
  rcases CharClass.name?_of_isUniversal (mem_of_universal? hx).2 with hux | hax
  · obtain ⟨d, hd, hdname⟩ := exists_unicode_copied hsettled h hc (hname.trans hux)
    exact absurd (mem_left_of_universal? hx hd (hdname.trans hux.symm)) hnot
  · -- No required class is universal, or it would have been found first.
    have hnone : universal? (copied false rules) = none := by
      refine universal?_eq_none_iff.2 fun d hd => Bool.not_eq_true _ ▸ fun huniversal => ?_
      rcases CharClass.name?_of_isUniversal huniversal with hud | had
      · have hxu := name?_of_universal? hx (List.mem_append_left _ hd) hud
        rw [hax] at hxu
        cases hxu
      · exact hnot (mem_left_of_universal? hx hd (had.trans hax.symm))
    have hlists := universal?_copied_eq_none_iff.1 hnone
    rw [← List.append_assoc, universal?_collected hnone] at hx
    obtain ⟨y, hy, rfl⟩ := Option.map_eq_some_iff.1 hx
    have hyw : y.Writable := writable_of_mem_listsIn hw y (mem_of_universal? hy).1
    obtain ⟨r, hr, hmost⟩ := (CharClass.range_withoutMinimum_ne_none_iff hyw).1 hrange
    obtain ⟨cs, hcs, hcr⟩ := (mem_copied_reread_iff hsettled h).1 hc
    refine ⟨hlists, ⟨cs, hcs, ?_⟩, y, r, hy, hax, hr, hmost⟩
    exact (exists_universal_remedy_iff hcs (hlists cs hcs)).1 ⟨c, hcr, hname.trans hax⟩

theorem exists_universal?_reread (rules : List Rule) :
    ∃ x, universal? (copied false (reread false rules) ++ [allowedUniversal rules]) = some x :=
  exists_universal? (List.mem_append_right _ (List.mem_singleton_self _))
    (isUniversal_allowedUniversal rules)

/-- The allowed list is found again behind the required classes. -/
theorem allowedClasses_reread (hsettled : SettledPolicy false rules)
    (h : InfeasibleRules false rules) : allowedClasses false (reread false rules) =
      (universal? (copied false (reread false rules) ++ [allowedUniversal rules])).toList := by
  have hwritten : (allowedUniversal rules).written = allowedUniversal rules := by
    obtain ⟨n, hname, -⟩ := (Option.any_eq_true _ _).1 (isUniversal_allowedUniversal rules)
    exact CharClass.written_of_named hname
  have hstated : statedAllowed (reread false rules) = [allowedUniversal rules] := by
    rw [statedAllowed_reread, allowedRule?, allowedClasses_of_infeasible h]
    exact congrArg ([·]) hwritten
  rw [allowedClasses_eq, hstated, added_of_noConflict hsettled.noConflict, List.append_nil]
  obtain ⟨c, hu⟩ := exists_universal?_reread rules
  rw [hu]
  exact canonical_of_universal hu

theorem allowedRule?_reread_iff_universal? (hsettled : SettledPolicy false rules)
    (h : InfeasibleRules false rules) :
    allowedRule? false (reread false rules) = allowedRule? false rules ↔
      universal? (copied false (reread false rules) ++ [allowedUniversal rules]) =
        some (allowedUniversal rules) := by
  rw [allowedRule?, allowedClasses_reread hsettled h, allowedRule?, allowedClasses_of_infeasible h]
  obtain ⟨c, hu⟩ := exists_universal?_reread rules
  rw [hu]
  simp

/-- If all of Unicode is brought up again, it has been found before. -/
theorem unicode_allowedUniversal (hsettled : SettledPolicy false rules)
    (h : InfeasibleRules false rules) : ∀ c ∈ copied false (reread false rules),
      c.name? = some .unicode → (allowedUniversal rules).name? = some .unicode := by
  intro c hc hname
  obtain ⟨d, hd, hdname⟩ := exists_unicode_copied hsettled h hc hname
  have hmem : d ∈ copied false rules ++ statedAllowed rules ++ added false rules :=
    List.mem_append_left _ (List.mem_append_left _ hd)
  obtain ⟨x, hx⟩ := exists_universal? hmem (CharClass.isUniversal_of_name? hdname rfl)
  unfold allowedUniversal
  rw [hx]
  exact name?_of_universal? hx hmem hdname

/-- **The allowed list that a conflict leaves comes through unless it is overridden.** -/
theorem allowedRule?_reread_iff (hw : ∀ r ∈ rules, r.Writable words)
    (hsettled : SettledPolicy false rules) (h : InfeasibleRules false rules) :
    allowedRule? false (reread false rules) = allowedRule? false rules ↔ ¬Overridden rules := by
  have hrange : ∀ c ∈ copied false (reread false rules), c.range = none :=
    fun c hc => range_of_mem_copied hc
  rw [allowedRule?_reread_iff_universal? hsettled h, universal?_append_singleton_iff hrange
    (isUniversal_allowedUniversal rules) (unicode_allowedUniversal hsettled h)]
  constructor
  · rintro hcome hover
    obtain ⟨hne, c, hc, hname⟩ := hover.range_ne_none hw hsettled h
    rcases hcome with hnone | hall
    · exact hne hnone
    · exact hall c hc hname
  · intro hnot
    by_cases hnone : (allowedUniversal rules).range = none
    · exact .inl hnone
    · exact .inr fun c hc hname => hnot (.of_range_ne_none hw hsettled h hnone hc hname)

end PasswordPolicy
