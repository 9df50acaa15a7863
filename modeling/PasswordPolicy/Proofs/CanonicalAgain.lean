import PasswordPolicy.Proofs.Settling

/-!
# Canonical lists read again

**Allowed lists** settle at once: a canonical allowed list, even behind classes without a range that
went into it, has that canonical form again (`canonical_allowed_again`).

**Required lists** settle unless they clash. A list clashes if one of its classes has a range and
amounts to a basic class of which some characters, but not all, may be regrouped. Its canonical form
states that basic class by name, and named classes may be regrouped whatever their ranges: the next
time the class is complete, and nothing of it is left over any more (`exists_lost_of_clashing`).
-/

namespace PasswordPolicy

open Text

/-- Some class with a range amounts to a basic class that the pool holds a part of. -/
def Clashing (classes : List CharClass) : Prop :=
  Ordinary .required classes ∧ ∃ c ∈ classes, ∃ b,
    (Pool.ofClasses .required classes).rangedBasic? c = some b ∧
      ∃ ch ∈ (Pool.ofClasses .required classes).chars, b.contains ch = true

instance (classes : List CharClass) : Decidable (Clashing classes) :=
  decidable_of_iff (Ordinary .required classes ∧ ∃ c ∈ classes, ∃ b ∈ BasicClass.all,
      (Pool.ofClasses .required classes).rangedBasic? c = some b ∧
        (Pool.ofClasses .required classes).chars.any b.contains = true)
    (by simp [Clashing, BasicClass.mem_all])

/-! ## The pool of a canonical list -/

namespace Pool

variable {role : Role} {bracketed : Bool} {classes : List CharClass} {ch : Char}

/-- In the pool of a canonical list are the classes that it names as free ones and the leftovers. -/
theorem mem_ofClasses_regrouped_iff (h : Ordinary role classes) :
    ch ∈ (ofClasses role (regrouped role bracketed classes)).chars ↔
      (∃ b ∈ classes.flatMap (ofClasses role classes).namesFrom,
        ((ofClasses role classes).namedClass classes b).isFree role = true ∧
          b.contains ch = true) ∨ ch ∈ (ofClasses role classes).leftovers := by
  rw [mem_ofClasses_iff]
  constructor
  · rintro ⟨-, c, hc, hfree, hcontains⟩
    rcases mem_regrouped_iff.1 hc with ⟨b, hb, rfl⟩ | hc
    · rw [contains_namedClass] at hcontains
      exact .inl ⟨b, hb, hfree, hcontains⟩
    · rcases mem_customClassesAfter hc with ⟨rfl, -⟩ | ⟨d, -, hd, -, rfl⟩
      · exact .inr (mem_arrange_iff.1 (List.contains_iff_mem.1 hcontains)).1
      · have hkept : (kept bracketed d).isFree role = false := isFree_kept hd role
        exact absurd hfree (by rw [← kept, hkept]; decide)
  · rintro (⟨b, hb, hfree, hcontains⟩ | hleft)
    · refine ⟨BasicClass.isPrintable_of_contains hcontains, _, mem_regrouped_iff.2
        (.inl ⟨b, hb, rfl⟩), hfree, ?_⟩
      rw [contains_namedClass]
      exact hcontains
    · have hp : isPrintable ch = true := (mem_ofClasses_iff.1 (mem_leftovers_iff.1 hleft).1).1
      refine ⟨hp, _, mem_regrouped_iff.2 (.inr (h.leftovers_mem hleft)),
        CharClass.isFree_of_range rfl role, ?_⟩
      exact List.contains_iff_mem.2 (mem_arrange_iff.2 ⟨hleft, hp⟩)

theorem ofClasses_congr {xs ys : List CharClass}
    (h : ∀ ch, ch ∈ (ofClasses role xs).chars ↔ ch ∈ (ofClasses role ys).chars) :
    ofClasses role xs = ofClasses role ys := by
  have hchars : (ofClasses role xs).chars = (ofClasses role ys).chars := by
    refine List.filter_congr fun ch hch => ?_
    have hch := h ch
    rw [ofClasses, ofClasses, List.mem_filter, List.mem_filter] at hch
    rw [Bool.eq_iff_iff]
    simpa [*] using hch
  exact congrArg (Pool.mk role) hchars

end Pool

/-! ## Allowed lists -/

section Allowed

variable {bracketed : Bool} {classes front rest : List CharClass} {ch : Char}

theorem mem_ofClasses_append_iff {role : Role} {xs ys : List CharClass} :
    ch ∈ (Pool.ofClasses role (xs ++ ys)).chars ↔
      ch ∈ (Pool.ofClasses role xs).chars ∨ ch ∈ (Pool.ofClasses role ys).chars := by
  simp only [Pool.mem_ofClasses_iff, List.mem_append, ← and_or_left]
  refine and_congr_right fun _ => ?_
  constructor
  · rintro ⟨c, hc | hc, h⟩
    · exact .inl ⟨c, hc, h⟩
    · exact .inr ⟨c, hc, h⟩
  · rintro (⟨c, hc, h⟩ | ⟨c, hc, h⟩)
    · exact ⟨c, .inl hc, h⟩
    · exact ⟨c, .inr hc, h⟩

/-- A canonical allowed list has the pool that it comes from. -/
theorem mem_ofClasses_allowed_iff (h : Ordinary .allowed classes) :
    ch ∈ (Pool.ofClasses .allowed (regrouped .allowed bracketed classes)).chars ↔
      ch ∈ (Pool.ofClasses .allowed classes).chars := by
  rw [Pool.mem_ofClasses_regrouped_iff h]
  constructor
  · rintro (⟨b, hb, hfree, hcontains⟩ | hleft)
    · cases hcomplete : (Pool.ofClasses .allowed classes).isComplete b with
      | true => exact Pool.isComplete_iff.1 hcomplete ch hcontains
      | false =>
        have hranged := Pool.isFree_namedClass_of_incomplete rfl hcomplete hb
        exact absurd hfree (by simpa using hranged)
    · exact (Pool.mem_leftovers_iff.1 hleft).1
  · intro hch
    obtain ⟨b, hb⟩ := BasicClass.exists_contains (Pool.mem_ofClasses_iff.1 hch).1
    cases hcomplete : (Pool.ofClasses .allowed classes).isComplete b with
    | true =>
      refine .inl ⟨b, (Pool.mem_names_iff h.noUniversal).2 (.inl hcomplete), ?_, hb⟩
      exact Pool.isFree_namedClass_of_complete hcomplete
    | false => exact .inr (Pool.mem_leftovers_iff.2 ⟨hch, b, hcomplete, hb⟩)

theorem ofClasses_allowed_again (h : Ordinary .allowed (front ++ rest)) :
    Pool.ofClasses .allowed (front ++ regrouped .allowed bracketed (front ++ rest)) =
      Pool.ofClasses .allowed (front ++ rest) := by
  refine Pool.ofClasses_congr fun ch => ?_
  rw [mem_ofClasses_append_iff, mem_ofClasses_allowed_iff h, mem_ofClasses_append_iff]
  exact or_iff_right_of_imp .inl

theorem isUniversal_of_mem_regrouped {role : Role} {c : CharClass}
    (h : c ∈ regrouped role bracketed classes) : c.isUniversal = false := by
  rcases mem_regrouped_iff.1 h with ⟨b, -, rfl⟩ | hc
  · simp [CharClass.isUniversal, ClassName.isUniversal]
  · simp [CharClass.isUniversal, Pool.name?_custom hc]

theorem Ordinary.allowed_again (h : Ordinary .allowed (front ++ rest)) :
    Ordinary .allowed (front ++ regrouped .allowed bracketed (front ++ rest)) := by
  have hnone := universal?_eq_none_iff.1 h.noUniversal
  refine ⟨universal?_eq_none_iff.2 fun c hc => ?_, fun hr => (nomatch hr), ?_⟩
  · rcases List.mem_append.1 hc with hc | hc
    · exact hnone c (List.mem_append_left rest hc)
    · exact isUniversal_of_mem_regrouped hc
  · rw [ofClasses_allowed_again h]
    exact h.incomplete

theorem regrouped_allowed_again (h : Ordinary .allowed (front ++ rest))
    (hp : PrintableOnly (front ++ rest)) (hfront : ∀ c ∈ front, c.range = none) :
    regrouped .allowed bracketed (front ++ regrouped .allowed bracketed (front ++ rest)) =
      regrouped .allowed bracketed (front ++ rest) := by
  have hpool : Pool.ofClasses .allowed (front ++ regrouped .allowed bracketed (front ++ rest)) =
      Pool.ofClasses .allowed (front ++ rest) := ofClasses_allowed_again h
  refine Pool.Settles.regrouped_again ⟨rfl, ?_, fun hr => (nomatch hr), ?_, fun _ => hpool⟩ hp
    (.inr ⟨rfl, hfront⟩)
  · exact fun b hb => hpool ▸ hb
  · exact fun ch => by rw [hpool]

/-- The universal class that is found in a list is found again behind the classes in front. -/
theorem universal?_again {c : CharClass} (h : universal? (front ++ rest) = some c) :
    universal? (front ++ [c]) = some c := by
  have hself : ∀ p : CharClass → Bool, [c].find? p = some c ∨ [c].find? p = none := by
    intro p
    by_cases hc : p c = true <;> simp [hc]
  have huniversal : [c].find? (·.isUniversal) = some c := by simp [(mem_of_universal? h).2]
  unfold universal? at h ⊢
  rw [List.find?_append, List.find?_append] at h ⊢
  rw [huniversal]
  cases hu : front.find? (·.name? == some .unicode) with
  | some x => simpa [hu] using h
  | none =>
    rcases hself (·.name? == some .unicode) with hc | hc
    · simp [hc]
    · cases ha : front.find? (·.isUniversal) with
      | none => simp [hc]
      | some x =>
        rw [hc]
        cases hr : rest.find? (·.name? == some .unicode) with
        | none => simpa [hu, ha, hr] using h
        | some y =>
          obtain rfl : y = c := by simpa [hu, hr] using h
          have hname := List.find?_some hr
          simp [hname] at hc

/-- **A canonical allowed list is its own canonical form**, as it is written and behind any classes
without a range that went into it. -/
theorem canonical_allowed_again (hp : PrintableOnly (front ++ rest))
    (hfront : ∀ c ∈ front, c.range = none) :
    canonical .allowed bracketed
        (front ++ (canonical .allowed bracketed (front ++ rest)).map CharClass.written) =
      canonical .allowed bracketed (front ++ rest) := by
  rcases canonical_cases .allowed bracketed (front ++ rest) with
    ⟨c, hu, hcanonical⟩ | ⟨hu, ⟨hr, -⟩ | ⟨-, hcanonical⟩⟩ | h
  · obtain ⟨n, hname, -⟩ := (Option.any_eq_true _ _).1 (mem_of_universal? hu).2
    rw [hcanonical, List.map_singleton, CharClass.written_of_named hname]
    exact canonical_of_universal (universal?_again hu)
  · exact absurd hr (by decide)
  · have hnone := universal?_eq_none_iff.1 hu
    have hfrontNone : universal? front = none :=
      universal?_eq_none_iff.2 fun c hc => hnone c (List.mem_append_left rest hc)
    rw [hcanonical]
    refine canonical_of_universal ?_
    rw [universal?_append_of_none hfrontNone]
    rfl
  · rw [h.canonical_eq]
    have hsame : (front ++ (regrouped .allowed bracketed (front ++ rest)).map
        CharClass.written).map CharClass.written =
          (front ++ regrouped .allowed bracketed (front ++ rest)).map CharClass.written := by
      rw [List.map_append, List.map_append, List.map_map]
      congr 2
      funext c
      exact c.written_written
    rw [((ordinary_congr_written hsame).2 h.allowed_again).canonical_eq,
      regrouped_congr_written hsame, regrouped_allowed_again h hp hfront]

end Allowed

/-! ## Required lists -/

section Required

variable {bracketed : Bool} {classes : List CharClass} {ch : Char}

theorem Ordinary.of_uncovered (hu : universal? classes = none)
    (h : ¬printable.all (covers classes) = true) : Ordinary .required classes := by
  refine ⟨hu, fun _ => h, fun hcomplete => h (List.all_eq_true.2 fun ch hch => ?_)⟩
  obtain ⟨b, hb⟩ := BasicClass.exists_contains (mem_printable_iff.1 hch)
  have hmem := Pool.isComplete_iff.1 (List.all_eq_true.1 hcomplete b b.mem_all) ch hb
  obtain ⟨-, c, hc, -, hcontains⟩ := Pool.mem_ofClasses_iff.1 hmem
  exact covers_iff.2 ⟨c, hc, hcontains⟩

theorem Ordinary.required_again (h : Ordinary .required classes) :
    Ordinary .required (regrouped .required bracketed classes) := by
  refine .of_uncovered (universal?_eq_none_iff.2 fun c => isUniversal_of_mem_regrouped) ?_
  intro hall
  refine h.uncovered rfl (List.all_eq_true.2 fun ch hch => ?_)
  exact h.covers_of_regrouped (List.all_eq_true.1 hall ch hch)

/-- In a required list everything that is stated by name is in the pool, with or without a range. -/
theorem mem_ofClasses_required_iff (h : Ordinary .required classes) :
    ch ∈ (Pool.ofClasses .required (regrouped .required bracketed classes)).chars ↔
      (∃ b ∈ classes.flatMap (Pool.ofClasses .required classes).namesFrom, b.contains ch = true) ∨
        ch ∈ (Pool.ofClasses .required classes).leftovers := by
  rw [Pool.mem_ofClasses_regrouped_iff h]
  refine or_congr_left (exists_congr fun b => and_congr_right fun _ => and_iff_right ?_)
  have hrole : (Pool.ofClasses .required classes).role = .required := rfl
  exact Pool.isFree_namedClass_of_required hrole

/-- What is complete the next time is what was stated by name. -/
theorem isComplete_required_iff (h : Ordinary .required classes) {b : BasicClass} :
    (Pool.ofClasses .required (regrouped .required bracketed classes)).isComplete b = true ↔
      b ∈ classes.flatMap (Pool.ofClasses .required classes).namesFrom := by
  rw [Pool.isComplete_iff]
  constructor
  · intro hall
    by_cases hb : b ∈ classes.flatMap (Pool.ofClasses .required classes).namesFrom
    · exact hb
    · refine (Pool.mem_names_iff h.noUniversal).2 (.inl (Pool.isComplete_iff.2 fun ch hch => ?_))
      rcases (mem_ofClasses_required_iff h).1 (hall ch hch) with ⟨d, hd, hdch⟩ | hleft
      · exact absurd (BasicClass.eq_of_contains hdch hch ▸ hd) hb
      · exact (Pool.mem_leftovers_iff.1 hleft).1
  · exact fun hb ch hch => (mem_ofClasses_required_iff h).2 (.inl ⟨b, hb, hch⟩)

/-- What is left over the next time is what was left over of classes that were not named. -/
theorem mem_leftovers_required_iff (h : Ordinary .required classes) :
    ch ∈ (Pool.ofClasses .required (regrouped .required bracketed classes)).leftovers ↔
      ch ∈ (Pool.ofClasses .required classes).leftovers ∧
        ∀ b ∈ classes.flatMap (Pool.ofClasses .required classes).namesFrom,
          b.contains ch = false := by
  rw [Pool.mem_leftovers_iff, mem_ofClasses_required_iff h]
  simp only [← Bool.not_eq_true, isComplete_required_iff h]
  constructor
  · rintro ⟨hmem, b, hb, hbch⟩
    have hnone : ∀ d ∈ classes.flatMap (Pool.ofClasses .required classes).namesFrom,
        ¬d.contains ch = true :=
      fun d hd hdch => hb (BasicClass.eq_of_contains hdch hbch ▸ hd)
    rcases hmem with ⟨d, hd, hdch⟩ | hleft
    · exact absurd hdch (hnone d hd)
    · exact ⟨hleft, hnone⟩
  · rintro ⟨hleft, hnone⟩
    obtain ⟨-, b, -, hb⟩ := Pool.mem_leftovers_iff.1 hleft
    exact ⟨.inr hleft, b, fun hname => hnone b hname hb, hb⟩

/-- A required list that does not clash is regrouped into itself. -/
theorem regrouped_required_again (h : Ordinary .required classes) (hp : PrintableOnly classes)
    (hclash : ¬Clashing classes) :
    regrouped .required bracketed (regrouped .required bracketed classes) =
      regrouped .required bracketed classes := by
  have hsettles : Pool.Settles ([] ++ classes) (Pool.ofClasses .required ([] ++ classes))
      (Pool.ofClasses .required ([] ++ regrouped .required bracketed ([] ++ classes))) := by
    refine ⟨rfl, fun b hb => ?_, fun _ b hb => ?_, fun ch => ?_, fun hr => (nomatch hr)⟩
    · exact (isComplete_required_iff h).2 ((Pool.mem_names_iff h.noUniversal).2 (.inl hb))
    · exact (isComplete_required_iff h).2 hb
    · refine (mem_leftovers_required_iff h).trans (and_iff_left_of_imp fun hleft b hb => ?_)
      refine Bool.not_eq_true _ ▸ fun hbch => hclash ⟨h, ?_⟩
      obtain ⟨hmem, d, hd, hdch⟩ := Pool.mem_leftovers_iff.1 hleft
      obtain rfl := BasicClass.eq_of_contains hbch hdch
      rcases (Pool.mem_names_iff h.noUniversal).1 hb with hcomplete | ⟨c, hc, hranged⟩
      · exact absurd hcomplete (by simpa using hd)
      · exact ⟨c, hc, b, hranged, ch, hmem, hbch⟩
  exact hsettles.regrouped_again hp (.inl rfl)

/-- A class without a range that a clashing list leaves over is gone the next time. -/
theorem exists_lost_of_clashing (bracketed : Bool) (h : Clashing classes) :
    ∃ c ∈ regrouped .required bracketed classes, c.range = none ∧
      c ∉ regrouped .required bracketed (regrouped .required bracketed classes) := by
  obtain ⟨ho, c, hc, b, hranged, ch, hch, hb⟩ := h
  have hincomplete := (Pool.rangedBasic?_eq_some_iff.1 hranged).2.2
  have hname := (Pool.mem_names_iff ho.noUniversal).2 (.inr ⟨c, hc, hranged⟩)
  have hleft := Pool.mem_leftovers_iff.2 ⟨hch, b, hincomplete, hb⟩
  refine ⟨_, mem_regrouped_iff.2 (.inr (ho.leftovers_mem hleft)), rfl, fun hmem => ?_⟩
  rcases mem_regrouped_iff.1 hmem with ⟨d, -, hd⟩ | hcustom
  · have hbody := congrArg CharClass.name? hd
    rw [Pool.name?_namedClass] at hbody
    exact absurd hbody (by simp [CharClass.name?, CharClass.custom])
  · rcases Pool.mem_customClassesAfter hcustom with ⟨heq, -⟩ | ⟨d, -, hd, -, heq⟩
    · -- The class would hold what is left over now, but its basic class is complete now.
      have hbody : Pool.arrange bracketed (Pool.ofClasses .required classes).leftovers =
          Pool.arrange bracketed
            (Pool.ofClasses .required (regrouped .required bracketed classes)).leftovers := by
        simpa [CharClass.custom] using heq
      have hp : isPrintable ch = true := BasicClass.isPrintable_of_contains hb
      have hagain := Pool.mem_arrange_iff.1 (hbody ▸ Pool.mem_arrange_iff.2 ⟨hleft, hp⟩)
      have hnot := ((mem_leftovers_required_iff ho).1 hagain.1).2 b hname
      exact absurd hb (by simp [hnot])
    · have hrange : none = d.range := congrArg CharClass.range heq
      exact (CharClass.range_ne_none hd hrange.symm).elim

/-- A clashing list states some basic class with its range. -/
theorem exists_range_of_clashing (bracketed : Bool) (h : Clashing classes) :
    ∃ c ∈ regrouped .required bracketed classes, c.range ≠ none := by
  obtain ⟨ho, c, hc, b, hranged, -⟩ := h
  have hincomplete := (Pool.rangedBasic?_eq_some_iff.1 hranged).2.2
  have hname := (Pool.mem_names_iff ho.noUniversal).2 (.inr ⟨c, hc, hranged⟩)
  refine ⟨_, mem_regrouped_iff.2 (.inl ⟨b, hname, rfl⟩), ?_⟩
  rw [Pool.namedClass, if_neg (by simp [hincomplete])]
  exact Pool.rangeOf_ne_none hc hranged

end Required

end PasswordPolicy
