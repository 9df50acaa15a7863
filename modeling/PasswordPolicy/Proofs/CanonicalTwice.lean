import PasswordPolicy.Proofs.CanonicalAgain

/-!
# Canonicalization repeated

Whatever a list becomes other than its parts in canonical order, it becomes again the second time
(`canonical_again_of_not_ordinary`). So it is ordinary lists that decide whether canonicalization
is idempotent.

Main results: in allowed lists it is (`canonical_allowed_idempotent`), and in required lists it is
for exactly those that do not clash (`required_lists_settle`). A list that clashes is settled after
the second time, since what was named the first time leaves nothing to clash with
(`not_clashing_regrouped`).
-/

namespace PasswordPolicy

open Text

theorem printableOnly_iff {classes : List CharClass} :
    PrintableOnly classes ↔ classes.all (fun c => c.chars.all isPrintable) = true := by
  simp only [PrintableOnly, List.all_eq_true, CharClass.mem_chars_iff]

instance (classes : List CharClass) : Decidable (PrintableOnly classes) :=
  decidable_of_iff _ printableOnly_iff.symm

section Twice

variable {role : Role} {bracketed : Bool} {classes : List CharClass}

theorem canonical_again_of_not_ordinary (h : ¬Ordinary role classes) :
    canonical role bracketed (canonical role bracketed classes) =
      canonical role bracketed classes := by
  rcases canonical_cases role bracketed classes with
    ⟨c, hu, hcanonical⟩ | ⟨-, ⟨-, -, -, hcanonical⟩ | ⟨-, hcanonical⟩⟩ | ho
  · rw [hcanonical]
    exact canonical_of_universal (universal?_singleton (mem_of_universal? hu).2)
  · rw [hcanonical]
    exact hcanonical
  · rw [hcanonical]
    exact canonical_of_universal rfl
  · exact absurd ho h

/-! ## Allowed lists -/

/-- **An allowed list is settled at once.** -/
theorem canonical_allowed_idempotent (bracketed : Bool) (classes : List CharClass)
    (hp : PrintableOnly classes) :
    canonical .allowed bracketed (canonical .allowed bracketed classes) =
      canonical .allowed bracketed classes := by
  by_cases h : Ordinary .allowed classes
  · -- Here nothing stands in front of the list.
    have hfront : Ordinary .allowed ([] ++ classes) := h
    have hagain : Ordinary .allowed ([] ++ regrouped .allowed bracketed ([] ++ classes)) :=
      hfront.allowed_again
    have hsame : regrouped .allowed bracketed ([] ++ regrouped .allowed bracketed ([] ++ classes)) =
        regrouped .allowed bracketed ([] ++ classes) :=
      regrouped_allowed_again hfront hp (List.forall_mem_nil _)
    rw [List.nil_append, List.nil_append] at hagain hsame
    rw [h.canonical_eq, hagain.canonical_eq, hsame]
  · exact canonical_again_of_not_ordinary h

/-- Ranges on a name, on the same class spelled out and on a part of what is allowed anyway. -/
def cappedClasses : List CharClass :=
  [⟨.named (.basic .digit), some ⟨0, 2⟩⟩, .custom ['z', ']', 'z', '-'],
    ⟨.custom "9876543210".toList, some ⟨0, 5⟩⟩, ⟨.custom ['-'], some ⟨0, 1⟩⟩, .custom []]

theorem cappedClasses_settled : PrintableOnly cappedClasses ∧
    canonical .allowed true cappedClasses =
      [⟨.named (.basic .digit), some ⟨0, 5⟩⟩, .custom ['-', 'z', ']']] ∧
    canonical .allowed true (canonical .allowed true cappedClasses) =
      canonical .allowed true cappedClasses :=
  ⟨by decide, by decide, canonical_allowed_idempotent true cappedClasses (by decide)⟩

/-! ## Required lists -/

theorem printableOnly_regrouped (h : Ordinary role classes) (hp : PrintableOnly classes) :
    PrintableOnly (regrouped role bracketed classes) := by
  intro c hc ch hch
  have hcovers : covers classes ch = true := h.covers_of_regrouped (covers_iff.2 ⟨c, hc, hch⟩)
  obtain ⟨d, hd, hdch⟩ := covers_iff.1 hcovers
  exact hp d hd ch hdch

/-- What a class with a range amounts to is stated by name, on account of that class or because it
is complete anyway. -/
theorem Pool.mem_names_of_basic? (hu : universal? classes = none) {c : CharClass}
    (hc : c ∈ classes) (hfree : c.isFree role = false) {b : BasicClass}
    (hb : c.body.basic? = some b) : b ∈ classes.flatMap (ofClasses role classes).namesFrom := by
  refine (mem_names_iff hu).2 ?_
  cases hcomplete : (ofClasses role classes).isComplete b with
  | true => exact .inl rfl
  | false => exact .inr ⟨c, hc, rangedBasic?_eq_some_iff.2 ⟨hfree, hb, hcomplete⟩⟩

/-- In a canonical required list no class with a range amounts to an incomplete basic class. -/
theorem rangedBasic?_required_again (h : Ordinary .required classes) (hp : PrintableOnly classes)
    {c : CharClass} (hc : c ∈ regrouped .required bracketed classes) :
    (Pool.ofClasses .required (regrouped .required bracketed classes)).rangedBasic? c = none := by
  refine Option.eq_none_iff_forall_ne_some.2 fun b hranged => ?_
  obtain ⟨hfree, hbasic, hincomplete⟩ := Pool.rangedBasic?_eq_some_iff.1 hranged
  rcases mem_regrouped_iff.1 hc with ⟨d, -, rfl⟩ | hc
  · have hrole : (Pool.ofClasses .required classes).role = .required := rfl
    have hnamed : ((Pool.ofClasses .required classes).namedClass classes d).isFree .required =
        true := Pool.isFree_namedClass_of_required hrole
    exact absurd hnamed (by simpa using hfree)
  · rcases Pool.mem_customClassesAfter hc with ⟨rfl, -⟩ | ⟨d, hd, hdfree, -, rfl⟩
    · exact absurd rfl (CharClass.range_ne_none hfree)
    · have hdbasic : d.body.basic? = some b := by
        rw [ClassBody.basic?_eq_some_iff] at hbasic ⊢
        exact fun ch => (Pool.contains_kept (hp d hd) ch).symm.trans (hbasic ch)
      have hname := Pool.mem_names_of_basic? h.noUniversal hd hdfree hdbasic
      rw [(isComplete_required_iff h).2 hname] at hincomplete
      exact absurd hincomplete (by decide)

/-- What was named the first time leaves nothing to clash with. -/
theorem not_clashing_regrouped (h : Ordinary .required classes) (hp : PrintableOnly classes) :
    ¬Clashing (regrouped .required bracketed classes) := by
  rintro ⟨-, c, hc, b, hranged, -⟩
  exact absurd hranged (by simp [rangedBasic?_required_again h hp hc])

theorem canonical_required_again_iff (hp : PrintableOnly classes) :
    canonical .required bracketed (canonical .required bracketed classes) =
      canonical .required bracketed classes ↔ ¬Clashing classes := by
  by_cases h : Ordinary .required classes
  · rw [h.canonical_eq, h.required_again.canonical_eq]
    refine ⟨fun heq hclash => ?_, regrouped_required_again h hp⟩
    obtain ⟨c, hc, -, hlost⟩ := exists_lost_of_clashing bracketed hclash
    rw [heq] at hlost
    exact hlost hc
  · exact iff_of_true (canonical_again_of_not_ordinary h) fun hclash => h hclash.1

/-- **Which required lists are settled at once**: exactly those that do not clash. All others are
settled the second time. -/
theorem required_lists_settle (bracketed : Bool) (classes : List CharClass)
    (hp : PrintableOnly classes) :
    (canonical .required bracketed (canonical .required bracketed classes) =
        canonical .required bracketed classes ↔ ¬Clashing classes) ∧
      canonical .required bracketed
          (canonical .required bracketed (canonical .required bracketed classes)) =
        canonical .required bracketed (canonical .required bracketed classes) := by
  refine ⟨canonical_required_again_iff hp, ?_⟩
  by_cases h : Ordinary .required classes
  · rw [h.canonical_eq]
    exact (canonical_required_again_iff (printableOnly_regrouped h hp)).2
      (not_clashing_regrouped h hp)
  · rw [canonical_again_of_not_ordinary h, canonical_again_of_not_ordinary h]

/-- A class spelled out with a range, and others that it does not touch. -/
def spelledClasses : List CharClass :=
  [.custom ['?', '!'], ⟨.custom "zyxwvutsrqponmlkjihgfedcba".toList, some ⟨1, 5⟩⟩,
    ⟨.custom ['7', 'A'], some ⟨2, 2⟩⟩]

theorem spelledClasses_settled : PrintableOnly spelledClasses ∧ ¬Clashing spelledClasses ∧
    canonical .required false spelledClasses =
      [⟨.named (.basic .lower), some ⟨1, 5⟩⟩, .custom ['!', '?'],
        ⟨.custom ['A', '7'], some ⟨2, 2⟩⟩] ∧
    canonical .required false (canonical .required false spelledClasses) =
      canonical .required false spelledClasses :=
  ⟨by decide, by decide, by decide,
    (required_lists_settle false spelledClasses (by decide)).1.2 (by decide)⟩

/-- One letter on its own, and all of them with a range. -/
def letterBesideAll : List CharClass :=
  [.custom ['j'], ⟨.custom "abcdefghijklmnopqrstuvwxyz".toList, some ⟨1, 5⟩⟩]

/-- The single letter is lost the second time: it is a part of the class that is named by then. -/
theorem letterBesideAll_not_settled : PrintableOnly letterBesideAll ∧
    canonical .required false letterBesideAll =
      [⟨.named (.basic .lower), some ⟨1, 5⟩⟩, .custom ['j']] ∧
    canonical .required false (canonical .required false letterBesideAll) =
      [⟨.named (.basic .lower), some ⟨1, 5⟩⟩] ∧
    canonical .required false (canonical .required false letterBesideAll) ≠
      canonical .required false letterBesideAll := by
  decide

end Twice

end PasswordPolicy
