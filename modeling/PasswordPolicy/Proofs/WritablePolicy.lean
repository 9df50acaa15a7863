import PasswordPolicy.Proofs.CanonicalAgain
import PasswordPolicy.Proofs.MergedRules

/-!
# A merged policy can be written

Merging takes rules that can be written into rules that can be written
(`writable_of_mem_merge`): a canonical list is not empty unless the list is, its custom classes hold
printable characters, at least one, and none of its ranges is zero throughout.
-/

namespace PasswordPolicy

open Text

/-! ## Classes -/

namespace CharClass

variable {c : CharClass}

theorem exists_contains_of_writable (h : c.Writable) :
    ∃ ch, c.contains ch = true ∧ isPrintable ch = true := by
  obtain ⟨body, range⟩ := c
  cases body with
  | named n =>
    cases n with
    | basic b =>
      exact ⟨b.member, b.contains_member, BasicClass.isPrintable_of_contains b.contains_member⟩
    | asciiPrintable | unicode => exact ⟨' ', rfl, rfl⟩
  | custom cs =>
    obtain ⟨ch, more, hcs⟩ := List.exists_cons_of_ne_nil h.1.1
    have hmem : ch ∈ cs := hcs ▸ List.mem_cons_self
    exact ⟨ch, List.contains_iff_mem.2 hmem, h.1.2 ch hmem⟩

theorem isPrintable_of_writable (h : c.Writable) {ch : Char} (hch : c.contains ch = true) :
    isPrintable ch = true := by
  obtain ⟨body, range⟩ := c
  cases body with
  | named n =>
    cases n with
    | basic b => exact BasicClass.isPrintable_of_contains hch
    | asciiPrintable | unicode => exact hch
  | custom cs => exact h.1.2 ch (List.contains_iff_mem.1 hch)

theorem Writable.withRange (h : c.Writable) {range : Option CountRange}
    (hr : ∀ r ∈ range, ¬(r.least = 0 ∧ r.most = 0)) : (c.withRange range).Writable :=
  ⟨h.1, hr⟩

theorem Writable.withoutRange (h : c.Writable) : c.withoutRange.Writable :=
  h.withRange (by simp)

theorem Writable.atLeastOne (h : c.Writable) : c.atLeastOne.Writable := by
  refine h.withRange fun r hr => ?_
  obtain ⟨s, hs, rfl⟩ := Option.map_eq_some_iff.1 hr
  by_cases hless : s.least < 1
  · simp [hless]
  · rw [if_neg hless]
    exact h.2 s hs

theorem Writable.withoutMinimum (h : c.Writable) : c.withoutMinimum.Writable := by
  refine h.withRange fun r hr => ?_
  obtain ⟨s, hs, hr⟩ := Option.bind_eq_some_iff.1 hr
  by_cases hleast : 1 ≤ s.least
  · rw [if_pos hleast, CountRange.of?] at hr
    split at hr
    · cases hr
    · next hne =>
      cases hr
      exact hne
  · rw [if_neg hleast] at hr
    cases hr
    exact h.2 r hs

end CharClass

/-! ## Canonical lists -/

section Canonical

variable {role : Role} {bracketed : Bool} {classes : List CharClass}

theorem printableOnly_of_writable (h : ∀ c ∈ classes, c.Writable) : PrintableOnly classes :=
  fun c hc _ hch => CharClass.isPrintable_of_writable (h c hc) hch

theorem writable_arrange {cs : List Char} (h : ∃ ch ∈ cs, isPrintable ch = true) :
    (ClassBody.custom (Pool.arrange bracketed cs)).Writable := by
  obtain ⟨ch, hch, hp⟩ := h
  refine ⟨List.ne_nil_of_mem (Pool.mem_arrange_iff.2 ⟨hch, hp⟩), fun d hd => ?_⟩
  exact (Pool.mem_arrange_iff.1 hd).2

theorem writable_of_mem_canonical (h : ∀ c ∈ classes, c.Writable) {c : CharClass}
    (hc : c ∈ canonical role bracketed classes) : c.Writable := by
  refine ⟨?_, fun r hr => ?_⟩
  · rcases mem_canonical_cases hc with hc | rfl | hc
    · exact (h c hc).1
    · trivial
    · rcases mem_regrouped_iff.1 hc with ⟨b, -, rfl⟩ | hc
      · rw [Pool.namedClass_body]
        trivial
      · rcases Pool.mem_customClassesAfter hc with ⟨rfl, d, hd, hholds⟩ | ⟨d, hd, -, -, rfl⟩
        · unfold Pool.holdsLeftovers at hholds
          rw [Bool.and_eq_true, List.any_eq_true] at hholds
          obtain ⟨-, ch, hch, hleft⟩ := hholds
          refine writable_arrange ⟨ch, List.contains_iff_mem.1 hleft, ?_⟩
          exact CharClass.isPrintable_of_writable (h d hd) (CharClass.mem_chars_iff.1 hch)
        · obtain ⟨ch, hch, hp⟩ := CharClass.exists_contains_of_writable (h d hd)
          exact writable_arrange ⟨ch, CharClass.mem_chars_iff.2 hch, hp⟩
  · obtain ⟨d, hd, hdr⟩ := range_of_mem_canonical hc hr
    exact (h d hd).2 r hdr

theorem canonical_ne_nil (h : ∀ c ∈ classes, c.Writable) (hne : classes ≠ []) :
    canonical role bracketed classes ≠ [] := by
  obtain ⟨c, more, hclasses⟩ := List.exists_cons_of_ne_nil hne
  have hc : c ∈ classes := hclasses ▸ List.mem_cons_self
  obtain ⟨ch, hch, hp⟩ := CharClass.exists_contains_of_writable (h c hc)
  have hcovers : covers (canonical role bracketed classes) ch = true := by
    rw [covers_canonical role bracketed classes hp]
    exact covers_iff.2 ⟨c, hc, hch⟩
  obtain ⟨d, hd, -⟩ := covers_iff.1 hcovers
  exact List.ne_nil_of_mem hd

end Canonical

/-! ## The parts of a policy -/

section Policy

variable {words : List String} {minified : Bool} {rules : List Rule}

theorem mem_listsIn_iff {role : Role} {cs : List CharClass} :
    cs ∈ listsIn role rules ↔ .classes role cs ∈ rules := by
  unfold listsIn
  rw [List.mem_filterMap]
  constructor
  · rintro ⟨r, hr, heq⟩
    rcases r with ⟨role', ds⟩ | _ | _
    · by_cases hrole : role' = role
      · simp only [hrole, if_true, Option.some.injEq] at heq
        rw [← hrole, ← heq]
        exact hr
      · simp [hrole] at heq
    · cases heq
    · cases heq
  · exact fun h => ⟨_, h, by simp⟩

theorem writable_demand {classes : List CharClass} (h : ∀ c ∈ classes, c.Writable) :
    ∀ c ∈ demand minified classes, c.Writable := by
  intro c hc
  obtain ⟨d, hd, rfl⟩ := List.mem_map.1 hc
  exact (writable_of_mem_canonical h hd).atLeastOne

theorem demand_ne_nil {classes : List CharClass} (h : ∀ c ∈ classes, c.Writable)
    (hne : classes ≠ []) : demand minified classes ≠ [] :=
  fun hnil => canonical_ne_nil h hne (List.map_eq_nil_iff.1 hnil)

theorem writable_of_mem_demands (h : ∀ r ∈ rules, r.Writable words) :
    ∀ r ∈ demands minified rules, r.Writable words := by
  intro r hr
  obtain ⟨q, hq, heq⟩ := List.mem_filterMap.1 hr
  have hq := h q hq
  rcases q with ⟨⟨⟩, cs⟩ | _ | ws
  · cases heq
    exact ⟨demand_ne_nil hq.2 hq.1, writable_demand hq.2⟩
  · cases heq
  · cases heq
  · cases heq
    exact hq

theorem writable_remedy (remedy : Remedy) {classes : List CharClass} (hne : classes ≠ [])
    (h : ∀ c ∈ classes, c.Writable) : remedy.apply minified classes ≠ [] ∧
      ∀ c ∈ remedy.apply minified classes, c.Writable := by
  cases remedy with
  | collapse =>
    have hall : ∀ c ∈ [CharClass.named .asciiPrintable], c.Writable := by decide
    exact ⟨List.cons_ne_nil _ _, hall⟩
  | dropRanges =>
    have hw : ∀ c ∈ classes.map (·.withoutRange), c.Writable := by
      intro c hc
      obtain ⟨d, hd, rfl⟩ := List.mem_map.1 hc
      exact (h d hd).withoutRange
    refine ⟨canonical_ne_nil hw fun hnil => hne (List.map_eq_nil_iff.1 hnil), fun c hc => ?_⟩
    exact writable_of_mem_canonical hw hc

theorem writable_of_mem_reconciled (h : ∀ r ∈ rules, r.Writable words) :
    ∀ r ∈ reconciled minified rules, r.Writable words := by
  have hdemands : ∀ r ∈ demands minified rules, r.Writable words := writable_of_mem_demands h
  unfold reconciled
  split
  · exact hdemands
  · intro r hr
    obtain ⟨q, hq, rfl⟩ := List.mem_map.1 hr
    have hq := hdemands q hq
    rcases q with ⟨⟨⟩, cs⟩ | _ | ws
    · exact writable_remedy _ hq.1 hq.2
    · exact hq
    · exact hq
    · exact hq

theorem writable_of_mem_listsIn {role : Role} (h : ∀ r ∈ rules, r.Writable words) :
    ∀ c ∈ (listsIn role rules).flatten, c.Writable := by
  intro c hc
  obtain ⟨cs, hcs, hc⟩ := List.mem_flatten.1 hc
  exact (h _ (mem_listsIn_iff.1 hcs)).2 c hc

/-- What the required classes put into the allowed ones. -/
theorem writable_of_mem_copied (h : ∀ r ∈ rules, r.Writable words) :
    ∀ c ∈ copied minified rules, c.Writable := by
  unfold copied
  split
  · simp
  · intro c hc
    obtain ⟨d, hd, rfl⟩ := List.mem_map.1 hc
    exact (writable_of_mem_listsIn (writable_of_mem_demands h) d hd).withoutRange

theorem writable_of_mem_stated (h : ∀ r ∈ rules, r.Writable words) :
    ∀ c ∈ (listsIn .allowed rules).flatten.map (·.withoutMinimum), c.Writable := by
  intro c hc
  obtain ⟨d, hd, rfl⟩ := List.mem_map.1 hc
  exact (writable_of_mem_listsIn h d hd).withoutMinimum

theorem writable_of_mem_added : ∀ c ∈ added minified rules, c.Writable := by
  have hbasic : ∀ bs : List BasicClass, ∀ c ∈ bs.map CharClass.basic, c.Writable := by
    intro bs c hc
    obtain ⟨b, -, rfl⟩ := List.mem_map.1 hc
    exact ⟨trivial, by simp [CharClass.basic, CharClass.named]⟩
  unfold added
  split
  · split
    · simp
    · exact hbasic _
  · simp

theorem writable_of_mem_allowedClasses (h : ∀ r ∈ rules, r.Writable words) :
    ∀ c ∈ allowedClasses minified rules, c.Writable := by
  refine fun c hc => writable_of_mem_canonical (fun d hd => ?_) hc
  rcases List.mem_append.1 hd with hd | hd
  · rcases List.mem_append.1 hd with hd | hd
    · exact writable_of_mem_copied h d hd
    · exact writable_of_mem_stated h d hd
  · exact writable_of_mem_added d hd

theorem writable_of_mem_allowedRule (h : ∀ r ∈ rules, r.Writable words) :
    ∀ r ∈ (allowedRule? minified rules).toList, r.Writable words := by
  have hall : ∀ c ∈ allowedClasses minified rules, c.Writable := writable_of_mem_allowedClasses h
  unfold allowedRule?
  cases hclasses : allowedClasses minified rules with
  | nil =>
    cases minified with
    | true => simp
    | false =>
      intro r hr
      rw [List.mem_singleton.1 hr]
      exact ⟨List.cons_ne_nil _ _, by decide⟩
  | cons c cs =>
    intro r hr
    rw [List.mem_singleton.1 hr]
    exact ⟨List.cons_ne_nil _ _, hclasses ▸ hall⟩

theorem writable_of_mem_limitRule (l : Limit) :
    ∀ r ∈ (limitRule? l rules).toList, r.Writable words := by
  intro r hr
  obtain ⟨n, -, rfl⟩ := mem_limitRule hr
  trivial

/-- **A merged policy can be written** if the rules that it is made from can. -/
theorem writable_of_mem_merge (h : ∀ r ∈ rules, r.Writable words) :
    ∀ r ∈ merge minified rules, r.Writable words := by
  intro r hr
  unfold merge at hr
  simp only [List.mem_append] at hr
  rcases hr with ((((hr | hr) | hr) | hr) | hr) | hr
  · exact writable_of_mem_reconciled h r hr
  · exact writable_of_mem_allowedRule h r hr
  · exact writable_of_mem_limitRule _ r hr
  · exact writable_of_mem_limitRule _ r hr
  · exact writable_of_mem_limitRule _ r hr
  · rw [List.mem_singleton.1 hr]
    trivial

end Policy

end PasswordPolicy
