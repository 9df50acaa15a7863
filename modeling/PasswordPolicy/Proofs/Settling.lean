import PasswordPolicy.Proofs.CanonicalCongr

/-!
# What a canonical list is regrouped into

**Two pools.** A canonical list has a pool of its own, to be compared with the pool of the list that
it comes from. If the classes that are stated by name are still to be stated so, and the same
characters are left over, the second pool settles the first (`Pool.Settles`).

Main results: then the named classes (`Pool.Settles.namedClasses_again`) and the custom ones
(`Pool.Settles.customClasses_again`) of the canonical list are the list itself, also with classes
without a range in front of it that went into it.
-/

namespace PasswordPolicy

open Text

/-- No class holds anything that is not printable. -/
def PrintableOnly (classes : List CharClass) : Prop :=
  ∀ c ∈ classes, ∀ ch, c.contains ch = true → isPrintable ch = true

/-! ## Named classes with and without a range -/

theorem CharClass.isFree_of_range {c : CharClass} (h : c.range = none) (role : Role) :
    c.isFree role = true := by
  simp [isFree, h]

theorem CharClass.range_ne_none {c : CharClass} {role : Role} (h : c.isFree role = false) :
    c.range ≠ none :=
  fun hr => absurd (isFree_of_range hr role) (by simp [h])

theorem CharClass.isFree_custom (cs : List Char) (range : Option CountRange) (role : Role) :
    (CharClass.mk (.custom cs) range).isFree role = range.isNone := by
  simp [isFree, isNamed, name?]

namespace Pool

variable {pool : Pool} {classes : List CharClass} {b : BasicClass}

@[simp]
theorem name?_namedClass (pool : Pool) (classes : List CharClass) (b : BasicClass) :
    (pool.namedClass classes b).name? = some (.basic b) := by
  rw [CharClass.name?, namedClass_body]

theorem isFree_namedClass_of_required (h : pool.role = .required) :
    (pool.namedClass classes b).isFree pool.role = true := by
  simp [CharClass.isFree, CharClass.isNamed, h]

/-- A complete class is stated by a free class. -/
theorem isFree_namedClass_of_complete (h : pool.isComplete b = true) :
    (pool.namedClass classes b).isFree pool.role = true := by
  unfold namedClass
  rw [if_pos h]
  cases hfind : classes.find? fun c => c.isFree pool.role && c.name? == some (.basic b) with
  | none => exact CharClass.isFree_of_range rfl pool.role
  | some c =>
    have hc := List.find?_some hfind
    rw [Bool.and_eq_true] at hc
    exact hc.1

theorem rangeOf_ne_none {c : CharClass} (hc : c ∈ classes) (h : pool.rangedBasic? c = some b) :
    pool.rangeOf classes b ≠ none := by
  have hrange := CharClass.range_ne_none (rangedBasic?_eq_some_iff.1 h).1
  obtain ⟨r, hr⟩ := Option.ne_none_iff_exists'.1 hrange
  have hmem : r ∈ (classes.filter (pool.rangedBasic? · == some b)).filterMap (·.range) :=
    List.mem_filterMap.2 ⟨c, List.mem_filter.2 ⟨hc, by simp [h]⟩, hr⟩
  obtain ⟨s, ranges, heq⟩ := List.exists_cons_of_ne_nil (List.ne_nil_of_mem hmem)
  unfold rangeOf
  rw [heq]
  cases pool.role with
  | required => simp
  | allowed => simp [widest]

/-- In an allowed list an incomplete class is stated with a range. -/
theorem isFree_namedClass_of_incomplete (hrole : pool.role = .allowed)
    (h : pool.isComplete b = false) (hb : b ∈ classes.flatMap pool.namesFrom) :
    (pool.namedClass classes b).isFree pool.role = false := by
  obtain ⟨c, hc, hname⟩ := List.mem_flatMap.1 hb
  rcases mem_namesFrom_iff.1 hname with ⟨-, hcomplete, -⟩ | hranged
  · exact absurd hcomplete (by simp [h])
  · obtain ⟨r, hr⟩ := Option.ne_none_iff_exists'.1 (rangeOf_ne_none hc hranged)
    simp [CharClass.isFree, namedClass, h, hr, hrole]

theorem rangedBasic?_namedClass (hrole : pool.role = .allowed) (h : pool.isComplete b = false)
    (hb : b ∈ classes.flatMap pool.namesFrom) :
    pool.rangedBasic? (pool.namedClass classes b) = some b := by
  refine rangedBasic?_eq_some_iff.2 ⟨isFree_namedClass_of_incomplete hrole h hb, ?_, h⟩
  rw [namedClass_body, ClassBody.basic?]

/-! ## The pool of a canonical list -/

/-- The pool `next` of a list that was regrouped from `classes`. In a required list the classes with
a range that are stated by name are in it as well. -/
structure Settles (classes : List CharClass) (pool next : Pool) : Prop where
  role : next.role = pool.role
  complete : ∀ b, pool.isComplete b = true → next.isComplete b = true
  named : pool.role = .required → ∀ b ∈ classes.flatMap pool.namesFrom, next.isComplete b = true
  leftovers : ∀ ch, ch ∈ next.leftovers ↔ ch ∈ pool.leftovers
  same : pool.role = .allowed → next = pool

/-- A class with a range that remains, with its members in order. -/
def kept (bracketed : Bool) (c : CharClass) : CharClass :=
  ⟨.custom (arrange bracketed c.chars), c.range⟩

variable {next : Pool} {bracketed : Bool} {c d : CharClass}

theorem Settles.isFree_namedClass (h : Settles classes pool next)
    (hb : b ∈ classes.flatMap pool.namesFrom)
    (hfree : (pool.namedClass classes b).isFree next.role = true) : next.isComplete b = true := by
  rw [h.role] at hfree
  cases hrole : pool.role with
  | required => exact h.named hrole b hb
  | allowed =>
    refine h.complete b (Bool.not_eq_false _ ▸ fun hincomplete => ?_)
    rw [isFree_namedClass_of_incomplete hrole hincomplete hb] at hfree
    exact absurd hfree (by decide)

theorem Settles.role_of_not_isFree (h : Settles classes pool next)
    (hfree : ¬(pool.namedClass classes b).isFree next.role = true) : pool.role = .allowed := by
  cases hrole : pool.role with
  | required => exact absurd (h.role ▸ isFree_namedClass_of_required hrole) hfree
  | allowed => rfl

theorem Settles.namesFrom_namedClass (h : Settles classes pool next)
    (hb : b ∈ classes.flatMap pool.namesFrom) :
    next.namesFrom (pool.namedClass classes b) = [b] := by
  have hmentions : ∀ x, (pool.namedClass classes b).body.mentions x = (x == b) := by
    intro x
    rw [namedClass_body]
    cases b <;> cases x <;> rfl
  unfold namesFrom
  by_cases hfree : (pool.namedClass classes b).isFree next.role = true
  · have hcomplete := h.isFree_namedClass hb hfree
    have honly : ∀ x ∈ BasicClass.all,
        (next.isComplete x && (pool.namedClass classes b).body.mentions x) = (x == b) := by
      intro x _
      rw [hmentions]
      by_cases hx : x = b <;> simp [hx, hcomplete]
    rw [if_pos hfree, List.filter_congr honly]
    cases b <;> rfl
  · have hincomplete : pool.isComplete b = false := by
      refine Bool.not_eq_true _ ▸ fun hcomplete => hfree ?_
      rw [h.role]
      exact isFree_namedClass_of_complete hcomplete
    have hallowed : pool.role = .allowed := h.role_of_not_isFree hfree
    have hranged := rangedBasic?_namedClass hallowed hincomplete hb
    rw [if_neg hfree, h.same hallowed, hranged]
    rfl

theorem contains_kept (hp : ∀ ch, d.contains ch = true → isPrintable ch = true) (ch : Char) :
    (kept bracketed d).contains ch = d.contains ch := by
  show (arrange bracketed d.chars).contains ch = d.contains ch
  rw [Bool.eq_iff_iff, List.contains_iff_mem, mem_arrange_iff, CharClass.mem_chars_iff]
  exact and_iff_left_of_imp (hp ch)

/-- What remained a custom class does not amount to an incomplete basic class any more. -/
theorem Settles.rangedBasic?_kept (h : Settles classes pool next) (hp : PrintableOnly classes)
    (hd : d ∈ classes) (hfree : d.isFree pool.role = false)
    (hremains : ∃ before, pool.remains before d = true) :
    next.rangedBasic? (kept bracketed d) = none := by
  refine Option.eq_none_iff_forall_ne_some.2 fun b hb => ?_
  obtain ⟨-, hbasic, hincomplete⟩ := rangedBasic?_eq_some_iff.1 hb
  have hbasic : d.body.basic? = some b := by
    rw [ClassBody.basic?_eq_some_iff] at hbasic ⊢
    intro ch
    exact (contains_kept (hp d hd) ch).symm.trans (hbasic ch)
  have hranged : pool.rangedBasic? d = some b := by
    refine rangedBasic?_eq_some_iff.2 ⟨hfree, hbasic, Bool.not_eq_true _ ▸ fun hcomplete => ?_⟩
    exact absurd (h.complete b hcomplete) (by simp [hincomplete])
  cases hrole : pool.role with
  | required =>
    have hb : b ∈ classes.flatMap pool.namesFrom :=
      List.mem_flatMap.2 ⟨d, hd, mem_namesFrom_iff.2 (.inr hranged)⟩
    exact absurd (h.named hrole b hb) (by simp [hincomplete])
  | allowed =>
    obtain ⟨before, hremains⟩ := hremains
    simp [remains, hrole, hranged] at hremains

theorem Settles.namesFrom_custom (h : Settles classes pool next) (hp : PrintableOnly classes)
    (hc : c ∈ pool.customClasses bracketed classes) : next.namesFrom c = [] := by
  rcases mem_customClassesAfter hc with ⟨rfl, -⟩ | ⟨d, hd, hfree, hremains, rfl⟩
  · unfold namesFrom
    rw [if_pos (CharClass.isFree_of_range rfl _)]
    refine List.filter_eq_nil_iff.2 fun b _ hb => ?_
    rw [Bool.and_eq_true] at hb
    obtain ⟨ch, hch, hbch⟩ := List.any_eq_true.1 hb.2
    -- Whatever is left over belongs to a class that is still incomplete.
    have hleft := (h.leftovers ch).2 (mem_arrange_iff.1 hch).1
    obtain ⟨-, x, hx, hxch⟩ := mem_leftovers_iff.1 hleft
    obtain rfl := BasicClass.eq_of_contains hbch hxch
    exact absurd hb.1 (by simp [hx])
  · unfold namesFrom
    have hrange := Option.ne_none_iff_isSome.1 (CharClass.range_ne_none hfree)
    have hkept : next.rangedBasic? (kept bracketed d) = none :=
      h.rangedBasic?_kept hp hd hfree hremains
    rw [kept] at hkept
    rw [hkept, CharClass.isFree_custom, ← Option.not_isSome, hrange]
    rfl

theorem Settles.rangedBasic?_custom (h : Settles classes pool next) (hp : PrintableOnly classes)
    (hc : c ∈ pool.customClasses bracketed classes) : next.rangedBasic? c = none := by
  refine Option.eq_none_iff_forall_ne_some.2 fun b hb => ?_
  have hname := mem_namesFrom_iff.2 (.inr hb)
  rw [h.namesFrom_custom hp hc] at hname
  exact absurd hname List.not_mem_nil

theorem name?_custom (hc : c ∈ pool.customClasses bracketed classes) : c.name? = none := by
  rcases mem_customClassesAfter hc with ⟨rfl, -⟩ | ⟨d, -, -, -, rfl⟩ <;> rfl

/-! ## Named classes again -/

theorem mem_namedClasses_iff : c ∈ pool.namedClasses classes ↔
    ∃ b ∈ classes.flatMap pool.namesFrom, c = pool.namedClass classes b := by
  unfold namedClasses
  simp only [List.mem_map, List.mem_eraseDups, @eq_comm _ c]

/-- In an allowed list a complete class is stated without a range, whoever names it. -/
theorem namedClass_of_allowed (hrole : pool.role = .allowed) (h : pool.isComplete b = true)
    (classes : List CharClass) : pool.namedClass classes b = .basic b := by
  rcases pool.namedClass_cases classes b with heq | ⟨c, -, hfree, hname, heq⟩ | heq
  · exact heq
  · have hrange : c.range = none := by simpa [CharClass.isFree, hrole] using hfree
    rw [heq, CharClass.basic, CharClass.named, ← CharClass.body_of_name? hname, ← hrange]
  · have hfree : (pool.namedClass classes b).isFree pool.role = true :=
      isFree_namedClass_of_complete h
    have hrange : pool.rangeOf classes b = none := by
      simpa [CharClass.isFree, hrole, heq] using hfree
    rw [heq, hrange]
    rfl

section Again

variable {front rest : List CharClass}

/-- Of the classes in front, the named and the custom ones only a named one states the class `b`. -/
theorem Settles.eq_namedClass (h : Settles classes pool next) (hp : PrintableOnly classes)
    (hfront : ∀ d ∈ front, d.isFree next.role = true)
    (hc : c ∈ front ++ (pool.namedClasses classes ++ pool.customClasses bracketed classes))
    (hb : next.rangedBasic? c = some b) : c = pool.namedClass classes b := by
  rcases List.mem_append.1 hc with hc | hc
  · exact absurd (rangedBasic?_eq_some_iff.1 hb).1 (by simp [hfront c hc])
  · rcases List.mem_append.1 hc with hc | hc
    · obtain ⟨x, -, rfl⟩ := mem_namedClasses_iff.1 hc
      have hbasic := (rangedBasic?_eq_some_iff.1 hb).2.1
      rw [namedClass_body, ClassBody.basic?, Option.some.injEq] at hbasic
      rw [hbasic]
    · exact absurd hb (by simp [h.rangedBasic?_custom hp hc])

/-- Each basic class is stated by name once, and custom classes have no name. -/
theorem find?_namedClass {role : Role} (hb : b ∈ classes.flatMap pool.namesFrom)
    (hfree : (pool.namedClass classes b).isFree role = true) :
    (pool.namedClasses classes ++ pool.customClasses bracketed classes).find?
      (fun c => c.isFree role && c.name? == some (ClassName.basic b)) =
        some (pool.namedClass classes b) := by
  have hmem := mem_namedClasses_iff.2 ⟨b, hb, rfl⟩
  refine find?_eq_some_of_unique (List.mem_append_left _ hmem) (by simp [hfree]) ?_
  intro c hc hfound
  rw [Bool.and_eq_true, beq_iff_eq] at hfound
  rcases List.mem_append.1 hc with hc | hc
  · obtain ⟨x, -, rfl⟩ := mem_namedClasses_iff.1 hc
    have hname : some (ClassName.basic x) = some (.basic b) :=
      (name?_namedClass pool classes x).symm.trans hfound.2
    cases hname
    rfl
  · exact absurd hfound.2 (by simp [name?_custom hc])

theorem isFree_of_mem_front {role : Role}
    (hfront : front = [] ∨ pool.role = .allowed ∧ ∀ d ∈ front, d.range = none) :
    ∀ d ∈ front, d.isFree role = true := by
  rcases hfront with rfl | ⟨-, hrange⟩
  · simp
  · exact fun d hd => CharClass.isFree_of_range (hrange d hd) role

theorem Settles.namedClass_again (h : Settles classes pool next) (hp : PrintableOnly classes)
    (hfront : front = [] ∨ pool.role = .allowed ∧ ∀ d ∈ front, d.range = none)
    (hb : b ∈ classes.flatMap pool.namesFrom) :
    next.namedClass
      (front ++ (pool.namedClasses classes ++ pool.customClasses bracketed classes)) b =
        pool.namedClass classes b := by
  have hmem : pool.namedClass classes b ∈
      front ++ (pool.namedClasses classes ++ pool.customClasses bracketed classes) :=
    List.mem_append_right _ (List.mem_append_left _ (mem_namedClasses_iff.2 ⟨b, hb, rfl⟩))
  cases hrole : pool.role with
  | allowed =>
    obtain rfl := h.same hrole
    cases hcomplete : next.isComplete b with
    | true => rw [namedClass_of_allowed hrole hcomplete, namedClass_of_allowed hrole hcomplete]
    | false =>
      have hne := rangeOf_ne_none hmem (rangedBasic?_namedClass hrole hcomplete hb)
      obtain ⟨r, hr⟩ := Option.ne_none_iff_exists'.1 hne
      obtain ⟨c, hc, hranged, hcr⟩ := mem_of_rangeOf hr
      rw [h.eq_namedClass hp (isFree_of_mem_front hfront) hc hranged] at hcr
      simp only [namedClass, hcomplete, Bool.false_eq_true, if_false] at hcr ⊢
      rw [hr, hcr]
  | required =>
    obtain rfl : front = [] := by
      rcases hfront with hnil | ⟨hallowed, -⟩
      · exact hnil
      · exact absurd hallowed (by simp [hrole])
    have hisfree : (pool.namedClass classes b).isFree next.role = true := by
      rw [h.role]
      exact isFree_namedClass_of_required hrole
    rw [List.nil_append, namedClass, if_pos (h.named hrole b hb), find?_namedClass hb hisfree]
    rfl

theorem Settles.namedClasses_again (h : Settles (front ++ rest) pool next)
    (hp : PrintableOnly (front ++ rest))
    (hfront : front = [] ∨ pool.role = .allowed ∧ ∀ d ∈ front, d.range = none) :
    next.namedClasses (front ++ (pool.namedClasses (front ++ rest) ++
        pool.customClasses bracketed (front ++ rest))) = pool.namedClasses (front ++ rest) := by
  have hnames : (front ++ (pool.namedClasses (front ++ rest) ++
      pool.customClasses bracketed (front ++ rest))).flatMap next.namesFrom =
        front.flatMap pool.namesFrom ++ ((front ++ rest).flatMap pool.namesFrom).eraseDups := by
    rw [List.flatMap_append, List.flatMap_append]
    congr 1
    · rcases hfront with rfl | ⟨hallowed, -⟩
      · rfl
      · rw [h.same hallowed]
    · have hcustom : (pool.customClasses bracketed (front ++ rest)).flatMap next.namesFrom = [] :=
        List.flatMap_eq_nil_iff.2 fun c hc => h.namesFrom_custom hp hc
      rw [hcustom, List.append_nil, namedClasses, List.flatMap_map]
      have hself : ∀ bs : List BasicClass, (∀ b ∈ bs, b ∈ (front ++ rest).flatMap pool.namesFrom) →
          bs.flatMap (fun b => next.namesFrom (pool.namedClass (front ++ rest) b)) = bs := by
        intro bs hbs
        induction bs with
        | nil => rfl
        | cons b bs ih =>
          rw [List.flatMap_cons, h.namesFrom_namedClass (hbs b List.mem_cons_self),
            ih fun x hx => hbs x (List.mem_cons_of_mem b hx)]
          rfl
      exact hself _ fun b hb => List.mem_eraseDups.1 hb
  have hall : (front.flatMap pool.namesFrom ++
      ((front ++ rest).flatMap pool.namesFrom).eraseDups).eraseDups =
        ((front ++ rest).flatMap pool.namesFrom).eraseDups := by
    rw [List.flatMap_append]
    exact eraseDups_append_again _ _
  rw [namedClasses, hnames, hall]
  conv => rhs; rw [namedClasses]
  refine List.map_congr_left fun b hb => ?_
  exact h.namedClass_again hp hfront (List.mem_eraseDups.1 hb)

end Again

/-! ## Custom classes again -/

theorem customClassesAfter_of_free {before : List CharClass}
    (hfree : ∀ c ∈ classes, c.isFree pool.role = true) :
    pool.customClassesAfter bracketed before classes =
      if classes.any pool.holdsLeftovers && !before.any pool.holdsLeftovers then
        [.custom (arrange bracketed pool.leftovers)]
      else [] := by
  induction classes generalizing before with
  | nil => rfl
  | cons c classes ih =>
    have hremains : pool.remains before c = false := by
      simp [remains, hfree c List.mem_cons_self]
    rw [customClassesAfter, ih fun d hd => hfree d (List.mem_cons_of_mem c hd), hremains]
    by_cases hc : pool.holdsLeftovers c = true <;>
      by_cases hb : before.any pool.holdsLeftovers = true <;> simp [hc, hb]

theorem customClassesAfter_eq_nil {before : List CharClass}
    (h : ∀ c ∈ classes, pool.holdsLeftovers c = false ∧ ∀ before, pool.remains before c = false) :
    pool.customClassesAfter bracketed before classes = [] := by
  induction classes generalizing before with
  | nil => rfl
  | cons c classes ih =>
    obtain ⟨hholds, hremains⟩ := h c List.mem_cons_self
    rw [customClassesAfter, ih fun d hd => h d (List.mem_cons_of_mem c hd), hholds, hremains]
    rfl

theorem Settles.arrange_leftovers (h : Settles classes pool next) :
    arrange bracketed next.leftovers = arrange bracketed pool.leftovers :=
  arrange_congr fun ch _ => h.leftovers ch

theorem holdsLeftovers_namedClass (pool next : Pool) (classes : List CharClass) (b : BasicClass) :
    next.holdsLeftovers (pool.namedClass classes b) = false := by
  simp [holdsLeftovers, CharClass.isNamed]

theorem Settles.customClassesAfter_named (h : Settles classes pool next) (before : List CharClass) :
    next.customClassesAfter bracketed before (pool.namedClasses classes) = [] := by
  refine customClassesAfter_eq_nil fun c hc => ?_
  obtain ⟨b, hb, rfl⟩ := mem_namedClasses_iff.1 hc
  refine ⟨holdsLeftovers_namedClass pool next classes b, fun before => ?_⟩
  by_cases hfree : (pool.namedClass classes b).isFree next.role = true
  · simp [remains, hfree]
  · have hallowed : pool.role = .allowed := h.role_of_not_isFree hfree
    have hincomplete : pool.isComplete b = false := by
      refine Bool.not_eq_true _ ▸ fun hcomplete => hfree ?_
      rw [h.role]
      exact isFree_namedClass_of_complete hcomplete
    simp [remains, h.same hallowed, hallowed, rangedBasic?_namedClass hallowed hincomplete hb]

theorem isFree_eq_false_of_remains {before : List CharClass} (h : pool.remains before d = true) :
    d.isFree pool.role = false := by
  unfold remains at h
  rw [Bool.and_eq_true, Bool.not_eq_true'] at h
  exact h.1

theorem isFree_kept {role : Role} (hfree : d.isFree role = false) (role' : Role) :
    (kept bracketed d).isFree role' = false := by
  rw [kept, CharClass.isFree_custom, Option.isNone_eq_false_iff, ← Option.ne_none_iff_isSome]
  exact CharClass.range_ne_none hfree

theorem holdsLeftovers_kept (hfree : d.isFree pool.role = false) :
    next.holdsLeftovers (kept bracketed d) = false := by
  simp [holdsLeftovers, isFree_kept hfree]

/-- What remained a custom class once remains one again. -/
theorem Settles.remains_kept (h : Settles classes pool next) (hp : PrintableOnly classes)
    (hd : d ∈ classes) {before : List CharClass} (hremains : pool.remains before d = true)
    (after : List CharClass) : next.remains after (kept bracketed d) = true := by
  have hfree := isFree_eq_false_of_remains hremains
  have hranged : next.rangedBasic? (kept bracketed d) = none :=
    h.rangedBasic?_kept hp hd hfree ⟨before, hremains⟩
  have hkept : (kept bracketed d).isFree next.role = false := isFree_kept hfree _
  have hrole := h.role
  cases hwas : pool.role with
  | required =>
    rw [hwas] at hrole
    rw [hrole] at hkept
    simp [remains, hkept, hranged, hrole]
  | allowed =>
    -- The members are the same, so they are no more in the pool than they were.
    have hall : (kept bracketed d).chars.all pool.chars.contains =
        d.chars.all pool.chars.contains := by
      rw [Bool.eq_iff_iff, List.all_eq_true, List.all_eq_true]
      simp only [CharClass.mem_chars_iff, contains_kept (hp d hd)]
    have hout : d.chars.all pool.chars.contains = false := by
      unfold remains at hremains
      rw [hwas] at hremains hfree
      cases hbasic : pool.rangedBasic? d with
      | some b => simp [hbasic] at hremains
      | none => simpa [hbasic, hfree] using hremains
    rw [h.same hwas] at hkept hranged ⊢
    unfold remains
    rw [hwas] at hkept ⊢
    rw [hkept, hranged, hall, hout]
    rfl

/-- The leftovers hold what is left over again. -/
theorem Settles.holdsLeftovers_leftovers (h : Settles classes pool next)
    (hp : PrintableOnly classes) (hd : d ∈ classes) (hholds : pool.holdsLeftovers d = true) :
    next.holdsLeftovers (.custom (arrange bracketed pool.leftovers)) = true := by
  unfold holdsLeftovers at hholds ⊢
  simp only [Bool.and_eq_true, List.any_eq_true, List.contains_iff_mem] at hholds ⊢
  obtain ⟨-, ch, hch, hleft⟩ := hholds
  refine ⟨⟨CharClass.isFree_of_range rfl _, rfl⟩, ch, mem_arrange_iff.2 ⟨hleft, ?_⟩, ?_⟩
  · exact hp d hd ch (CharClass.mem_chars_iff.1 hch)
  · exact (h.leftovers ch).2 hleft

theorem customClassesAfter_of_remains {before : List CharClass} (h : pool.remains before c = true) :
    pool.customClassesAfter bracketed before (c :: classes) =
      kept bracketed c :: pool.customClassesAfter bracketed (c :: before) classes := by
  have hholds : pool.holdsLeftovers c = false := by
    simp [holdsLeftovers, isFree_eq_false_of_remains h]
  rw [customClassesAfter, hholds, h]
  rfl

theorem kept_kept (bracketed : Bool) (c : CharClass) : kept bracketed (kept bracketed c) =
    kept bracketed c := by
  show CharClass.mk (.custom (arrange bracketed (arrange bracketed c.chars))) c.range = _
  rw [arrange_arrange]
  rfl

/-- The custom classes are the same again, if the leftovers came up before in both lists or in
neither. -/
theorem Settles.customClassesAfter_again (h : Settles classes pool next)
    (hp : PrintableOnly classes) {rest : List CharClass} (hrest : ∀ d ∈ rest, d ∈ classes)
    {before after : List CharClass}
    (hbefore : after.any next.holdsLeftovers = before.any pool.holdsLeftovers) :
    next.customClassesAfter bracketed after (pool.customClassesAfter bracketed before rest) =
      pool.customClassesAfter bracketed before rest := by
  induction rest generalizing before after with
  | nil => rfl
  | cons d rest ih =>
    have hd := hrest d List.mem_cons_self
    have hrest := fun e he => hrest e (List.mem_cons_of_mem d he)
    by_cases hremains : pool.remains before d = true
    · have hfree := isFree_eq_false_of_remains hremains
      have hholds : pool.holdsLeftovers d = false := by simp [holdsLeftovers, hfree]
      have hkept : next.holdsLeftovers (kept bracketed d) = false := holdsLeftovers_kept hfree
      rw [customClassesAfter_of_remains hremains,
        customClassesAfter_of_remains (h.remains_kept hp hd hremains after), kept_kept, ih hrest]
      simp [hkept, hholds, hbefore]
    · rw [customClassesAfter, if_neg hremains]
      by_cases hfirst : (pool.holdsLeftovers d && !before.any pool.holdsLeftovers) = true
      · -- The leftovers stand here, and here they come up for the first time.
        rw [if_pos hfirst]
        rw [Bool.and_eq_true, Bool.not_eq_true'] at hfirst
        have hholds : next.holdsLeftovers (.custom (arrange bracketed pool.leftovers)) = true :=
          h.holdsLeftovers_leftovers hp hd hfirst.1
        rw [List.singleton_append, customClassesAfter, hholds, hbefore, hfirst.2,
          h.arrange_leftovers, ih hrest]
        · rfl
        · simp [hholds, hfirst.1]
      · rw [if_neg hfirst, List.nil_append, ih hrest]
        rw [hbefore, List.any_cons]
        cases hb : before.any pool.holdsLeftovers with
        | true => simp
        | false => simpa [hb] using hfirst

theorem Settles.customClasses_again {front rest : List CharClass}
    (h : Settles (front ++ rest) pool next) (hp : PrintableOnly (front ++ rest))
    (hfront : front = [] ∨ pool.role = .allowed ∧ ∀ d ∈ front, d.range = none) :
    next.customClasses bracketed (front ++ (pool.namedClasses (front ++ rest) ++
        pool.customClasses bracketed (front ++ rest))) =
      pool.customClasses bracketed (front ++ rest) := by
  have hsame : next.customClassesAfter bracketed [] front =
      pool.customClassesAfter bracketed [] front ∧
        front.any next.holdsLeftovers = front.any pool.holdsLeftovers := by
    rcases hfront with rfl | ⟨hallowed, -⟩
    · exact ⟨rfl, rfl⟩
    · rw [h.same hallowed]
      exact ⟨rfl, rfl⟩
  have hnamed : (pool.namedClasses (front ++ rest)).any next.holdsLeftovers = false := by
    refine List.any_eq_false.2 fun c hc => ?_
    obtain ⟨b, -, rfl⟩ := mem_namedClasses_iff.1 hc
    simp [holdsLeftovers_namedClass]
  have hrest : ∀ d ∈ rest, d ∈ front ++ rest := fun d hd => List.mem_append_right _ hd
  unfold customClasses
  rw [customClassesAfter_append, customClassesAfter_append, h.customClassesAfter_named,
    List.nil_append, hsame.1]
  conv => rhs; rw [customClassesAfter_append]
  congr 1
  rw [customClassesAfter_append, customClassesAfter_append,
    customClassesAfter_of_free (isFree_of_mem_front hfront)]
  cases hany : front.any pool.holdsLeftovers with
  | false =>
    -- Nothing in front holds leftovers.
    rw [Bool.false_and, if_neg (by decide), List.append_nil]
    refine h.customClassesAfter_again hp hrest ?_
    simp [hnamed, hsame.2, hany]
  | true =>
    -- The leftovers come up in front already, so their class is passed over.
    have hbefore : ((pool.namedClasses (front ++ rest)).reverse ++ (front.reverse ++ [])).any
        next.holdsLeftovers = true := by
      simp [hnamed, hsame.2, hany]
    have hleft : ∀ c ∈ [CharClass.custom (arrange bracketed pool.leftovers)],
        c.isFree next.role = true := by
      intro c hc
      rw [List.mem_singleton.1 hc]
      exact CharClass.isFree_of_range rfl _
    rw [Bool.true_and, if_pos (by rfl), customClassesAfter_of_free hleft, hbefore, Bool.not_true,
      Bool.and_false, if_neg (by decide), List.nil_append]
    refine h.customClassesAfter_again hp hrest ?_
    rw [List.any_append, hbefore, Bool.or_true]
    simp [hany]

end Pool

/-- A list whose pool is settled by the pool of its canonical form has reached that form. -/
theorem Pool.Settles.regrouped_again {role : Role} {bracketed : Bool} {front rest : List CharClass}
    (h : Settles (front ++ rest) (ofClasses role (front ++ rest))
      (ofClasses role (front ++ regrouped role bracketed (front ++ rest))))
    (hp : PrintableOnly (front ++ rest))
    (hfront : front = [] ∨ role = .allowed ∧ ∀ d ∈ front, d.range = none) :
    regrouped role bracketed (front ++ regrouped role bracketed (front ++ rest)) =
      regrouped role bracketed (front ++ rest) := by
  unfold regrouped at h ⊢
  rw [h.namedClasses_again hp hfront, h.customClasses_again hp hfront]

end PasswordPolicy
