import PasswordPolicy.Proofs.Pool

/-!
# The classes of a canonical list

**Ordinary lists** are those that canonicalization takes apart: they neither hold a universal class
nor amount to one. The classes of their canonical form are the named ones (`Pool.mem_names_iff`) and
the custom ones, the leftovers and what remains (`Pool.mem_customClassesAfter`).

Main results: canonicalization neither adds nor loses a character (`covers_canonical`) and makes up
no range (`range_of_mem_canonical`).
-/

namespace PasswordPolicy

open Text

/-! ## The four outcomes -/

/-- A list that neither holds a universal class nor amounts to one. -/
structure Ordinary (role : Role) (classes : List CharClass) : Prop where
  noUniversal : universal? classes = none
  uncovered : role = .required → ¬printable.all (covers classes) = true
  incomplete : ¬BasicClass.all.all (Pool.ofClasses role classes).isComplete = true

instance (role : Role) (classes : List CharClass) : Decidable (Ordinary role classes) :=
  decidable_of_iff (universal? classes = none ∧
      (role = .required → ¬printable.all (covers classes) = true) ∧
      ¬BasicClass.all.all (Pool.ofClasses role classes).isComplete = true)
    ⟨fun h => ⟨h.1, h.2.1, h.2.2⟩, fun h => ⟨h.noUniversal, h.uncovered, h.incomplete⟩⟩

/-- The named classes and then the custom ones. -/
def regrouped (role : Role) (bracketed : Bool) (classes : List CharClass) : List CharClass :=
  (Pool.ofClasses role classes).namedClasses classes ++
    (Pool.ofClasses role classes).customClasses bracketed classes

section Outcomes

variable {role : Role} {bracketed : Bool} {classes : List CharClass}

theorem canonical_of_universal {c : CharClass} (h : universal? classes = some c) :
    canonical role bracketed classes = [c] := by
  unfold canonical
  rw [h]

theorem canonical_of_covering (bracketed : Bool) (hu : universal? classes = none)
    (hall : printable.all (covers classes) = true) : canonical .required bracketed classes =
      if anyRange classes then classes else [.named .asciiPrintable] := by
  unfold canonical
  rw [hu]
  simp only [hall, and_self, if_true]

theorem Ordinary.canonical_eq (h : Ordinary role classes) :
    canonical role bracketed classes = regrouped role bracketed classes := by
  unfold canonical
  rw [h.noUniversal]
  have huncovered : ¬(role = .required ∧ printable.all (covers classes) = true) :=
    fun hr => h.uncovered hr.1 hr.2
  simp only [huncovered, h.incomplete, if_false]
  rfl

/-- What can become of a list: its universal class, itself, all printable characters, or its parts
in canonical order. -/
theorem canonical_cases (role : Role) (bracketed : Bool) (classes : List CharClass) :
    (∃ c, universal? classes = some c ∧ canonical role bracketed classes = [c]) ∨
      (universal? classes = none ∧
        ((role = .required ∧ printable.all (covers classes) = true ∧ anyRange classes = true ∧
            canonical role bracketed classes = classes) ∨
          (printable.all (covers classes) = true ∧
            canonical role bracketed classes = [.named .asciiPrintable]))) ∨
      Ordinary role classes := by
  cases hu : universal? classes with
  | some c => exact .inl ⟨c, rfl, canonical_of_universal hu⟩
  | none =>
    by_cases hall : role = .required ∧ printable.all (covers classes) = true
    · obtain ⟨rfl, hall⟩ := hall
      have hcanonical := canonical_of_covering bracketed hu hall
      by_cases hrange : anyRange classes = true
      · rw [if_pos hrange] at hcanonical
        exact .inr (.inl ⟨rfl, .inl ⟨rfl, hall, hrange, hcanonical⟩⟩)
      · rw [if_neg hrange] at hcanonical
        exact .inr (.inl ⟨rfl, .inr ⟨hall, hcanonical⟩⟩)
    · by_cases hcomplete : BasicClass.all.all (Pool.ofClasses role classes).isComplete = true
      · refine .inr (.inl ⟨rfl, .inr ⟨?_, ?_⟩⟩)
        · rw [List.all_eq_true] at hcomplete ⊢
          intro ch hch
          obtain ⟨b, hb⟩ := BasicClass.exists_contains (mem_printable_iff.1 hch)
          have hmem := Pool.isComplete_iff.1 (hcomplete b b.mem_all) ch hb
          obtain ⟨-, c, hc, -, hcontains⟩ := Pool.mem_ofClasses_iff.1 hmem
          exact covers_iff.2 ⟨c, hc, hcontains⟩
        · unfold canonical
          simp only [hu, hall, hcomplete, if_true, if_false]
      · exact .inr (.inr ⟨hu, fun hr hc => hall ⟨hr, hc⟩, hcomplete⟩)

end Outcomes

/-! ## Named classes -/

namespace Pool

variable {role : Role} {classes : List CharClass} {bracketed : Bool}

theorem mem_namesFrom_iff {pool : Pool} {c : CharClass} {b : BasicClass} :
    b ∈ pool.namesFrom c ↔
      (c.isFree pool.role = true ∧ pool.isComplete b = true ∧ c.body.mentions b = true) ∨
        pool.rangedBasic? c = some b := by
  unfold namesFrom
  by_cases h : c.isFree pool.role = true
  · simp [h, b.mem_all, rangedBasic?_eq_some_iff]
  · simp [h]

/-- Every complete class is stated by name, and so is every class that another one with a range
amounts to. -/
theorem mem_names_iff (hu : universal? classes = none) {b : BasicClass} :
    b ∈ classes.flatMap (ofClasses role classes).namesFrom ↔
      (ofClasses role classes).isComplete b = true ∨
        ∃ c ∈ classes, (ofClasses role classes).rangedBasic? c = some b := by
  simp only [List.mem_flatMap, mem_namesFrom_iff]
  constructor
  · rintro ⟨c, hc, ⟨-, hcomplete, -⟩ | hranged⟩
    · exact .inl hcomplete
    · exact .inr ⟨c, hc, hranged⟩
  · rintro (hcomplete | ⟨c, hc, hranged⟩)
    · have hmem := isComplete_iff.1 hcomplete b.member b.contains_member
      obtain ⟨-, c, hc, hfree, hcontains⟩ := mem_ofClasses_iff.1 hmem
      have hmentions := (CharClass.mentions_iff (universal?_eq_none_iff.1 hu c hc)).2
        ⟨b.member, hcontains, b.contains_member⟩
      exact ⟨c, hc, .inl ⟨hfree, hcomplete, hmentions⟩⟩
    · exact ⟨c, hc, .inr hranged⟩

/-- Taking the wider of two ranges again and again ends with one that allows the most. -/
theorem foldl_widest (ranges : List CountRange) (a : CountRange) :
    ranges.foldl (fun a b => if a.most < b.most then b else a) a ∈ a :: ranges ∧
      ∀ s ∈ a :: ranges,
        s.most ≤ (ranges.foldl (fun a b => if a.most < b.most then b else a) a).most := by
  induction ranges generalizing a with
  | nil =>
    refine ⟨List.mem_cons_self, fun s hs => ?_⟩
    rw [List.mem_singleton.1 hs]
    exact UInt32.le_refl _
  | cons b ranges ih =>
    obtain ⟨hmem, hmost⟩ := ih (if a.most < b.most then b else a)
    rw [List.foldl_cons]
    by_cases hlt : a.most < b.most
    · rw [if_pos hlt] at hmem hmost ⊢
      refine ⟨List.mem_cons_of_mem a hmem, fun s hs => ?_⟩
      rcases List.mem_cons.1 hs with rfl | hs
      · exact UInt32.le_trans (UInt32.le_of_lt hlt) (hmost b List.mem_cons_self)
      · exact hmost s hs
    · rw [if_neg hlt] at hmem hmost ⊢
      have ha := hmost a List.mem_cons_self
      refine ⟨?_, fun s hs => ?_⟩
      · rcases List.mem_cons.1 hmem with heq | hmem
        · rw [heq]
          exact List.mem_cons_self
        · exact List.mem_cons_of_mem a (List.mem_cons_of_mem b hmem)
      · rcases List.mem_cons.1 hs with rfl | hs
        · exact ha
        · rcases List.mem_cons.1 hs with rfl | hs
          · exact UInt32.le_trans (UInt32.not_lt.1 hlt) ha
          · exact hmost s (List.mem_cons_of_mem a hs)

theorem mem_of_widest {ranges : List CountRange} {r : CountRange} (h : widest ranges = some r) :
    r ∈ ranges := by
  cases ranges with
  | nil => exact absurd h (by simp [widest])
  | cons a ranges =>
    obtain rfl := Option.some.inj h
    exact (foldl_widest ranges a).1

theorem most_le_of_widest {ranges : List CountRange} {r s : CountRange}
    (h : widest ranges = some r) (hs : s ∈ ranges) : s.most ≤ r.most := by
  cases ranges with
  | nil => cases hs
  | cons a ranges =>
    obtain rfl := Option.some.inj h
    exact (foldl_widest ranges a).2 s hs

theorem mem_of_rangeOf {pool : Pool} {b : BasicClass} {r : CountRange}
    (h : pool.rangeOf classes b = some r) :
    ∃ c ∈ classes, pool.rangedBasic? c = some b ∧ c.range = some r := by
  have hmem : r ∈ (classes.filter (pool.rangedBasic? · == some b)).filterMap (·.range) := by
    unfold rangeOf at h
    split at h
    · exact List.mem_of_head? h
    · exact mem_of_widest h
  obtain ⟨c, hc, hr⟩ := List.mem_filterMap.1 hmem
  obtain ⟨hc, hb⟩ := List.mem_filter.1 hc
  exact ⟨c, hc, by simpa using hb, hr⟩

theorem namedClass_cases (pool : Pool) (classes : List CharClass) (b : BasicClass) :
    pool.namedClass classes b = .basic b ∨
      (∃ c ∈ classes, c.isFree pool.role = true ∧ c.name? = some (.basic b) ∧
        pool.namedClass classes b = c) ∨
      pool.namedClass classes b = ⟨.named (.basic b), pool.rangeOf classes b⟩ := by
  unfold namedClass
  split
  · cases hfind : classes.find? fun c => c.isFree pool.role && c.name? == some (.basic b) with
    | none => exact .inl rfl
    | some c =>
      have hc := List.find?_some hfind
      rw [Bool.and_eq_true, beq_iff_eq] at hc
      exact .inr (.inl ⟨c, List.mem_of_find?_eq_some hfind, hc.1, hc.2, rfl⟩)
  · exact .inr (.inr rfl)

end Pool

theorem CharClass.body_of_name? {c : CharClass} {n : ClassName} (h : c.name? = some n) :
    c.body = .named n := by
  obtain ⟨body, range⟩ := c
  cases body with
  | named m => exact congrArg ClassBody.named (Option.some.inj h)
  | custom cs => exact absurd h (by simp [name?])

@[simp]
theorem Pool.namedClass_body (pool : Pool) (classes : List CharClass) (b : BasicClass) :
    (pool.namedClass classes b).body = .named (.basic b) := by
  rcases pool.namedClass_cases classes b with h | ⟨c, -, -, hname, h⟩ | h
  · rw [h]
    rfl
  · rw [h]
    exact CharClass.body_of_name? hname
  · rw [h]

/-- A free class that names a basic class brings all of it into the pool. -/
theorem Pool.isComplete_of_name? {role : Role} {classes : List CharClass} {c : CharClass}
    {b : BasicClass} (hc : c ∈ classes) (hfree : c.isFree role = true)
    (hname : c.name? = some (.basic b)) : (ofClasses role classes).isComplete b = true := by
  refine isComplete_iff.2 fun ch hch => mem_ofClasses_iff.2 ?_
  refine ⟨BasicClass.isPrintable_of_contains hch, c, hc, hfree, ?_⟩
  rw [CharClass.contains, CharClass.body_of_name? hname]
  exact hch

/-! ## Custom classes -/

namespace Pool

variable {pool : Pool} {bracketed : Bool} {before classes : List CharClass} {c : CharClass}

theorem customClassesAfter_append (pool : Pool) (bracketed : Bool) (before xs ys : List CharClass) :
    pool.customClassesAfter bracketed before (xs ++ ys) =
      pool.customClassesAfter bracketed before xs ++
        pool.customClassesAfter bracketed (xs.reverse ++ before) ys := by
  induction xs generalizing before with
  | nil => rfl
  | cons x xs ih =>
    rw [List.cons_append, customClassesAfter, customClassesAfter, ih, List.append_assoc,
      List.reverse_cons, List.append_assoc]
    rfl

/-- A custom class of a canonical list is the leftovers or a class with a range that remains. -/
theorem mem_customClassesAfter
    (h : c ∈ pool.customClassesAfter bracketed before classes) :
    (c = .custom (arrange bracketed pool.leftovers) ∧ ∃ d ∈ classes, pool.holdsLeftovers d = true) ∨
      ∃ d ∈ classes, d.isFree pool.role = false ∧
        (∃ before, pool.remains before d = true) ∧
        c = ⟨.custom (arrange bracketed d.chars), d.range⟩ := by
  induction classes generalizing before with
  | nil => exact absurd h (by simp [customClassesAfter])
  | cons d classes ih =>
    rw [customClassesAfter, List.mem_append] at h
    rcases h with h | h
    · by_cases hl : (pool.holdsLeftovers d && !before.any pool.holdsLeftovers) = true
      · rw [if_pos hl, List.mem_singleton] at h
        rw [Bool.and_eq_true] at hl
        exact .inl ⟨h, d, List.mem_cons_self, hl.1⟩
      · rw [if_neg hl] at h
        by_cases hr : pool.remains before d = true
        · rw [if_pos hr, List.mem_singleton] at h
          have hfree : d.isFree pool.role = false := by
            unfold remains at hr
            rw [Bool.and_eq_true, Bool.not_eq_true'] at hr
            exact hr.1
          exact .inr ⟨d, List.mem_cons_self, hfree, ⟨before, hr⟩, h⟩
        · rw [if_neg hr] at h
          exact absurd h List.not_mem_nil
    · rcases ih h with ⟨heq, e, he, hold⟩ | ⟨e, he, hrest⟩
      · exact .inl ⟨heq, e, List.mem_cons_of_mem d he, hold⟩
      · exact .inr ⟨e, List.mem_cons_of_mem d he, hrest⟩

theorem leftovers_mem_customClasses (hd : ∃ d ∈ classes, pool.holdsLeftovers d = true) :
    .custom (arrange bracketed pool.leftovers) ∈ pool.customClasses bracketed classes := by
  have hafter : ∀ before : List CharClass, before.any pool.holdsLeftovers = false →
      CharClass.custom (arrange bracketed pool.leftovers) ∈
        pool.customClassesAfter bracketed before classes := by
    induction classes with
    | nil => exact fun _ _ => absurd hd (by simp)
    | cons d classes ih =>
      intro before hb
      rw [customClassesAfter, List.mem_append]
      by_cases hold : pool.holdsLeftovers d = true
      · exact .inl (by simp [hold, hb])
      · have hrest : ∃ e ∈ classes, pool.holdsLeftovers e = true := by
          obtain ⟨e, he, hholds⟩ := hd
          rcases List.mem_cons.1 he with rfl | he
          · exact absurd hholds hold
          · exact ⟨e, he, hholds⟩
        exact .inr (ih hrest (d :: before) (by simp [hold, hb]))
  exact hafter [] rfl

theorem mem_customClasses_of_remains {d : CharClass} (hd : d ∈ classes)
    (hfree : d.isFree pool.role = false) (hremains : ∀ before, pool.remains before d = true) :
    ⟨.custom (arrange bracketed d.chars), d.range⟩ ∈ pool.customClasses bracketed classes := by
  obtain ⟨xs, ys, rfl⟩ := List.append_of_mem hd
  rw [customClasses, customClassesAfter_append, customClassesAfter]
  refine List.mem_append.2 (.inr (List.mem_append.2 (.inl ?_)))
  have hholds : pool.holdsLeftovers d = false := by simp [holdsLeftovers, hfree]
  simp [hholds, hremains]

end Pool

/-! ## Ordinary lists -/

/-- The custom class of the leftovers is there as soon as something is left over. -/
theorem Ordinary.leftovers_mem {role : Role} {bracketed : Bool} {classes : List CharClass}
    (h : Ordinary role classes) {ch : Char}
    (hch : ch ∈ (Pool.ofClasses role classes).leftovers) :
    .custom (Pool.arrange bracketed (Pool.ofClasses role classes).leftovers) ∈
      (Pool.ofClasses role classes).customClasses bracketed classes := by
  refine Pool.leftovers_mem_customClasses ?_
  obtain ⟨hmem, b, hb, hcontains⟩ := Pool.mem_leftovers_iff.1 hch
  obtain ⟨hp, c, hc, hfree, hcc⟩ := Pool.mem_ofClasses_iff.1 hmem
  refine ⟨c, hc, ?_⟩
  have hnamed : c.isNamed = false := by
    refine Bool.not_eq_true _ ▸ fun hnamed => ?_
    obtain ⟨n, hn⟩ := Option.isSome_iff_exists.1 hnamed
    have hbody := CharClass.body_of_name? hn
    cases n with
    | basic d =>
      -- A basic class in the pool is complete, and nothing of it is left over.
      have hd : d.contains ch = true := by rw [← hcc, CharClass.contains, hbody]; rfl
      obtain rfl : d = b := BasicClass.eq_of_contains hd hcontains
      exact absurd (Pool.isComplete_of_name? hc hfree hn) (by simp [hb])
    | asciiPrintable | unicode =>
      have hu := universal?_eq_none_iff.1 h.noUniversal c hc
      simp [CharClass.isUniversal, hn, ClassName.isUniversal] at hu
  unfold Pool.holdsLeftovers
  rw [hnamed]
  have hany : c.chars.any (Pool.ofClasses role classes).leftovers.contains = true :=
    List.any_eq_true.2 ⟨ch, CharClass.mem_chars_iff.2 hcc, List.contains_iff_mem.2 hch⟩
  simpa [hany] using hfree

theorem mem_regrouped_iff {role : Role} {bracketed : Bool} {classes : List CharClass}
    {c : CharClass} : c ∈ regrouped role bracketed classes ↔
      (∃ b ∈ classes.flatMap (Pool.ofClasses role classes).namesFrom,
        c = (Pool.ofClasses role classes).namedClass classes b) ∨
      c ∈ (Pool.ofClasses role classes).customClasses bracketed classes := by
  unfold regrouped Pool.namedClasses
  rw [List.mem_append, List.mem_map]
  simp only [List.mem_eraseDups, @eq_comm _ c]

section Contents

variable {role : Role} {bracketed : Bool} {classes : List CharClass} {ch : Char}

theorem Pool.contains_namedClass (pool : Pool) (b : BasicClass) :
    (pool.namedClass classes b).contains ch = b.contains ch := by
  rw [CharClass.contains, pool.namedClass_body]
  rfl

/-- What is in the pool is stated, by the name of its basic class or among the leftovers. -/
theorem Ordinary.covers_of_mem_pool (h : Ordinary role classes)
    (hch : ch ∈ (Pool.ofClasses role classes).chars) :
    covers (regrouped role bracketed classes) ch = true := by
  have hp : isPrintable ch = true := (Pool.mem_ofClasses_iff.1 hch).1
  obtain ⟨b, hb⟩ := BasicClass.exists_contains hp
  by_cases hcomplete : (Pool.ofClasses role classes).isComplete b = true
  · have hname : b ∈ classes.flatMap (Pool.ofClasses role classes).namesFrom :=
      (Pool.mem_names_iff h.noUniversal).2 (.inl hcomplete)
    exact covers_iff.2 ⟨_, mem_regrouped_iff.2 (.inl ⟨b, hname, rfl⟩),
      (Pool.contains_namedClass _ b).trans hb⟩
  · have hleft := Pool.mem_leftovers_iff.2 ⟨hch, b, by simpa using hcomplete, hb⟩
    refine covers_iff.2 ⟨_, mem_regrouped_iff.2 (.inr (h.leftovers_mem hleft)), ?_⟩
    exact List.contains_iff_mem.2 (Pool.mem_arrange_iff.2 ⟨hleft, hp⟩)

theorem Ordinary.covers_of_covers (h : Ordinary role classes) (hp : isPrintable ch = true)
    (hcovers : covers classes ch = true) : covers (regrouped role bracketed classes) ch = true := by
  obtain ⟨d, hd, hdch⟩ := covers_iff.1 hcovers
  by_cases hfree : d.isFree role = true
  · exact h.covers_of_mem_pool (Pool.mem_ofClasses_iff.2 ⟨hp, d, hd, hfree, hdch⟩)
  · have hfree : d.isFree role = false := by simpa using hfree
    cases hranged : (Pool.ofClasses role classes).rangedBasic? d with
    | some b =>
      have hname : b ∈ classes.flatMap (Pool.ofClasses role classes).namesFrom :=
        (Pool.mem_names_iff h.noUniversal).2 (.inr ⟨d, hd, hranged⟩)
      have hsame := ClassBody.basic?_eq_some_iff.1 (Pool.rangedBasic?_eq_some_iff.1 hranged).2.1
      refine covers_iff.2 ⟨_, mem_regrouped_iff.2 (.inl ⟨b, hname, rfl⟩), ?_⟩
      rw [Pool.contains_namedClass, ← hsame]
      exact hdch
    | none =>
      by_cases hin : role = .allowed ∧
          d.chars.all (Pool.ofClasses role classes).chars.contains = true
      · have hmem := List.all_eq_true.1 hin.2 ch (CharClass.mem_chars_iff.2 hdch)
        exact h.covers_of_mem_pool (List.contains_iff_mem.1 hmem)
      · have hremains : ∀ before, (Pool.ofClasses role classes).remains before d = true := by
          intro before
          unfold Pool.remains
          rw [hranged]
          cases role with
          | required => simpa using hfree
          | allowed => simpa [hfree] using hin
        refine covers_iff.2 ⟨_, mem_regrouped_iff.2
          (.inr (Pool.mem_customClasses_of_remains hd hfree hremains)), ?_⟩
        exact List.contains_iff_mem.2
          (Pool.mem_arrange_iff.2 ⟨CharClass.mem_chars_iff.2 hdch, hp⟩)

theorem Ordinary.covers_of_regrouped (h : Ordinary role classes)
    (hcovers : covers (regrouped role bracketed classes) ch = true) : covers classes ch = true := by
  have hpool : ch ∈ (Pool.ofClasses role classes).chars → covers classes ch = true := by
    intro hch
    obtain ⟨-, d, hd, -, hdch⟩ := Pool.mem_ofClasses_iff.1 hch
    exact covers_iff.2 ⟨d, hd, hdch⟩
  obtain ⟨c, hc, hcch⟩ := covers_iff.1 hcovers
  rcases mem_regrouped_iff.1 hc with ⟨b, hb, rfl⟩ | hc
  · rw [Pool.contains_namedClass] at hcch
    rcases (Pool.mem_names_iff h.noUniversal).1 hb with hcomplete | ⟨d, hd, hranged⟩
    · exact hpool (Pool.isComplete_iff.1 hcomplete ch hcch)
    · have hsame := ClassBody.basic?_eq_some_iff.1 (Pool.rangedBasic?_eq_some_iff.1 hranged).2.1
      exact covers_iff.2 ⟨d, hd, (hsame ch).trans hcch⟩
  · rcases Pool.mem_customClassesAfter hc with ⟨rfl, -⟩ | ⟨d, hd, -, -, rfl⟩
    · have hmem := (Pool.mem_arrange_iff.1 (List.contains_iff_mem.1 hcch)).1
      exact hpool (Pool.mem_leftovers_iff.1 hmem).1
    · have hmem := (Pool.mem_arrange_iff.1 (List.contains_iff_mem.1 hcch)).1
      exact covers_iff.2 ⟨d, hd, CharClass.mem_chars_iff.1 hmem⟩

/-- **Nothing is lost or made up**: a canonical list contains the same printable characters. -/
theorem covers_canonical (role : Role) (bracketed : Bool) (classes : List CharClass)
    (hp : isPrintable ch = true) :
    covers (canonical role bracketed classes) ch = covers classes ch := by
  rcases canonical_cases role bracketed classes with
    ⟨c, hu, hcanonical⟩ | ⟨-, ⟨-, -, -, hcanonical⟩ | ⟨hall, hcanonical⟩⟩ | h
  · obtain ⟨hc, huniversal⟩ := mem_of_universal? hu
    have hcc : c.contains ch = true := CharClass.contains_of_isUniversal huniversal hp
    rw [hcanonical, covers_iff.2 ⟨c, hc, hcc⟩, covers_iff.2 ⟨c, List.mem_singleton_self c, hcc⟩]
  · rw [hcanonical]
  · have hcovers := List.all_eq_true.1 hall ch (mem_printable_iff.2 hp)
    rw [hcanonical, hcovers]
    exact covers_iff.2 ⟨_, List.mem_singleton_self _, hp⟩
  · rw [h.canonical_eq, Bool.eq_iff_iff]
    exact ⟨h.covers_of_regrouped, h.covers_of_covers hp⟩

end Contents

section Members

variable {role : Role} {bracketed : Bool} {classes : List CharClass} {c : CharClass}

theorem mem_canonical_cases (h : c ∈ canonical role bracketed classes) :
    c ∈ classes ∨ c = .named .asciiPrintable ∨ c ∈ regrouped role bracketed classes := by
  rcases canonical_cases role bracketed classes with
    ⟨u, hu, hcanonical⟩ | ⟨-, ⟨-, -, -, hcanonical⟩ | ⟨-, hcanonical⟩⟩ | ho
  · rw [hcanonical, List.mem_singleton] at h
    exact .inl (h ▸ (mem_of_universal? hu).1)
  · exact .inl (hcanonical ▸ h)
  · rw [hcanonical, List.mem_singleton] at h
    exact .inr (.inl h)
  · exact .inr (.inr (ho.canonical_eq ▸ h))

/-- Every range of a canonical list comes from the list. -/
theorem range_of_mem_canonical (h : c ∈ canonical role bracketed classes) {r : CountRange}
    (hr : c.range = some r) : ∃ d ∈ classes, d.range = some r := by
  rcases mem_canonical_cases h with hc | rfl | hc
  · exact ⟨c, hc, hr⟩
  · exact absurd hr (by simp [CharClass.named])
  · rcases mem_regrouped_iff.1 hc with ⟨b, -, rfl⟩ | hc
    · rcases Pool.namedClass_cases (Pool.ofClasses role classes) classes b with
        heq | ⟨d, hd, -, -, heq⟩ | heq
      · rw [heq] at hr
        exact absurd hr (by simp [CharClass.basic, CharClass.named])
      · exact ⟨d, hd, heq ▸ hr⟩
      · rw [heq] at hr
        obtain ⟨d, hd, -, hdr⟩ := Pool.mem_of_rangeOf hr
        exact ⟨d, hd, hdr⟩
    · rcases Pool.mem_customClassesAfter hc with ⟨rfl, -⟩ | ⟨d, hd, -, -, rfl⟩
      · exact absurd hr (by simp [CharClass.custom])
      · exact ⟨d, hd, hr⟩

end Members

end PasswordPolicy
