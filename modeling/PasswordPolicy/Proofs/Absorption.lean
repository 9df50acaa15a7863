import PasswordPolicy.Proofs.MergedContents

/-!
# Ranges that say nothing

**Caps inside.** A range in an allowed list caps how many characters of its class are used. It says
nothing if classes without a range hold all members of the class (`CappedWithin`): then the pool of
the list absorbs the class, and nothing in the canonical form is on its account
(`Pool.regrouped_insert`).

**Preempting.** Universal classes are looked for before anything is absorbed, and the first one is
all that the canonical form states. So a range on all printable characters that comes before any
other universal class is kept, whatever else the list allows (`Preempts`).

Main result: leaving out a class whose members are allowed without a range changes nothing, exactly
unless the class preempts the rest (`canonical_absorbs_iff`).
-/

namespace PasswordPolicy

open Text

/-- The classes without a range. -/
def unranged (classes : List CharClass) : List CharClass :=
  classes.filter (·.range.isNone)

/-- A class with a range, but for all of Unicode, whose members all stand in classes without one. -/
structure CappedWithin (classes : List CharClass) (v : CharClass) : Prop where
  range : v.range ≠ none
  notUnicode : v.name? ≠ some .unicode
  members : ∀ ch, v.contains ch = true →
    isPrintable ch = true ∧ covers (unranged classes) ch = true

instance (classes : List CharClass) (v : CharClass) : Decidable (CappedWithin classes v) :=
  decidable_of_iff (v.range ≠ none ∧ v.name? ≠ some .unicode ∧
      v.chars.all (fun ch => isPrintable ch && covers (unranged classes) ch) = true)
    (by simp only [List.all_eq_true, CharClass.mem_chars_iff, Bool.and_eq_true]
        exact ⟨fun h => ⟨h.1, h.2.1, h.2.2⟩, fun h => ⟨h.range, h.notUnicode, h.members⟩⟩)

/-- All printable characters, with a range that stands before any other universal class. -/
structure Preempts (xs : List CharClass) (v : CharClass) (ys : List CharClass) : Prop where
  all : v.name? = some .asciiPrintable
  noUnicode : ∀ c ∈ xs ++ ys, c.name? ≠ some .unicode
  first : ∀ c ∈ xs, c.isUniversal = false
  differs : ys.find? (·.isUniversal) ≠ some v

instance (xs : List CharClass) (v : CharClass) (ys : List CharClass) :
    Decidable (Preempts xs v ys) :=
  decidable_of_iff (v.name? = some .asciiPrintable ∧ (∀ c ∈ xs ++ ys, c.name? ≠ some .unicode) ∧
      (∀ c ∈ xs, c.isUniversal = false) ∧ ys.find? (·.isUniversal) ≠ some v)
    ⟨fun h => ⟨h.1, h.2.1, h.2.2.1, h.2.2.2⟩,
      fun h => ⟨h.all, h.noUnicode, h.first, h.differs⟩⟩

/-! ## What the pool absorbs -/

theorem find?_insert {α : Type} (a : α) (xs ys : List α) {p : α → Bool} (h : p a = false) :
    (xs ++ a :: ys).find? p = (xs ++ ys).find? p := by
  rw [List.find?_append, List.find?_append, List.find?_cons_of_neg (by simp [h])]

theorem filter_insert {α : Type} (a : α) (xs ys : List α) {p : α → Bool} (h : p a = false) :
    (xs ++ a :: ys).filter p = (xs ++ ys).filter p := by
  rw [List.filter_append, List.filter_append, List.filter_cons_of_neg (by simp [h])]

theorem CharClass.isFree_allowed (c : CharClass) : c.isFree .allowed = c.range.isNone := by
  simp [isFree]

namespace Pool

variable {pool : Pool} {bracketed : Bool} {classes xs ys : List CharClass} {v : CharClass}
  {b : BasicClass} {ch : Char}

theorem mem_ofClasses_allowed : ch ∈ (ofClasses .allowed classes).chars ↔
    isPrintable ch = true ∧ covers (unranged classes) ch = true := by
  unfold ofClasses unranged
  simp only [List.mem_filter, mem_classOrder_iff, CharClass.isFree_allowed]

/-- A class with a range whose members are all in the pool. -/
structure Absorbs (pool : Pool) (v : CharClass) : Prop where
  unfree : v.isFree pool.role = false
  members : ∀ ch, v.contains ch = true → ch ∈ pool.chars

/-- What it amounts to is complete anyway. -/
theorem Absorbs.rangedBasic? (h : pool.Absorbs v) : pool.rangedBasic? v = none := by
  refine Option.eq_none_iff_forall_ne_some.2 fun b hb => ?_
  obtain ⟨-, hbasic, hincomplete⟩ := rangedBasic?_eq_some_iff.1 hb
  have hsame := ClassBody.basic?_eq_some_iff.1 hbasic
  have hcomplete : pool.isComplete b = true :=
    isComplete_iff.2 fun ch hch => h.members ch ((hsame ch).trans hch)
  rw [hcomplete] at hincomplete
  cases hincomplete

theorem Absorbs.namesFrom (h : pool.Absorbs v) : pool.namesFrom v = [] := by
  rw [Pool.namesFrom, h.unfree, h.rangedBasic?]
  rfl

theorem Absorbs.holdsLeftovers (h : pool.Absorbs v) : pool.holdsLeftovers v = false := by
  simp [Pool.holdsLeftovers, h.unfree]

theorem Absorbs.remains (h : pool.Absorbs v) (hrole : pool.role = .allowed)
    (before : List CharClass) : pool.remains before v = false := by
  have hall : v.chars.all pool.chars.contains = true :=
    List.all_eq_true.2 fun ch hch =>
      List.contains_iff_mem.2 (h.members ch (CharClass.mem_chars_iff.1 hch))
  rw [Pool.remains, h.unfree, h.rangedBasic?, hrole, hall]
  rfl

theorem Absorbs.namedClass_insert (h : pool.Absorbs v) (xs ys : List CharClass) (b : BasicClass) :
    pool.namedClass (xs ++ v :: ys) b = pool.namedClass (xs ++ ys) b := by
  have hfree : (v.isFree pool.role && v.name? == some (.basic b)) = false := by simp [h.unfree]
  have hranged : (pool.rangedBasic? v == some b) = false := by simp [h.rangedBasic?]
  rw [namedClass, namedClass, rangeOf, rangeOf, find?_insert v xs ys hfree,
    filter_insert v xs ys hranged]

theorem Absorbs.namedClasses_insert (h : pool.Absorbs v) (xs ys : List CharClass) :
    pool.namedClasses (xs ++ v :: ys) = pool.namedClasses (xs ++ ys) := by
  have hnames : (xs ++ v :: ys).flatMap pool.namesFrom = (xs ++ ys).flatMap pool.namesFrom := by
    rw [List.flatMap_append, List.flatMap_append, List.flatMap_cons, h.namesFrom, List.nil_append]
  rw [namedClasses, namedClasses, hnames]
  exact List.map_congr_left fun b _ => h.namedClass_insert xs ys b

/-- In an allowed list it does not matter to a class with a range what comes before it. -/
theorem remains_of_allowed (hrole : pool.role = .allowed) (before : List CharClass)
    (c : CharClass) : pool.remains before c = pool.remains [] c := by
  unfold remains
  rw [hrole]
  cases pool.rangedBasic? c <;> rfl

/-- All that matters about what comes before is whether it brings up the leftovers. -/
theorem customClassesAfter_congr (hrole : pool.role = .allowed) {before after : List CharClass}
    (h : before.any pool.holdsLeftovers = after.any pool.holdsLeftovers)
    (classes : List CharClass) : pool.customClassesAfter bracketed before classes =
      pool.customClassesAfter bracketed after classes := by
  induction classes generalizing before after with
  | nil => rfl
  | cons c classes ih =>
    have hnext : (c :: before).any pool.holdsLeftovers = (c :: after).any pool.holdsLeftovers := by
      rw [List.any_cons, List.any_cons, h]
    rw [customClassesAfter, customClassesAfter, h, remains_of_allowed hrole before,
      remains_of_allowed hrole after, ih hnext]

theorem Absorbs.customClasses_insert (h : pool.Absorbs v) (hrole : pool.role = .allowed)
    (xs ys : List CharClass) : pool.customClasses bracketed (xs ++ v :: ys) =
      pool.customClasses bracketed (xs ++ ys) := by
  have hbehind : pool.customClassesAfter bracketed (xs.reverse ++ []) (v :: ys) =
      pool.customClassesAfter bracketed (xs.reverse ++ []) ys := by
    rw [customClassesAfter, h.holdsLeftovers, h.remains hrole]
    refine customClassesAfter_congr hrole ?_ ys
    rw [List.any_cons, h.holdsLeftovers, Bool.false_or]
  rw [customClasses, customClasses, customClassesAfter_append, customClassesAfter_append, hbehind]

end Pool

section Absorbed

variable {bracketed : Bool} {classes xs ys : List CharClass} {v : CharClass}

theorem CappedWithin.isFree (h : CappedWithin classes v) : v.isFree .allowed = false := by
  rw [CharClass.isFree_allowed, Option.isNone_eq_false_iff, ← Option.ne_none_iff_isSome]
  exact h.range

theorem CappedWithin.absorbs (h : CappedWithin classes v) :
    (Pool.ofClasses .allowed classes).Absorbs v :=
  ⟨h.isFree, fun ch hch => Pool.mem_ofClasses_allowed.2 (h.members ch hch)⟩

theorem CappedWithin.ofClasses_insert (h : CappedWithin (xs ++ ys) v) :
    Pool.ofClasses .allowed (xs ++ v :: ys) = Pool.ofClasses .allowed (xs ++ ys) := by
  rw [Pool.ofClasses, Pool.ofClasses, filter_insert v xs ys h.isFree]

theorem CappedWithin.regrouped_insert (h : CappedWithin (xs ++ ys) v) :
    regrouped .allowed bracketed (xs ++ v :: ys) = regrouped .allowed bracketed (xs ++ ys) := by
  rw [regrouped, regrouped, h.ofClasses_insert, h.absorbs.namedClasses_insert,
    h.absorbs.customClasses_insert rfl]

/-! ## Universal classes -/

theorem universal?_insert (h : v.isUniversal = false) (xs ys : List CharClass) :
    universal? (xs ++ v :: ys) = universal? (xs ++ ys) := by
  have hunicode : (v.name? == some .unicode) = false := by
    refine beq_eq_false_iff_ne.2 fun hname => ?_
    rw [CharClass.isUniversal_of_name? hname rfl] at h
    cases h
  rw [universal?, universal?, find?_insert v xs ys hunicode,
    find?_insert v xs ys h]

theorem universal?_of_noUnicode (h : ∀ c ∈ classes, c.name? ≠ some .unicode) :
    universal? classes = classes.find? (·.isUniversal) := by
  have hnone : classes.find? (·.name? == some .unicode) = none :=
    List.find?_eq_none.2 fun c hc hname => h c hc (beq_iff_eq.1 hname)
  rw [universal?, hnone, Option.none_or]

/-- If classes without a range cover everything, everything is allowed. -/
theorem canonical_of_unranged (hu : universal? classes = none)
    (hall : ∀ ch, isPrintable ch = true → covers (unranged classes) ch = true) :
    canonical .allowed bracketed classes = [.named .asciiPrintable] := by
  rcases canonical_cases .allowed bracketed classes with
    ⟨c, hc, -⟩ | ⟨-, ⟨hr, -⟩ | ⟨-, hcanonical⟩⟩ | ho
  · rw [hu] at hc
    cases hc
  · cases hr
  · exact hcanonical
  · refine absurd (List.all_eq_true.2 fun b _ => Pool.isComplete_iff.2 fun ch hch => ?_)
      ho.incomplete
    have hp := BasicClass.isPrintable_of_contains hch
    exact Pool.mem_ofClasses_allowed.2 ⟨hp, hall ch hp⟩

/-- A required list that does not contain everything is ordinary. -/
theorem Ordinary.required_of_contents (h : contents classes ≠ printable) :
    Ordinary .required classes := by
  refine .of_uncovered (universal?_eq_none_iff.2 fun c hc => ?_) fun hall => ?_
  · refine Bool.not_eq_true _ ▸ fun huniversal => h (contents_eq_printable fun ch hp => ?_)
    exact covers_iff.2 ⟨c, hc, CharClass.contains_of_isUniversal huniversal hp⟩
  · exact h (List.filter_eq_self.2 (List.all_eq_true.1 hall))

/-- So is an allowed list, if its classes without a range do not. -/
theorem Ordinary.allowed_of_contents (hu : universal? classes = none)
    (h : contents (unranged classes) ≠ printable) : Ordinary .allowed classes := by
  refine ⟨hu, fun hrole => (nomatch hrole), fun hcomplete => h (contents_eq_printable ?_)⟩
  intro ch hp
  obtain ⟨b, hb⟩ := BasicClass.exists_contains hp
  have hmem := Pool.isComplete_iff.1 (List.all_eq_true.1 hcomplete b b.mem_all) ch hb
  exact (Pool.mem_ofClasses_allowed.1 hmem).2

/-- A class with a range that is not universal says nothing, wherever it stands. -/
theorem CappedWithin.canonical_insert (h : CappedWithin (xs ++ ys) v)
    (huniversal : v.isUniversal = false) :
    canonical .allowed bracketed (xs ++ v :: ys) = canonical .allowed bracketed (xs ++ ys) := by
  have hregrouped : regrouped .allowed bracketed (xs ++ v :: ys) =
      regrouped .allowed bracketed (xs ++ ys) := h.regrouped_insert
  unfold regrouped at hregrouped
  rw [h.ofClasses_insert] at hregrouped
  simp only [canonical, universal?_insert huniversal, h.ofClasses_insert, hregrouped,
    reduceCtorEq, false_and, if_false]

/-- All printable characters with a range change nothing, exactly unless they preempt the rest. -/
theorem CappedWithin.canonical_insert_iff_of_universal (h : CappedWithin (xs ++ ys) v)
    (huniversal : v.isUniversal = true) :
    canonical .allowed bracketed (xs ++ v :: ys) = canonical .allowed bracketed (xs ++ ys) ↔
      ¬Preempts xs v ys := by
  have hname : v.name? = some .asciiPrintable :=
    (CharClass.name?_of_isUniversal huniversal).resolve_left h.notUnicode
  by_cases hun : ∀ c ∈ xs ++ ys, c.name? ≠ some .unicode
  · have hwith : ∀ c ∈ xs ++ v :: ys, c.name? ≠ some .unicode := by
      intro c hc
      rcases List.mem_cons.1 (List.perm_middle.mem_iff.1 hc) with rfl | hc
      · exact h.notUnicode
      · exact hun c hc
    have hrest := universal?_of_noUnicode hun
    rw [List.find?_append] at hrest
    cases hx : xs.find? (·.isUniversal) with
    | some x =>
      -- The first universal class stands in front.
      have hfound : universal? (xs ++ v :: ys) = some x := by
        rw [universal?_of_noUnicode hwith, List.find?_append, hx, Option.some_or]
      rw [hx, Option.some_or] at hrest
      rw [canonical_of_universal hfound, canonical_of_universal hrest]
      refine iff_of_true rfl fun hpreempts => ?_
      have hnot := hpreempts.first x (List.mem_of_find?_eq_some hx)
      rw [List.find?_some (p := fun c : CharClass => c.isUniversal) hx] at hnot
      cases hnot
    | none =>
      have hfound : universal? (xs ++ v :: ys) = some v := by
        rw [universal?_of_noUnicode hwith, List.find?_append, hx, Option.none_or,
          List.find?_cons_of_pos huniversal]
      have hpreempts : Preempts xs v ys ↔ ys.find? (·.isUniversal) ≠ some v := by
        refine ⟨(·.differs), fun hdiffers => ⟨hname, hun, fun c hc => ?_, hdiffers⟩⟩
        simpa using List.find?_eq_none.1 hx c hc
      rw [hx, Option.none_or] at hrest
      rw [canonical_of_universal hfound, hpreempts, ne_eq, Classical.not_not]
      cases hy : ys.find? (·.isUniversal) with
      | some y =>
        rw [canonical_of_universal (hrest.trans hy), Option.some.injEq, List.singleton_inj, eq_comm]
      | none =>
        -- Nothing else is universal, but everything is allowed without a range.
        have hall : canonical .allowed bracketed (xs ++ ys) = [.named .asciiPrintable] :=
          canonical_of_unranged (hrest.trans hy) fun ch hp =>
            (h.members ch (CharClass.contains_of_isUniversal huniversal hp)).2
        rw [hall, List.singleton_inj]
        refine iff_of_false (fun heq => h.range ?_) (by simp)
        rw [heq]
        rfl
  · simp only [Classical.not_forall, Classical.not_not] at hun
    obtain ⟨c, hc, hcu⟩ := hun
    have hunicode : (v.name? == some .unicode) = false := by simp [hname]
    obtain ⟨u, hu⟩ := Option.isSome_iff_exists.1
      (List.find?_isSome.2 ⟨c, hc, beq_iff_eq.2 hcu⟩ :
        ((xs ++ ys).find? (·.name? == some .unicode)).isSome = true)
    have hfound : universal? (xs ++ v :: ys) = some u := by
      rw [universal?, find?_insert v xs ys hunicode, hu, Option.some_or]
    have hrest : universal? (xs ++ ys) = some u := by
      rw [universal?, hu, Option.some_or]
    rw [canonical_of_universal hfound, canonical_of_universal hrest]
    exact iff_of_true rfl fun hpreempts => hpreempts.noUnicode c hc hcu

theorem CappedWithin.canonical_insert_iff (h : CappedWithin (xs ++ ys) v) :
    canonical .allowed bracketed (xs ++ v :: ys) = canonical .allowed bracketed (xs ++ ys) ↔
      ¬Preempts xs v ys := by
  cases huniversal : v.isUniversal with
  | true => exact h.canonical_insert_iff_of_universal huniversal
  | false =>
    refine iff_of_true (h.canonical_insert huniversal) fun hpreempts => ?_
    rw [CharClass.isUniversal_of_name? hpreempts.all rfl] at huniversal
    cases huniversal

/-- If classes without a range cover everything, the plain class of all printable characters is what
is allowed, exactly unless a universal class with a range comes first. -/
theorem canonical_of_unranged_iff (hun : ∀ c ∈ classes, c.name? ≠ some .unicode)
    (hall : contents (unranged classes) = printable) :
    canonical .allowed bracketed classes = [.named .asciiPrintable] ↔
      ∀ c, classes.find? (·.isUniversal) = some c → c.range = none := by
  have hfound := universal?_of_noUnicode hun
  cases hu : classes.find? (·.isUniversal) with
  | none =>
    rw [hu] at hfound
    have hcovers : ∀ ch, isPrintable ch = true → covers (unranged classes) ch = true :=
      fun ch hp => (mem_contents_iff.1 (hall ▸ mem_printable_iff.2 hp)).2
    exact iff_of_true (canonical_of_unranged hfound hcovers) (by simp)
  | some u =>
    rw [hu] at hfound
    obtain ⟨hmem, huniversal⟩ := mem_of_universal? hfound
    have hname := (CharClass.name?_of_isUniversal huniversal).resolve_left (hun u hmem)
    rw [canonical_of_universal hfound, List.singleton_inj]
    constructor
    · rintro rfl c hc
      obtain rfl := Option.some.inj hc
      rfl
    · intro hrange
      exact CharClass.eq_of_name? hname rfl (hrange u rfl)

/-- **A class without a range wins**, exactly unless a range preempts it. To leave out a class with
a range whose members stand in classes without one changes nothing, unless the class gives all
printable characters a range before any other universal class comes. And if the classes without a
range cover everything, then everything is allowed without a range, unless the first universal class
has one. -/
theorem canonical_absorbs_iff (bracketed : Bool) :
    (∀ xs v ys, CappedWithin (xs ++ ys) v →
      (canonical .allowed bracketed (xs ++ v :: ys) = canonical .allowed bracketed (xs ++ ys) ↔
        ¬Preempts xs v ys)) ∧
    ∀ classes, (∀ c ∈ classes, c.name? ≠ some .unicode) →
      contents (unranged classes) = printable →
        (canonical .allowed bracketed classes = [.named .asciiPrintable] ↔
          ∀ c, classes.find? (·.isUniversal) = some c → c.range = none) :=
  ⟨fun _ _ _ h => h.canonical_insert_iff, fun _ hun hall => canonical_of_unranged_iff hun hall⟩

end Absorbed

/-- Letters and a digit, of which at most two may be used. -/
def cappedFew : CharClass :=
  ⟨.custom ['a', '7', 'z', 'a'], some ⟨0, 2⟩⟩

theorem cappedFew_absorbed :
    CappedWithin ([.custom ['7', '!']] ++ [⟨.named (.basic .digit), some ⟨0, 4⟩⟩, .basic .lower])
        cappedFew ∧
      canonical .allowed true ([.custom ['7', '!']] ++
          cappedFew :: [⟨.named (.basic .digit), some ⟨0, 4⟩⟩, .basic .lower]) =
        canonical .allowed true ([.custom ['7', '!']] ++
          [⟨.named (.basic .digit), some ⟨0, 4⟩⟩, .basic .lower]) ∧
      contents (unranged (cappedFew :: BasicClass.all.map .basic)) = printable ∧
      canonical .allowed true (cappedFew :: BasicClass.all.map .basic) =
        [.named .asciiPrintable] := by
  have hwithin : CappedWithin
      ([.custom ['7', '!']] ++ [⟨.named (.basic .digit), some ⟨0, 4⟩⟩, .basic .lower])
      cappedFew := by decide
  have hall : contents (unranged (cappedFew :: BasicClass.all.map .basic)) = printable := by decide
  have hnone : (cappedFew :: BasicClass.all.map .basic).find? (·.isUniversal) = none := by decide
  refine ⟨hwithin, ((canonical_absorbs_iff true).1 _ _ _ hwithin).2 (by decide), hall, ?_⟩
  refine ((canonical_absorbs_iff true).2 _ (by decide) hall).2 fun c hc => ?_
  rw [hnone] at hc
  cases hc

/-- All printable characters, of which at most five may be used. -/
def cappedAll : CharClass :=
  ⟨.named .asciiPrintable, some ⟨0, 5⟩⟩

/-- The range stays, although everything is allowed without a range as well: by name, or by all four
basic classes. -/
theorem cappedAll_preempts :
    CappedWithin ([] ++ [.named .asciiPrintable]) cappedAll ∧
      canonical .allowed false ([] ++ cappedAll :: [.named .asciiPrintable]) = [cappedAll] ∧
      canonical .allowed false ([] ++ [.named .asciiPrintable]) = [.named .asciiPrintable] ∧
      canonical .allowed false ([] ++ cappedAll :: [.named .asciiPrintable]) ≠
        canonical .allowed false ([] ++ [.named .asciiPrintable]) ∧
      contents (unranged (BasicClass.all.map .basic ++ [cappedAll])) = printable ∧
      canonical .allowed false (BasicClass.all.map .basic ++ [cappedAll]) = [cappedAll] := by
  decide

end PasswordPolicy
