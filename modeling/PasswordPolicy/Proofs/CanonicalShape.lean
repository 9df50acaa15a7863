import PasswordPolicy.Proofs.Absorption
import PasswordPolicy.Proofs.BracketedForm
import PasswordPolicy.Proofs.CanonicalTwice

/-!
# The shape of a canonical list

**Named classes** come first. All of them are basic, and no two are the same.

**Custom classes** follow. Their members stand in class order, each once (`InClassOrder`). One of
them at most has no range: it holds what is left of the pool, is not empty, has nothing in common
with the classes that are named without a range, and fills no basic class (`IsRest`).

**Caps in allowed lists** speak of something: a custom class with a range has a member that no class
without a range holds.

Main result: the canonical form of every list that is not simply all printable characters has this
shape (`canonical_has_shape`).
-/

namespace PasswordPolicy

open Text

/-! ## Class order -/

/-- The number of the class in class order. -/
def BasicClass.number : BasicClass → Nat
  | upper => 0
  | lower => 1
  | digit => 2
  | special => 3

/-- The class of the first character comes before that of the second, or both have the same class
and the first has the smaller code. -/
def Precedes (c d : Char) : Prop :=
  ∃ b e : BasicClass, b.contains c = true ∧ e.contains d = true ∧
    (b.number < e.number ∨ b = e ∧ c.toNat < d.toNat)

/-- Printable members, each once and in class order. If they are to stand in brackets, a dash comes
first and a closing bracket last instead. -/
structure InClassOrder (bracketed : Bool) (cs : List Char) : Prop where
  nodup : cs.Nodup
  printable : ∀ c ∈ cs, isPrintable c = true
  ordered : (if bracketed then cs.filter (fun c => c ≠ '-' ∧ c ≠ ']') else cs).Pairwise Precedes
  dashFirst : bracketed = true → '-' ∈ cs → cs.head? = some '-'
  bracketLast : bracketed = true → ']' ∈ cs → cs.getLast? = some ']'

theorem pairwise_printable : printable.Pairwise fun c d => c.toNat < d.toNat := by
  have hcode : ∀ i < 95, (Char.ofNat (32 + i)).toNat = 32 + i := by decide
  refine List.pairwise_map.2 (List.pairwise_lt_range.imp_of_mem fun {i j} hi hj hlt => ?_)
  rw [hcode i (List.mem_range.1 hi), hcode j (List.mem_range.1 hj)]
  omega

theorem pairwise_classOrder : classOrder.Pairwise Precedes := by
  have hnumber : BasicClass.all.Pairwise fun b e => b.number < e.number := by decide
  refine List.pairwise_flatMap.2 ⟨fun b _ => ?_, hnumber.imp fun {b e} hlt c hc d hd => ?_⟩
  · refine (pairwise_printable.filter b.contains).imp_of_mem fun {c d} hc hd hlt => ?_
    exact ⟨b, b, BasicClass.mem_chars_iff.1 hc, BasicClass.mem_chars_iff.1 hd, .inr ⟨rfl, hlt⟩⟩
  · exact ⟨b, e, BasicClass.mem_chars_iff.1 hc, BasicClass.mem_chars_iff.1 hd, .inl hlt⟩

theorem head?_bracketOrder {cs : List Char} (h : '-' ∈ cs) :
    (bracketOrder cs).head? = some '-' := by
  simp [bracketOrder, h]

theorem getLast?_bracketOrder {cs : List Char} (h : ']' ∈ cs) :
    (bracketOrder cs).getLast? = some ']' := by
  simp [bracketOrder, h]

theorem Pool.inClassOrder_arrange (bracketed : Bool) (cs : List Char) :
    InClassOrder bracketed (arrange bracketed cs) := by
  have hnodup : (classOrder.filter cs.contains).Nodup := nodup_classOrder.filter _
  have hordered : (classOrder.filter cs.contains).Pairwise Precedes := pairwise_classOrder.filter _
  have hprintable : ∀ c ∈ arrange bracketed cs, isPrintable c = true :=
    fun c hc => (mem_arrange_iff.1 hc).2
  cases bracketed with
  | false => exact ⟨hnodup, hprintable, hordered, fun h => (nomatch h), fun h => (nomatch h)⟩
  | true =>
    refine ⟨(perm_bracketOrder hnodup).nodup_iff.2 hnodup, hprintable, ?_, fun _ hd => ?_,
      fun _ hb => ?_⟩
    · rw [if_pos rfl, arrange, if_pos rfl, filter_bracketOrder]
      exact hordered.filter _
    · exact head?_bracketOrder (mem_bracketOrder_iff.1 hd)
    · exact getLast?_bracketOrder (mem_bracketOrder_iff.1 hb)

/-! ## The shape -/

/-- Some characters, none of them in a class that is named without a range, that do not fill any
basic class. -/
structure CharClass.IsRest (named : List CharClass) (c : CharClass) : Prop where
  nonempty : c.chars ≠ []
  apart : ∀ d ∈ named, d.range = none → ∀ ch, c.contains ch = true → d.contains ch = false
  incomplete : ∀ b : BasicClass, ∃ ch, b.contains ch = true ∧ c.contains ch = false

/-- Basic classes by name, each once, and then custom classes with their members in order, of which
at most one has no range and is a rest. -/
structure CanonicalShape (bracketed : Bool) (named custom : List CharClass) : Prop where
  basic : ∀ c ∈ named, ∃ b, c.name? = some (.basic b)
  distinct : (named.map CharClass.name?).Nodup
  unnamed : ∀ c ∈ custom, c.name? = none
  single : (custom.filter (·.range.isNone)).length ≤ 1
  rest : ∀ c ∈ custom, c.range = none → c.IsRest named
  ordered : ∀ c ∈ custom, InClassOrder bracketed c.chars

namespace Pool

variable {role : Role} {bracketed : Bool} {classes : List CharClass} {c : CharClass}

/-! ## Named classes -/

theorem nodup_names (pool : Pool) (classes : List CharClass) :
    ((pool.namedClasses classes).map CharClass.name?).Nodup := by
  have hnames : (pool.namedClasses classes).map CharClass.name? =
      (classes.flatMap pool.namesFrom).eraseDups.map (some ∘ ClassName.basic) := by
    rw [namedClasses, List.map_map]
    exact List.map_congr_left fun b _ => name?_namedClass pool classes b
  rw [hnames]
  refine (nodup_eraseDups _).map_on fun b _ d _ h => ?_
  cases h
  rfl

/-- A class that is named without a range is complete. -/
theorem isComplete_of_namedClass (hu : universal? classes = none) {b : BasicClass}
    (hb : b ∈ classes.flatMap (ofClasses role classes).namesFrom)
    (hr : ((ofClasses role classes).namedClass classes b).range = none) :
    (ofClasses role classes).isComplete b = true := by
  rcases (mem_names_iff hu).1 hb with hcomplete | ⟨c, hc, hranged⟩
  · exact hcomplete
  · refine Bool.not_eq_false _ ▸ fun hincomplete => rangeOf_ne_none hc hranged ?_
    rw [namedClass, if_neg (by simp [hincomplete])] at hr
    exact hr

/-! ## Custom classes -/

/-- Of the custom classes only that of the leftovers has no range. -/
theorem unranged_customClassesAfter (pool : Pool) (bracketed : Bool)
    (before classes : List CharClass) :
    (pool.customClassesAfter bracketed before classes).filter (·.range.isNone) =
      if classes.any pool.holdsLeftovers && !before.any pool.holdsLeftovers then
        [.custom (arrange bracketed pool.leftovers)]
      else [] := by
  induction classes generalizing before with
  | nil => rfl
  | cons c classes ih =>
    by_cases hremains : pool.remains before c = true
    · have hfree := isFree_eq_false_of_remains hremains
      have hholds : pool.holdsLeftovers c = false := by simp [holdsLeftovers, hfree]
      have hrange : c.range ≠ none := CharClass.range_ne_none hfree
      have hranged : ¬(kept bracketed c).range.isNone = true := by
        rw [Option.isNone_iff_eq_none]
        exact hrange
      rw [customClassesAfter_of_remains hremains, List.filter_cons_of_neg (by simpa using hranged),
        ih]
      simp [hholds]
    · rw [customClassesAfter, if_neg hremains, List.filter_append, ih]
      cases hholds : pool.holdsLeftovers c <;> cases hbefore : before.any pool.holdsLeftovers <;>
        simp [hholds, hbefore, CharClass.custom]

theorem length_unranged_customClasses (pool : Pool) (bracketed : Bool) (classes : List CharClass) :
    ((pool.customClasses bracketed classes).filter (·.range.isNone)).length ≤ 1 := by
  rw [customClasses, unranged_customClassesAfter]
  split
  · exact Nat.le_refl 1
  · exact Nat.zero_le 1

/-- A custom class without a range is the leftovers, and there are some. -/
theorem eq_leftovers_of_range {pool : Pool} (hc : c ∈ pool.customClasses bracketed classes)
    (hr : c.range = none) : c = .custom (arrange bracketed pool.leftovers) ∧
      ∃ ch, ch ∈ pool.leftovers := by
  rcases mem_customClassesAfter hc with ⟨rfl, d, -, hholds⟩ | ⟨d, -, hfree, -, rfl⟩
  · unfold holdsLeftovers at hholds
    rw [Bool.and_eq_true, List.any_eq_true] at hholds
    obtain ⟨-, ch, -, hch⟩ := hholds
    exact ⟨rfl, ch, List.contains_iff_mem.1 hch⟩
  · have hrange : d.range ≠ none := CharClass.range_ne_none hfree
    exact absurd hr hrange

/-- What is left over is in no complete class. -/
theorem not_contains_of_leftover {pool : Pool} {ch : Char} (h : ch ∈ pool.leftovers)
    {b : BasicClass} (hb : pool.isComplete b = true) : b.contains ch = false := by
  obtain ⟨-, d, hd, hdch⟩ := mem_leftovers_iff.1 h
  refine Bool.not_eq_true _ ▸ fun hbch => ?_
  rw [BasicClass.eq_of_contains hbch hdch, hd] at hb
  cases hb

theorem isRest_of_range (hu : universal? classes = none)
    (hc : c ∈ (ofClasses role classes).customClasses bracketed classes) (hr : c.range = none) :
    c.IsRest ((ofClasses role classes).namedClasses classes) := by
  obtain ⟨rfl, ch, hch⟩ := eq_leftovers_of_range hc hr
  have hmem : ∀ ch,
      (CharClass.custom (arrange bracketed (ofClasses role classes).leftovers)).contains ch = true →
        ch ∈ (ofClasses role classes).leftovers :=
    fun ch h => (mem_arrange_iff.1 (List.contains_iff_mem.1 h)).1
  refine ⟨?_, fun d hd hdr x hx => ?_, fun b => ?_⟩
  · have hp := (mem_ofClasses_iff.1 (mem_leftovers_iff.1 hch).1).1
    exact List.ne_nil_of_mem (mem_arrange_iff.2 ⟨hch, hp⟩)
  · obtain ⟨b, hb, rfl⟩ := mem_namedClasses_iff.1 hd
    rw [contains_namedClass]
    exact not_contains_of_leftover (hmem x hx) (isComplete_of_namedClass hu hb hdr)
  · -- Were all of the class left over, it would be complete, and nothing of it left over.
    by_contra hall
    have hleft : ∀ x, b.contains x = true → x ∈ (ofClasses role classes).leftovers := by
      refine fun x hx => hmem x (Bool.not_eq_false _ ▸ fun hnot => hall ⟨x, hx, hnot⟩)
    have hcomplete : (ofClasses role classes).isComplete b = true :=
      isComplete_iff.2 fun x hx => (mem_leftovers_iff.1 (hleft x hx)).1
    have hnot := not_contains_of_leftover (hleft b.member b.contains_member) hcomplete
    rw [b.contains_member] at hnot
    cases hnot

theorem inClassOrder_customClasses {pool : Pool} (hc : c ∈ pool.customClasses bracketed classes) :
    InClassOrder bracketed c.chars := by
  rcases mem_customClassesAfter hc with ⟨rfl, -⟩ | ⟨d, -, -, -, rfl⟩
  · exact inClassOrder_arrange bracketed _
  · exact inClassOrder_arrange bracketed _

theorem canonicalShape (hu : universal? classes = none) : CanonicalShape bracketed
    ((ofClasses role classes).namedClasses classes)
    ((ofClasses role classes).customClasses bracketed classes) where
  basic c hc := by
    obtain ⟨b, -, rfl⟩ := mem_namedClasses_iff.1 hc
    exact ⟨b, name?_namedClass _ classes b⟩
  distinct := nodup_names _ classes
  unnamed _ hc := name?_custom hc
  single := length_unranged_customClasses _ bracketed classes
  rest _ hc hr := isRest_of_range hu hc hr
  ordered _ hc := inClassOrder_customClasses hc

/-! ## Caps in allowed lists -/

/-- A class with a range that remains in an allowed list has a member outside the pool. -/
theorem exists_outside_of_kept {pool : Pool} (hrole : pool.role = .allowed)
    (hp : PrintableOnly classes) (hc : c ∈ pool.customClasses bracketed classes)
    (hr : c.range ≠ none) : ∃ ch, c.contains ch = true ∧ ch ∉ pool.chars := by
  rcases mem_customClassesAfter hc with ⟨rfl, -⟩ | ⟨d, hd, hfree, ⟨before, hremains⟩, rfl⟩
  · exact absurd rfl hr
  · have hout : d.chars.all pool.chars.contains = false := by
      unfold remains at hremains
      rw [hfree, hrole] at hremains
      cases hranged : pool.rangedBasic? d with
      | some b => simp [hranged] at hremains
      | none => simpa [hranged] using hremains
    obtain ⟨ch, hch, hnot⟩ := List.all_eq_false.1 hout
    have hdch := CharClass.mem_chars_iff.1 hch
    refine ⟨ch, ?_, fun hmem => hnot (List.contains_iff_mem.2 hmem)⟩
    exact (contains_kept (hp d hd) ch).trans hdch

end Pool

/-! ## Canonical lists -/

/-- **The shape of a canonical list.** A list without universal classes that does not contain every
printable character, in an allowed list not in its classes without a range, has a canonical form of
named basic classes and then custom classes. And in an allowed list each custom class with a range
has a member that no class without a range holds. -/
theorem canonical_has_shape (role : Role) (bracketed : Bool) (classes : List CharClass)
    (hu : ∀ c ∈ classes, c.isUniversal = false)
    (hrequired : role = .required → contents classes ≠ printable)
    (hallowed : role = .allowed → contents (unranged classes) ≠ printable) :
    ∃ named custom, canonical role bracketed classes = named ++ custom ∧
      CanonicalShape bracketed named custom ∧
      (role = .allowed → PrintableOnly classes → ∀ c ∈ custom, c.range ≠ none →
        ∃ ch, c.contains ch = true ∧ covers (unranged (named ++ custom)) ch = false) := by
  have hnone := universal?_eq_none_iff.2 hu
  have ho : Ordinary role classes := by
    cases role with
    | required => exact .required_of_contents (hrequired rfl)
    | allowed => exact .allowed_of_contents hnone (hallowed rfl)
  refine ⟨_, _, ho.canonical_eq, Pool.canonicalShape hnone, ?_⟩
  rintro rfl hp c hc hr
  obtain ⟨ch, hch, hout⟩ := Pool.exists_outside_of_kept rfl hp hc hr
  have hprintable :=
    (Pool.inClassOrder_customClasses hc).printable ch (CharClass.mem_chars_iff.2 hch)
  refine ⟨ch, hch, Bool.not_eq_true _ ▸ fun hcovers => hout ?_⟩
  exact (mem_ofClasses_allowed_iff ho).1 (Pool.mem_ofClasses_allowed.2 ⟨hprintable, hcovers⟩)

/-- Capitals by name and in part, digits with a range twice, and members that brackets treat as
marks. -/
def overlappingClasses : List CharClass :=
  [.custom ['z', ']', '-', '!', 'Z'], ⟨.custom "9876543210".toList, some ⟨0, 2⟩⟩, .basic .upper,
    ⟨.named (.basic .digit), some ⟨0, 4⟩⟩, ⟨.custom ['y', 'A', '-', ']'], some ⟨0, 1⟩⟩]

theorem overlappingClasses_have_shape :
    (∀ c ∈ overlappingClasses, c.isUniversal = false) ∧
      contents (unranged overlappingClasses) ≠ printable ∧ PrintableOnly overlappingClasses ∧
      canonical .allowed true overlappingClasses =
        [.basic .upper, ⟨.named (.basic .digit), some ⟨0, 4⟩⟩] ++
          [.custom ['-', 'z', '!', ']'], ⟨.custom ['-', 'A', 'y', ']'], some ⟨0, 1⟩⟩] ∧
      ∃ named custom, canonical .allowed true overlappingClasses = named ++ custom ∧
        CanonicalShape true named custom ∧
        ∀ c ∈ custom, c.range ≠ none →
          ∃ ch, c.contains ch = true ∧ covers (unranged (named ++ custom)) ch = false := by
  have hu : ∀ c ∈ overlappingClasses, c.isUniversal = false := by decide
  have huncovered : contents (unranged overlappingClasses) ≠ printable := by decide
  have hp : PrintableOnly overlappingClasses := by decide
  obtain ⟨named, custom, heq, hshape, hcaps⟩ := canonical_has_shape .allowed true
    overlappingClasses hu (fun h => (nomatch h)) fun _ => huncovered
  exact ⟨hu, huncovered, hp, by decide, named, custom, heq, hshape, hcaps rfl hp⟩

end PasswordPolicy
