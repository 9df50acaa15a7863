import PasswordPolicy.Proofs.CanonicalClasses
import PasswordPolicy.Proofs.Rendering

/-!
# Canonicalization sees only members

Neither the order in which the members of a class are written nor the least number of a range
matters to canonicalization. A list that is written down, with its ranges changed on the way, is
regrouped into the same classes with their ranges so changed (`regrouped_rewritten`).

The one place where a list is kept as it is, a required list that contains every printable
character, is left to those who need it.
-/

namespace PasswordPolicy

open Text

/-- The class as it is written, with its range changed. -/
def CharClass.rewritten (f : CountRange → CountRange) (c : CharClass) : CharClass :=
  ⟨c.body.written, c.range.map f⟩

def CharClass.mapRange (f : CountRange → CountRange) (c : CharClass) : CharClass :=
  c.withRange (c.range.map f)

/-- All but the dash and the closing bracket stay where they are. -/
theorem filter_bracketOrder (cs : List Char) :
    (bracketOrder cs).filter (fun c => c ≠ '-' ∧ c ≠ ']') =
      cs.filter (fun c => c ≠ '-' ∧ c ≠ ']') := by
  by_cases hd : '-' ∈ cs <;> by_cases hb : ']' ∈ cs <;> simp [bracketOrder, hd, hb]

theorem bracketOrder_bracketOrder (cs : List Char) :
    bracketOrder (bracketOrder cs) = bracketOrder cs := by
  rw [bracketOrder, filter_bracketOrder]
  simp only [mem_bracketOrder_iff]
  rfl

theorem ClassBody.written_written (body : ClassBody) : body.written.written = body.written := by
  cases body with
  | named n => rfl
  | custom cs => exact congrArg custom (bracketOrder_bracketOrder cs)

theorem CharClass.written_written (c : CharClass) : c.written.written = c.written := by
  simp only [written, ClassBody.written_written]

/-! ## One class -/

namespace CharClass

variable {f : CountRange → CountRange} {c : CharClass}

@[simp]
theorem contains_rewritten (ch : Char) : (c.rewritten f).contains ch = c.contains ch := by
  obtain ⟨body, range⟩ := c
  cases body with
  | named n => rfl
  | custom cs =>
    show (bracketOrder cs).contains ch = cs.contains ch
    rw [Bool.eq_iff_iff, List.contains_iff_mem, List.contains_iff_mem, mem_bracketOrder_iff]

@[simp]
theorem mem_chars_rewritten {ch : Char} : ch ∈ (c.rewritten f).chars ↔ ch ∈ c.chars := by
  rw [mem_chars_iff, mem_chars_iff, contains_rewritten]

@[simp]
theorem name?_rewritten : (c.rewritten f).name? = c.name? := by
  obtain ⟨body, range⟩ := c
  cases body <;> rfl

@[simp]
theorem isNamed_rewritten : (c.rewritten f).isNamed = c.isNamed := by
  simp only [isNamed, name?_rewritten]

@[simp]
theorem isUniversal_rewritten : (c.rewritten f).isUniversal = c.isUniversal := by
  simp only [isUniversal, name?_rewritten]

@[simp]
theorem range_rewritten : (c.rewritten f).range = c.range.map f := rfl

@[simp]
theorem isFree_rewritten (role : Role) : (c.rewritten f).isFree role = c.isFree role := by
  simp only [isFree, range_rewritten, isNamed_rewritten, Option.isNone_map]

@[simp]
theorem basic?_rewritten : (c.rewritten f).body.basic? = c.body.basic? := by
  refine Option.ext fun b => ?_
  rw [ClassBody.basic?_eq_some_iff, ClassBody.basic?_eq_some_iff]
  exact forall_congr' fun ch => by rw [← contains, contains_rewritten, contains]

@[simp]
theorem mentions_rewritten (b : BasicClass) :
    (c.rewritten f).body.mentions b = c.body.mentions b := by
  obtain ⟨body, range⟩ := c
  cases body with
  | named n => rfl
  | custom cs =>
    show (bracketOrder cs).any b.contains = cs.any b.contains
    rw [Bool.eq_iff_iff, List.any_eq_true, List.any_eq_true]
    simp only [mem_bracketOrder_iff]

@[simp]
theorem all_chars_rewritten (p : Char → Bool) : (c.rewritten f).chars.all p = c.chars.all p := by
  rw [Bool.eq_iff_iff, List.all_eq_true, List.all_eq_true]
  simp only [mem_chars_rewritten]

@[simp]
theorem any_chars_rewritten (p : Char → Bool) : (c.rewritten f).chars.any p = c.chars.any p := by
  rw [Bool.eq_iff_iff, List.any_eq_true, List.any_eq_true]
  simp only [mem_chars_rewritten]

/-- A named class has nothing to reorder. -/
theorem rewritten_of_named {n : ClassName} (h : c.name? = some n) :
    c.rewritten f = c.mapRange f := by
  rw [rewritten, body_of_name? h, mapRange, withRange, body_of_name? h]
  rfl

theorem written_of_named {n : ClassName} (h : c.name? = some n) : c.written = c := by
  rw [written, body_of_name? h]
  exact congrArg (CharClass.mk · c.range) (body_of_name? h).symm

end CharClass

theorem arrange_rewritten (bracketed : Bool) (f : CountRange → CountRange) (c : CharClass) :
    Pool.arrange bracketed (c.rewritten f).chars = Pool.arrange bracketed c.chars :=
  Pool.arrange_congr fun _ _ => CharClass.mem_chars_rewritten

/-! ## Lists of classes -/

section Lists

variable {f : CountRange → CountRange}

theorem covers_rewritten (classes : List CharClass) :
    covers (classes.map (CharClass.rewritten f)) = covers classes := by
  funext ch
  simp only [covers, List.any_map, Function.comp_def, CharClass.contains_rewritten]

theorem anyRange_rewritten (classes : List CharClass) :
    anyRange (classes.map (CharClass.rewritten f)) = anyRange classes := by
  simp only [anyRange, List.any_map, Function.comp_def, CharClass.range_rewritten,
    Option.isSome_map]

theorem universal?_rewritten (classes : List CharClass) :
    universal? (classes.map (CharClass.rewritten f)) =
      (universal? classes).map (CharClass.mapRange f) := by
  unfold universal?
  simp only [List.find?_map, Function.comp_def, CharClass.name?_rewritten,
    CharClass.isUniversal_rewritten]
  cases hu : classes.find? (·.name? == some .unicode) with
  | some c =>
    have hname : c.name? = some .unicode := by simpa using List.find?_some hu
    exact congrArg some (CharClass.rewritten_of_named hname)
  | none =>
    cases ha : classes.find? (·.isUniversal) with
    | some c =>
      have huniversal := List.find?_some ha
      obtain ⟨n, hname, -⟩ := (Option.any_eq_true _ _).1 huniversal
      exact congrArg some (CharClass.rewritten_of_named hname)
    | none => rfl

namespace Pool

theorem ofClasses_rewritten (role : Role) (classes : List CharClass) :
    ofClasses role (classes.map (CharClass.rewritten f)) = ofClasses role classes := by
  simp only [ofClasses, List.filter_map, Function.comp_def, CharClass.isFree_rewritten,
    covers_rewritten]

variable (pool : Pool)

@[simp]
theorem rangedBasic?_rewritten (c : CharClass) :
    pool.rangedBasic? (c.rewritten f) = pool.rangedBasic? c := by
  simp only [rangedBasic?, CharClass.isFree_rewritten, CharClass.basic?_rewritten]

@[simp]
theorem namesFrom_rewritten (c : CharClass) :
    pool.namesFrom (c.rewritten f) = pool.namesFrom c := by
  simp only [namesFrom, CharClass.isFree_rewritten, CharClass.mentions_rewritten,
    rangedBasic?_rewritten]

@[simp]
theorem holdsLeftovers_rewritten (c : CharClass) :
    pool.holdsLeftovers (c.rewritten f) = pool.holdsLeftovers c := by
  simp only [holdsLeftovers, CharClass.isFree_rewritten, CharClass.isNamed_rewritten,
    CharClass.any_chars_rewritten]

theorem remains_rewritten (before : List CharClass) (c : CharClass) :
    pool.remains (before.map (CharClass.rewritten f)) (c.rewritten f) = pool.remains before c := by
  simp only [remains, CharClass.isFree_rewritten, rangedBasic?_rewritten, List.any_map,
    Function.comp_def, CharClass.all_chars_rewritten]

/-- Which of several ranges allows the most does not depend on their least numbers. -/
theorem widest_map (hf : ∀ r, (f r).most = r.most) (ranges : List CountRange) :
    widest (ranges.map f) = (widest ranges).map f := by
  cases ranges with
  | nil => rfl
  | cons r ranges =>
    have hfold : ∀ r, (ranges.map f).foldl (fun a b => if a.most < b.most then b else a) (f r) =
        f (ranges.foldl (fun a b => if a.most < b.most then b else a) r) := by
      induction ranges with
      | nil => exact fun r => rfl
      | cons s ranges ih =>
        intro r
        rw [List.map_cons, List.foldl_cons, List.foldl_cons, ← ih, hf, hf, apply_ite f]
    exact congrArg some (hfold r)

theorem rangeOf_rewritten (hf : ∀ r, (f r).most = r.most) (classes : List CharClass)
    (b : BasicClass) : pool.rangeOf (classes.map (CharClass.rewritten f)) b =
      (pool.rangeOf classes b).map f := by
  have hranges : ((classes.map (CharClass.rewritten f)).filter
      (pool.rangedBasic? · == some b)).filterMap (·.range) =
        ((classes.filter (pool.rangedBasic? · == some b)).filterMap (·.range)).map f := by
    simp only [List.filter_map, Function.comp_def, rangedBasic?_rewritten, List.filterMap_map,
      List.map_filterMap, CharClass.range_rewritten]
  unfold rangeOf
  rw [hranges]
  cases pool.role with
  | required => exact List.head?_map
  | allowed => exact widest_map hf _

theorem namedClass_rewritten (hf : ∀ r, (f r).most = r.most) (classes : List CharClass)
    (b : BasicClass) : pool.namedClass (classes.map (CharClass.rewritten f)) b =
      (pool.namedClass classes b).mapRange f := by
  unfold namedClass
  by_cases h : pool.isComplete b = true
  · rw [if_pos h, if_pos h]
    simp only [List.find?_map, Function.comp_def, CharClass.isFree_rewritten,
      CharClass.name?_rewritten]
    cases hfind : classes.find? fun c => c.isFree pool.role && c.name? == some (.basic b) with
    | none => rfl
    | some c =>
      have hc := List.find?_some hfind
      rw [Bool.and_eq_true, beq_iff_eq] at hc
      exact CharClass.rewritten_of_named hc.2
  · rw [if_neg h, if_neg h, rangeOf_rewritten pool hf]
    rfl

theorem customClassesAfter_rewritten (bracketed : Bool) (before classes : List CharClass) :
    pool.customClassesAfter bracketed (before.map (CharClass.rewritten f))
        (classes.map (CharClass.rewritten f)) =
      (pool.customClassesAfter bracketed before classes).map (CharClass.mapRange f) := by
  induction classes generalizing before with
  | nil => rfl
  | cons c classes ih =>
    have hih := ih (c :: before)
    rw [List.map_cons] at hih
    rw [List.map_cons, customClassesAfter, customClassesAfter, hih, List.map_append]
    simp only [holdsLeftovers_rewritten, List.any_map, Function.comp_def, remains_rewritten,
      arrange_rewritten]
    congr 1
    split
    · rfl
    · split
      · rfl
      · rfl

end Pool

theorem regrouped_rewritten (hf : ∀ r, (f r).most = r.most) (role : Role) (bracketed : Bool)
    (classes : List CharClass) :
    regrouped role bracketed (classes.map (CharClass.rewritten f)) =
      (regrouped role bracketed classes).map (CharClass.mapRange f) := by
  unfold regrouped
  rw [Pool.ofClasses_rewritten, List.map_append]
  congr 1
  · unfold Pool.namedClasses
    rw [List.flatMap_map, List.map_map]
    simp only [Pool.namesFrom_rewritten]
    refine List.map_congr_left fun b _ => ?_
    exact Pool.namedClass_rewritten _ hf classes b
  · exact Pool.customClassesAfter_rewritten _ bracketed [] classes

theorem ordinary_rewritten_iff {role : Role} {classes : List CharClass} :
    Ordinary role (classes.map (CharClass.rewritten f)) ↔ Ordinary role classes := by
  have hu : universal? (classes.map (CharClass.rewritten f)) = none ↔
      universal? classes = none := by
    rw [universal?_rewritten, Option.map_eq_none_iff]
  constructor
  · intro h
    refine ⟨hu.1 h.noUniversal, ?_, ?_⟩
    · rw [← covers_rewritten (f := f)]
      exact h.uncovered
    · rw [← Pool.ofClasses_rewritten (f := f)]
      exact h.incomplete
  · intro h
    refine ⟨hu.2 h.noUniversal, ?_, ?_⟩
    · rw [covers_rewritten]
      exact h.uncovered
    · rw [Pool.ofClasses_rewritten]
      exact h.incomplete

end Lists

/-! ## Lists as they are written -/

theorem CharClass.written_eq_rewritten : CharClass.written = CharClass.rewritten id := by
  funext c
  simp only [written, rewritten, Option.map_id_apply]

theorem CharClass.mapRange_id : CharClass.mapRange id = id := by
  funext c
  simp only [mapRange, withRange, Option.map_id_apply, id_eq]

theorem regrouped_written (role : Role) (bracketed : Bool) (classes : List CharClass) :
    regrouped role bracketed (classes.map CharClass.written) =
      regrouped role bracketed classes := by
  rw [CharClass.written_eq_rewritten, regrouped_rewritten (f := id) fun _ => rfl,
    CharClass.mapRange_id, List.map_id]

theorem ordinary_written_iff {role : Role} {classes : List CharClass} :
    Ordinary role (classes.map CharClass.written) ↔ Ordinary role classes := by
  rw [CharClass.written_eq_rewritten]
  exact ordinary_rewritten_iff

/-- What is written the same is regrouped into the same. -/
theorem regrouped_congr_written {role : Role} {bracketed : Bool} {xs ys : List CharClass}
    (h : xs.map CharClass.written = ys.map CharClass.written) :
    regrouped role bracketed xs = regrouped role bracketed ys := by
  rw [← regrouped_written role bracketed xs, h, regrouped_written]

theorem ordinary_congr_written {role : Role} {xs ys : List CharClass}
    (h : xs.map CharClass.written = ys.map CharClass.written) :
    Ordinary role xs ↔ Ordinary role ys := by
  exact ordinary_written_iff.symm.trans (h ▸ ordinary_written_iff)

end PasswordPolicy
