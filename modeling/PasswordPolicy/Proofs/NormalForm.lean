import PasswordPolicy.Proofs.Absorption
import PasswordPolicy.Proofs.Conservation

/-!
# Lists without ranges

Without ranges every class is free, in a required list as in an allowed one. So the pool is all that
the list contains, and nothing else decides about the canonical form: each complete class is stated
by its plain name (`Pool.namedClass_of_rangeless`), and what is left over is stated once, if
anything is (`Ordinary.customClasses_of_rangeless`). The list itself only decides in which order the
named classes come.

Main result: two lists without ranges have the same classes in their canonical forms exactly if they
have the same contents, and the role of a list does not matter (`canonical_normal_form`).
-/

namespace PasswordPolicy

open Text

theorem range_of_rangeless {classes : List CharClass} (h : anyRange classes = false) {c : CharClass}
    (hc : c ∈ classes) : c.range = none := by
  simpa using List.any_eq_false.1 h c hc

section Rangeless

variable {role : Role} {bracketed : Bool} {classes : List CharClass}
  (hr : anyRange classes = false)
include hr

namespace Pool

/-! ## The pool -/

theorem ofClasses_of_rangeless (role : Role) :
    ofClasses role classes = ⟨role, classOrder.filter (covers classes)⟩ := by
  have hfree : classes.filter (·.isFree role) = classes :=
    List.filter_eq_self.2 fun c hc => CharClass.isFree_of_range (range_of_rangeless hr hc) role
  rw [ofClasses, hfree]

theorem rangedBasic?_of_rangeless (pool : Pool) {c : CharClass} (hc : c ∈ classes) :
    pool.rangedBasic? c = none := by
  rw [rangedBasic?, if_pos (CharClass.isFree_of_range (range_of_rangeless hr hc) pool.role)]

/-! ## Named classes -/

theorem namedClass_of_rangeless (pool : Pool) (b : BasicClass) :
    pool.namedClass classes b = .basic b := by
  rcases pool.namedClass_cases classes b with h | ⟨c, hc, -, hname, h⟩ | h
  · exact h
  · rw [h]
    exact CharClass.eq_of_name? hname rfl (range_of_rangeless hr hc)
  · have hrange : pool.rangeOf classes b = none := by
      refine Option.eq_none_iff_forall_ne_some.2 fun r hrange => ?_
      obtain ⟨c, hc, hranged, -⟩ := mem_of_rangeOf hrange
      rw [rangedBasic?_of_rangeless hr pool hc] at hranged
      cases hranged
    rw [h, hrange]
    rfl

theorem namedClasses_of_rangeless (pool : Pool) :
    pool.namedClasses classes = (classes.flatMap pool.namesFrom).eraseDups.map .basic :=
  List.map_congr_left fun b _ => namedClass_of_rangeless hr pool b

theorem perm_namedClasses_of_rangeless (hu : universal? classes = none) :
    ((ofClasses role classes).namedClasses classes).Perm
      ((BasicClass.all.filter (ofClasses role classes).isComplete).map .basic) := by
  refine (perm_namedClasses _ classes).trans (List.Perm.of_eq ?_)
  rw [← List.filterMap_eq_map, List.filterMap_filter]
  refine List.filterMap_congr fun b _ => ?_
  have hnames : b ∈ classes.flatMap (ofClasses role classes).namesFrom ↔
      (ofClasses role classes).isComplete b = true := by
    refine (mem_names_iff hu).trans (or_iff_left ?_)
    rintro ⟨c, hc, hranged⟩
    rw [rangedBasic?_of_rangeless hr _ hc] at hranged
    cases hranged
  rw [namedClass?, namedClass_of_rangeless hr]
  exact if_congr hnames rfl rfl

/-! ## Custom classes -/

theorem customClasses_of_rangeless (pool : Pool) :
    pool.customClasses bracketed classes =
      if classes.any pool.holdsLeftovers then [.custom (arrange bracketed pool.leftovers)]
      else [] := by
  have hfree : ∀ c ∈ classes, c.isFree pool.role = true :=
    fun c hc => CharClass.isFree_of_range (range_of_rangeless hr hc) pool.role
  rw [customClasses, customClassesAfter_of_free hfree]
  simp

end Pool

/-- The leftovers are stated once, if there are any. -/
theorem Ordinary.customClasses_of_rangeless (h : Ordinary role classes) :
    (Pool.ofClasses role classes).customClasses bracketed classes =
      if (Pool.ofClasses role classes).leftovers = [] then []
      else [.custom (Pool.arrange bracketed (Pool.ofClasses role classes).leftovers)] := by
  rw [Pool.customClasses_of_rangeless hr]
  by_cases hnone : (Pool.ofClasses role classes).leftovers = []
  · have hany : classes.any (Pool.ofClasses role classes).holdsLeftovers = false := by
      simp [Pool.holdsLeftovers, hnone]
    rw [hany, if_pos hnone]
    rfl
  · obtain ⟨ch, hch⟩ := List.exists_mem_of_ne_nil _ hnone
    have hmem : .custom (Pool.arrange bracketed (Pool.ofClasses role classes).leftovers) ∈
        (Pool.ofClasses role classes).customClasses bracketed classes := h.leftovers_mem hch
    rw [Pool.customClasses_of_rangeless hr] at hmem
    rw [if_neg hnone]
    split at hmem
    · next hany => rw [if_pos hany]
    · exact absurd hmem List.not_mem_nil

/-! ## Canonical forms -/

/-- The classes of the canonical form are given by the pool alone. -/
theorem Ordinary.perm_canonical_of_rangeless (h : Ordinary role classes) :
    (canonical role bracketed classes).Perm
      ((BasicClass.all.filter (Pool.ofClasses role classes).isComplete).map .basic ++
        if (Pool.ofClasses role classes).leftovers = [] then []
        else [.custom (Pool.arrange bracketed (Pool.ofClasses role classes).leftovers)]) := by
  rw [h.canonical_eq, regrouped, h.customClasses_of_rangeless hr]
  exact (Pool.perm_namedClasses_of_rangeless hr h.noUniversal).append_right _

/-- A list that contains everything is the plain class of all printable characters. -/
theorem canonical_of_rangeless_printable (hun : ∀ c ∈ classes, c.name? ≠ some .unicode)
    (hall : contents classes = printable) :
    canonical .required bracketed classes = [.named .asciiPrintable] := by
  cases hu : universal? classes with
  | some c =>
    obtain ⟨hc, huniversal⟩ := mem_of_universal? hu
    have hname := (CharClass.name?_of_isUniversal huniversal).resolve_left (hun c hc)
    have hplain : c = .named .asciiPrintable :=
      CharClass.eq_of_name? hname rfl (range_of_rangeless hr hc)
    rw [canonical_of_universal hu, hplain]
  | none =>
    have hcovers : printable.all (covers classes) = true :=
      List.all_eq_true.2 (List.filter_eq_self.1 hall)
    rw [canonical_of_covering bracketed hu hcovers, hr]
    rfl

theorem isComplete_of_rangeless : (Pool.ofClasses .allowed classes).isComplete =
    (Pool.ofClasses .required classes).isComplete := by
  rw [Pool.ofClasses_of_rangeless hr, Pool.ofClasses_of_rangeless hr]
  rfl

/-- Without ranges the role of a list does not matter to how it is regrouped. -/
theorem regrouped_of_rangeless : regrouped .required bracketed classes =
    regrouped .allowed bracketed classes := by
  have hfree : ∀ c ∈ classes, ∀ role, c.isFree role = true :=
    fun c hc => CharClass.isFree_of_range (range_of_rangeless hr hc)
  have hnames : classes.flatMap (Pool.ofClasses .required classes).namesFrom =
      classes.flatMap (Pool.ofClasses .allowed classes).namesFrom := by
    refine List.flatMap_congr fun c hc => ?_
    simp only [Pool.namesFrom, hfree c hc, if_true, isComplete_of_rangeless hr]
  have hleftovers : (Pool.ofClasses .required classes).leftovers =
      (Pool.ofClasses .allowed classes).leftovers := by
    rw [Pool.ofClasses_of_rangeless hr, Pool.ofClasses_of_rangeless hr]
    rfl
  have hany : classes.any (Pool.ofClasses .required classes).holdsLeftovers =
      classes.any (Pool.ofClasses .allowed classes).holdsLeftovers := by
    rw [Bool.eq_iff_iff, List.any_eq_true, List.any_eq_true]
    refine exists_congr fun c => and_congr_right fun hc => ?_
    simp only [Pool.holdsLeftovers, hfree c hc, hleftovers]
  rw [regrouped, regrouped, Pool.namedClasses_of_rangeless hr, Pool.namedClasses_of_rangeless hr,
    Pool.customClasses_of_rangeless hr, Pool.customClasses_of_rangeless hr, hnames, hleftovers,
    hany]

theorem canonical_role_of_rangeless :
    canonical .required bracketed classes = canonical .allowed bracketed classes := by
  have hunranged : unranged classes = classes :=
    List.filter_eq_self.2 fun c hc => by simp [range_of_rangeless hr hc]
  cases hu : universal? classes with
  | some c => rw [canonical_of_universal hu, canonical_of_universal hu]
  | none =>
    by_cases hall : printable.all (covers classes) = true
    · have hcovers : ∀ ch, isPrintable ch = true → covers (unranged classes) ch = true := by
        intro ch hp
        rw [hunranged]
        exact List.all_eq_true.1 hall ch (mem_printable_iff.2 hp)
      rw [canonical_of_covering bracketed hu hall, hr, canonical_of_unranged hu hcovers]
      rfl
    · have hrequired : Ordinary .required classes := .of_uncovered hu hall
      have hallowed : Ordinary .allowed classes := by
        refine ⟨hu, fun hrole => (nomatch hrole), fun hcomplete => hrequired.incomplete ?_⟩
        rw [← isComplete_of_rangeless hr]
        exact hcomplete
      rw [hrequired.canonical_eq, hallowed.canonical_eq, regrouped_of_rangeless hr]

end Rangeless

theorem canonical_perm_of_contents {bracketed : Bool} {xs ys : List CharClass}
    (hx : anyRange xs = false) (hy : anyRange ys = false)
    (hxu : ∀ c ∈ xs, c.name? ≠ some .unicode) (hyu : ∀ c ∈ ys, c.name? ≠ some .unicode)
    (h : contents xs = contents ys) :
    (canonical .required bracketed xs).Perm (canonical .required bracketed ys) := by
  by_cases hall : contents xs = printable
  · rw [canonical_of_rangeless_printable hx hxu hall,
      canonical_of_rangeless_printable hy hyu (h ▸ hall)]
  · have hpool : Pool.ofClasses .required xs = Pool.ofClasses .required ys := by
      rw [Pool.ofClasses_of_rangeless hx, Pool.ofClasses_of_rangeless hy]
      refine congrArg (Pool.mk .required) (List.filter_congr fun ch hch => ?_)
      have hp := mem_classOrder_iff.1 hch
      have hmem : ch ∈ contents xs ↔ ch ∈ contents ys := by rw [h]
      rw [mem_contents_iff, mem_contents_iff, and_iff_right hp, and_iff_right hp] at hmem
      exact Bool.eq_iff_iff.2 hmem
    have hxo : Ordinary .required xs := .required_of_contents hall
    have hyo : Ordinary .required ys := .required_of_contents (h ▸ hall)
    refine (hxo.perm_canonical_of_rangeless hx).trans ?_
    rw [hpool]
    exact (hyo.perm_canonical_of_rangeless hy).symm

/-- **Without ranges the canonical form is a normal form.** Two lists without ranges and without the
class of all Unicode have canonical forms of the same classes exactly if they contain the same
printable characters. And it does not matter whether a list without ranges is required or
allowed. -/
theorem canonical_normal_form (bracketed : Bool) :
    (∀ xs ys, anyRange xs = false → anyRange ys = false →
      (∀ c ∈ xs, c.name? ≠ some .unicode) → (∀ c ∈ ys, c.name? ≠ some .unicode) →
        ((canonical .required bracketed xs).Perm (canonical .required bracketed ys) ↔
          contents xs = contents ys)) ∧
    ∀ classes, anyRange classes = false →
      canonical .required bracketed classes = canonical .allowed bracketed classes := by
  refine ⟨fun xs ys hx hy hxu hyu => ⟨fun hperm => ?_, ?_⟩, fun classes hr => ?_⟩
  · -- A canonical form has the contents of its list, in whatever order its classes come.
    calc contents xs
      _ = contents (canonical .required bracketed xs) := (contents_canonical _ _ _).symm
      _ = contents (canonical .required bracketed ys) :=
        contents_congr fun _ _ => hperm.any_eq
      _ = contents ys := contents_canonical _ _ _
  · exact canonical_perm_of_contents hx hy hxu hyu
  · exact canonical_role_of_rangeless hr

/-- Letters in two pieces that overlap, and a piece of the digits. -/
def lettersInPieces : List CharClass :=
  [.custom "mlkjihgfedcba".toList, .custom ['7', '-', ']', '7'], .custom "zyxwvutsrqponmm".toList]

/-- The same, with the letters by name. -/
def lettersByName : List CharClass :=
  [.custom ['-', 'k'], .basic .lower, .custom [], .custom ['7', ']', '7']]

theorem lettersInPieces_normal_form :
    anyRange lettersInPieces = false ∧ anyRange lettersByName = false ∧
      (∀ c ∈ lettersInPieces, c.name? ≠ some .unicode) ∧
      (∀ c ∈ lettersByName, c.name? ≠ some .unicode) ∧
      contents lettersInPieces = contents lettersByName ∧
      (canonical .required true lettersInPieces).Perm (canonical .required true lettersByName) ∧
      canonical .required true lettersInPieces = canonical .allowed true lettersInPieces ∧
      canonical .required true lettersInPieces = [.basic .lower, .custom ['-', '7', ']']] := by
  have hx : anyRange lettersInPieces = false := by decide
  have hy : anyRange lettersByName = false := by decide
  have hxu : ∀ c ∈ lettersInPieces, c.name? ≠ some .unicode := by decide
  have hyu : ∀ c ∈ lettersByName, c.name? ≠ some .unicode := by decide
  have hsame : contents lettersInPieces = contents lettersByName := by decide
  have hnormal := canonical_normal_form true
  exact ⟨hx, hy, hxu, hyu, hsame, (hnormal.1 _ _ hx hy hxu hyu).2 hsame, hnormal.2 _ hx, by decide⟩

end PasswordPolicy
