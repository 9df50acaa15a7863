import Mathlib.Data.List.Forall2
import Mathlib.Data.List.Nodup
import PasswordPolicy.Proofs.CanonicalCongr

/-!
# Canonical lists ready for brackets

**Ready or not**, a canonical list has the same classes: the members of a custom class are only put
in the order in which brackets hold them (`ClassBody.Reordered`). A canonical list says each member
once, so bracket order is a permutation of them (`perm_bracketOrder`).

Main results: the two forms of a canonical list are reorderings of each other
(`reordered_canonical`) and are written the same (`written_canonical`), and a list without ranges
has the same canonical form as its written one (`canonical_written`).
-/

namespace PasswordPolicy

open Text

/-! ## Members said once -/

theorem nodup_printable : printable.Nodup := by
  have hcode : ∀ i < 95, (Char.ofNat (32 + i)).toNat = 32 + i := by decide
  refine List.nodup_range.map_on fun i hi j hj h => ?_
  have hi := hcode i (List.mem_range.1 hi)
  have hj := hcode j (List.mem_range.1 hj)
  rw [h, hj] at hi
  omega

theorem nodup_classOrder : classOrder.Nodup := by
  unfold classOrder
  refine List.nodup_flatMap.2 ⟨fun b _ => nodup_printable.filter _, ?_⟩
  refine BasicClass.nodup_all.imp fun {b d} hne ch hb hd => hne ?_
  exact BasicClass.eq_of_contains (BasicClass.mem_chars_iff.1 hb) (BasicClass.mem_chars_iff.1 hd)

theorem perm_bracketOrder {cs : List Char} (h : cs.Nodup) : (bracketOrder cs).Perm cs := by
  refine (List.perm_ext_iff_of_nodup ?_ h).2 fun _ => mem_bracketOrder_iff
  unfold bracketOrder
  by_cases hd : '-' ∈ cs <;> by_cases hb : ']' ∈ cs <;>
    simp [hd, hb, h.filter, List.nodup_append]

theorem Pool.nodup_arrange (cs : List Char) : (arrange false cs).Nodup :=
  nodup_classOrder.filter _

/-! ## Reordered classes -/

/-- The same body, but for the order of members between brackets. -/
inductive ClassBody.Reordered : ClassBody → ClassBody → Prop
  | named (n : ClassName) : Reordered (.named n) (.named n)
  | custom {cs ds : List Char} : cs.Perm ds → Reordered (.custom cs) (.custom ds)

structure CharClass.Reordered (c d : CharClass) : Prop where
  body : c.body.Reordered d.body
  range : c.range = d.range

theorem ClassBody.Reordered.refl (body : ClassBody) : body.Reordered body := by
  cases body with
  | named n => exact .named n
  | custom cs => exact .custom (List.Perm.refl cs)

namespace CharClass

theorem Reordered.refl (c : CharClass) : c.Reordered c :=
  ⟨.refl c.body, rfl⟩

theorem Reordered.withRange {c d : CharClass} (h : c.Reordered d) (range : Option CountRange) :
    (c.withRange range).Reordered (d.withRange range) :=
  ⟨h.body, rfl⟩

theorem Reordered.written_custom {cs : List Char} (h : cs.Nodup) (range : Option CountRange) :
    (CharClass.mk (.custom cs) range).written.Reordered ⟨.custom cs, range⟩ :=
  ⟨.custom (perm_bracketOrder h), rfl⟩

end CharClass

theorem reordered_refl (classes : List CharClass) :
    List.Forall₂ CharClass.Reordered classes classes :=
  List.forall₂_same.2 fun c _ => .refl c

/-! ## Ordinary lists -/

namespace Pool

variable (pool : Pool)

theorem customClassesAfter_bracketed (before classes : List CharClass) :
    pool.customClassesAfter true before classes =
      (pool.customClassesAfter false before classes).map CharClass.written := by
  induction classes generalizing before with
  | nil => rfl
  | cons c classes ih =>
    rw [customClassesAfter, customClassesAfter, ih, List.map_append]
    congr 1
    split
    · rfl
    · split <;> rfl

theorem written_namedClass (classes : List CharClass) (b : BasicClass) :
    (pool.namedClass classes b).written = pool.namedClass classes b := by
  have hname : (pool.namedClass classes b).name? = some (.basic b) := by
    rw [CharClass.name?, namedClass_body]
  exact CharClass.written_of_named hname

end Pool

section Forms

variable {role : Role} {classes : List CharClass}

theorem regrouped_bracketed :
    regrouped role true classes = (regrouped role false classes).map CharClass.written := by
  unfold regrouped
  rw [List.map_append]
  congr 1
  · unfold Pool.namedClasses
    rw [List.map_map]
    exact List.map_congr_left fun b _ => (Pool.written_namedClass _ classes b).symm
  · exact Pool.customClassesAfter_bracketed _ [] classes

theorem reordered_written_of_mem_regrouped {c : CharClass} (h : c ∈ regrouped role false classes) :
    c.written.Reordered c := by
  rcases mem_regrouped_iff.1 h with ⟨b, -, rfl⟩ | h
  · rw [Pool.written_namedClass]
    exact .refl _
  · rcases Pool.mem_customClassesAfter h with ⟨rfl, -⟩ | ⟨d, -, -, -, rfl⟩
    · exact .written_custom (Pool.nodup_arrange _) none
    · exact .written_custom (Pool.nodup_arrange _) d.range

/-! ## Both forms of a canonical list -/

/-- Only an ordinary list is arranged anew. -/
theorem canonical_of_not_ordinary (h : ¬Ordinary role classes) :
    canonical role true classes = canonical role false classes := by
  unfold canonical
  cases hu : universal? classes with
  | some c => rfl
  | none =>
    by_cases hall : role = .required ∧ printable.all (covers classes) = true
    · simp only [hall, and_self, if_true]
    · have hcomplete : BasicClass.all.all (Pool.ofClasses role classes).isComplete = true := by
        by_contra hincomplete
        exact h ⟨hu, fun hr hc => hall ⟨hr, hc⟩, hincomplete⟩
      simp only [hall, hcomplete, if_false, if_true]

theorem reordered_canonical (role : Role) (classes : List CharClass) :
    List.Forall₂ CharClass.Reordered (canonical role true classes)
      (canonical role false classes) := by
  by_cases h : Ordinary role classes
  · rw [h.canonical_eq, h.canonical_eq, regrouped_bracketed, List.forall₂_map_left_iff]
    exact List.forall₂_same.2 fun c hc => reordered_written_of_mem_regrouped hc
  · rw [canonical_of_not_ordinary h]
    exact reordered_refl _

theorem written_canonical (role : Role) (classes : List CharClass) :
    (canonical role true classes).map CharClass.written =
      (canonical role false classes).map CharClass.written := by
  by_cases h : Ordinary role classes
  · rw [h.canonical_eq, h.canonical_eq, regrouped_bracketed, List.map_map]
    exact List.map_congr_left fun c _ => c.written_written
  · rw [canonical_of_not_ordinary h]

/-- A list that is kept as it is needs to be ready beforehand. -/
theorem written_of_mem_canonical (h : ∀ c ∈ classes, c.written = c) {c : CharClass}
    (hc : c ∈ canonical role true classes) : c.written = c := by
  rcases mem_canonical_cases hc with hc | rfl | hc
  · exact h c hc
  · rfl
  · rw [regrouped_bracketed] at hc
    obtain ⟨d, -, rfl⟩ := List.mem_map.1 hc
    exact d.written_written

/-! ## Lists as they are written -/

theorem covers_written (classes : List CharClass) :
    covers (classes.map CharClass.written) = covers classes := by
  rw [CharClass.written_eq_rewritten, covers_rewritten]

theorem anyRange_written (classes : List CharClass) :
    anyRange (classes.map CharClass.written) = anyRange classes := by
  rw [CharClass.written_eq_rewritten, anyRange_rewritten]

theorem universal?_written (classes : List CharClass) :
    universal? (classes.map CharClass.written) = universal? classes := by
  rw [CharClass.written_eq_rewritten, universal?_rewritten, CharClass.mapRange_id,
    Option.map_id_apply]

theorem Pool.ofClasses_written (role : Role) (classes : List CharClass) :
    ofClasses role (classes.map CharClass.written) = ofClasses role classes := by
  rw [CharClass.written_eq_rewritten, ofClasses_rewritten]

/-- Without ranges, no list is kept as it is. -/
theorem canonical_written (role : Role) (bracketed : Bool) (h : anyRange classes = false) :
    canonical role bracketed (classes.map CharClass.written) =
      canonical role bracketed classes := by
  have hregrouped := regrouped_written role bracketed classes
  unfold regrouped at hregrouped
  rw [Pool.ofClasses_written] at hregrouped
  unfold canonical
  simp only [universal?_written, covers_written, anyRange_written, h, Pool.ofClasses_written,
    hregrouped, Bool.false_eq_true, if_false]

end Forms

end PasswordPolicy
