import PasswordPolicy.CharClass.Canonical
import PasswordPolicy.Proofs.Alphabet

/-!
# What a pool holds

Everything that canonicalization decides about a class, it decides from the characters in it. Here
each of its tests is put in those terms: which basic class a body amounts to
(`ClassBody.basic?_eq_some_iff`) and which ones it brings up (`CharClass.mentions_iff`), what a pool
holds (`Pool.mem_ofClasses_iff`), which classes it completes and what is left over.
-/

namespace PasswordPolicy

open Text

/-! ## Lists without repetition -/

theorem nodup_eraseDups {α : Type} [BEq α] [LawfulBEq α] (l : List α) : l.eraseDups.Nodup := by
  match l with
  | [] => exact List.nodup_nil
  | a :: l =>
    rw [List.eraseDups_cons, List.nodup_cons]
    exact ⟨by simp, nodup_eraseDups _⟩
termination_by l.length
decreasing_by exact Nat.lt_succ_of_le (List.length_filter_le _ _)

theorem eraseDups_eq_self {α : Type} [BEq α] [LawfulBEq α] {l : List α} (h : l.Nodup) :
    l.eraseDups = l := by
  induction l with
  | nil => rfl
  | cons a l ih =>
    obtain ⟨ha, hl⟩ := List.nodup_cons.1 h
    have hfilter : l.filter (fun b => !b == a) = l := by
      refine List.filter_eq_self.2 fun b hb => ?_
      have hne : b ≠ a := fun heq => ha (heq ▸ hb)
      simp [hne]
    rw [List.eraseDups_cons, hfilter, ih hl]

/-- What is listed again behind what it begins with adds nothing. -/
theorem eraseDups_append_again {α : Type} [BEq α] [LawfulBEq α] (xs ys : List α) :
    (xs ++ (xs ++ ys).eraseDups).eraseDups = (xs ++ ys).eraseDups := by
  have hrest : ((xs ++ ys).eraseDups).removeAll xs = (ys.removeAll xs).eraseDups := by
    rw [List.eraseDups_append]
    unfold List.removeAll
    rw [List.filter_append]
    have hxs : xs.eraseDups.filter (fun x => !xs.elem x) = [] := by
      refine List.filter_eq_nil_iff.2 fun x hx => ?_
      simpa using List.mem_eraseDups.1 hx
    have hys : (ys.filter fun x => !xs.elem x).eraseDups.filter (fun x => !xs.elem x) =
        (ys.filter fun x => !xs.elem x).eraseDups := by
      refine List.filter_eq_self.2 fun x hx => ?_
      exact (List.mem_filter.1 (List.mem_eraseDups.1 hx)).2
    rw [hxs, hys, List.nil_append]
  rw [List.eraseDups_append, hrest, eraseDups_eq_self (nodup_eraseDups _), ← List.eraseDups_append]

/-! ## Basic classes -/

namespace BasicClass

theorem nodup_all : all.Nodup := by
  decide

theorem exists_contains {ch : Char} (h : isPrintable ch = true) :
    ∃ b : BasicClass, b.contains ch = true := by
  by_cases hu : isCapital ch = true
  · exact ⟨upper, hu⟩
  · by_cases hl : isSmallLetter ch = true
    · exact ⟨lower, hl⟩
    · by_cases hd : ch.isDigit = true
      · exact ⟨digit, hd⟩
      · exact ⟨special, by simp [contains, h, hu, hl, hd]⟩

/-- Some member of the class. -/
def member : BasicClass → Char
  | upper => 'A'
  | lower => 'a'
  | digit => '0'
  | special => ' '

theorem contains_member (b : BasicClass) : b.contains b.member = true := by
  cases b <;> rfl

end BasicClass

theorem mem_classOrder_iff {ch : Char} : ch ∈ classOrder ↔ isPrintable ch = true := by
  unfold classOrder
  constructor
  · intro h
    obtain ⟨b, -, hb⟩ := List.mem_flatMap.1 h
    exact BasicClass.isPrintable_of_contains (BasicClass.mem_chars_iff.1 hb)
  · intro h
    obtain ⟨b, hb⟩ := BasicClass.exists_contains h
    exact List.mem_flatMap.2 ⟨b, b.mem_all, BasicClass.mem_chars_iff.2 hb⟩

/-! ## Contents of classes -/

theorem covers_iff {classes : List CharClass} {ch : Char} :
    covers classes ch = true ↔ ∃ c ∈ classes, c.contains ch = true :=
  List.any_eq_true

theorem CharClass.mem_chars_iff {c : CharClass} {ch : Char} :
    ch ∈ c.chars ↔ c.contains ch = true :=
  ClassBody.mem_chars_iff

theorem ClassBody.spells_iff {cs : List Char} {b : BasicClass} :
    (b.chars.all cs.contains && cs.all b.contains) = true ↔
      ∀ ch, (custom cs).contains ch = b.contains ch := by
  rw [Bool.and_eq_true, List.all_eq_true, List.all_eq_true]
  constructor
  · rintro ⟨hb, hcs⟩ ch
    rw [Bool.eq_iff_iff, ← mem_chars_iff]
    refine ⟨hcs ch, fun hch => ?_⟩
    exact List.contains_iff_mem.1 (hb ch (BasicClass.mem_chars_iff.2 hch))
  · intro h
    refine ⟨fun ch hch => (h ch).trans (BasicClass.mem_chars_iff.1 hch), fun ch hch => ?_⟩
    exact (h ch).symm.trans (List.contains_iff_mem.2 hch)

/-- Two bodies with the same members amount to the same basic class, and only those do. -/
theorem ClassBody.basic?_eq_some_iff {body : ClassBody} {b : BasicClass} :
    body.basic? = some b ↔ ∀ ch, body.contains ch = b.contains ch := by
  cases body with
  | named n =>
    cases n with
    | basic d =>
      constructor
      · intro h ch
        cases h
        rfl
      · intro h
        have hd : b.contains d.member = true := (h d.member) ▸ d.contains_member
        rw [BasicClass.eq_of_contains hd d.contains_member]
        rfl
    | asciiPrintable | unicode =>
      refine ⟨fun h => (nomatch h), fun h => ?_⟩
      have hu : b.contains 'A' = true := (h 'A').symm
      have hl : b.contains 'a' = true := (h 'a').symm
      have hb : b = .upper := BasicClass.eq_of_contains hu (by decide)
      rw [hb] at hl
      exact absurd hl (by decide)
  | custom cs =>
    constructor
    · intro h
      have h : BasicClass.all.find? (fun d => d.chars.all cs.contains && cs.all d.contains) =
        some b := h
      exact spells_iff.1 (by simpa using List.find?_some h)
    · intro h
      refine find?_eq_some_of_unique b.mem_all (spells_iff.2 h) fun d _ hd => ?_
      have hmember : d.contains b.member = true := by
        rw [← spells_iff.1 hd, h]
        exact b.contains_member
      exact BasicClass.eq_of_contains hmember b.contains_member

theorem CharClass.mentions_iff {c : CharClass} (h : c.isUniversal = false) {b : BasicClass} :
    c.body.mentions b = true ↔ ∃ ch, c.contains ch = true ∧ b.contains ch = true := by
  obtain ⟨body, range⟩ := c
  cases body with
  | named n =>
    cases n with
    | basic d =>
      constructor
      · intro hm
        obtain rfl : d = b := by simpa [ClassBody.mentions] using hm
        exact ⟨d.member, d.contains_member, d.contains_member⟩
      · rintro ⟨ch, hd, hb⟩
        obtain rfl : d = b := BasicClass.eq_of_contains hd hb
        simp [ClassBody.mentions]
    | asciiPrintable | unicode =>
      exact absurd h (by simp [isUniversal, name?, ClassName.isUniversal])
  | custom cs => simp [ClassBody.mentions, contains, ClassBody.contains]

theorem universal?_eq_none_iff {classes : List CharClass} :
    universal? classes = none ↔ ∀ c ∈ classes, c.isUniversal = false := by
  unfold universal?
  simp only [Option.or_eq_none_iff, List.find?_eq_none, Bool.not_eq_true, and_iff_right_iff_imp]
  intro h c hc
  have hc := h c hc
  simp only [CharClass.isUniversal, beq_eq_false_iff_ne] at hc ⊢
  rintro hu
  simp [hu, ClassName.isUniversal] at hc

theorem mem_of_universal? {classes : List CharClass} {c : CharClass}
    (h : universal? classes = some c) : c ∈ classes ∧ c.isUniversal = true := by
  unfold universal? at h
  rcases Option.or_eq_some_iff.1 h with h | ⟨-, h⟩
  · have hname : c.name? = some .unicode := by simpa using List.find?_some h
    refine ⟨List.mem_of_find?_eq_some h, ?_⟩
    simp [CharClass.isUniversal, hname, ClassName.isUniversal]
  · exact ⟨List.mem_of_find?_eq_some h, List.find?_some h⟩

theorem universal?_singleton {c : CharClass} (h : c.isUniversal = true) :
    universal? [c] = some c := by
  unfold universal?
  by_cases hc : (c.name? == some .unicode) = true <;> simp [hc, h]

/-- A list without a universal class does not matter in front of others. -/
theorem universal?_append_of_none {xs : List CharClass} (h : universal? xs = none)
    (ys : List CharClass) : universal? (xs ++ ys) = universal? ys := by
  unfold universal? at h ⊢
  obtain ⟨hu, ha⟩ := Option.or_eq_none_iff.1 h
  rw [List.find?_append, List.find?_append, hu, ha, Option.none_or, Option.none_or]

theorem CharClass.contains_of_isUniversal {c : CharClass} (h : c.isUniversal = true) {ch : Char}
    (hp : isPrintable ch = true) : c.contains ch = true := by
  obtain ⟨body, range⟩ := c
  cases body with
  | named n =>
    cases n with
    | basic b => exact absurd h (by simp [isUniversal, name?, ClassName.isUniversal])
    | asciiPrintable | unicode => exact hp
  | custom cs => exact absurd h (by simp [isUniversal, name?])

/-! ## Arranged characters -/

namespace Pool

theorem mem_arrange_iff {bracketed : Bool} {cs : List Char} {ch : Char} :
    ch ∈ arrange bracketed cs ↔ ch ∈ cs ∧ isPrintable ch = true := by
  have hordered : ch ∈ classOrder.filter cs.contains ↔ ch ∈ cs ∧ isPrintable ch = true := by
    rw [List.mem_filter, mem_classOrder_iff, List.contains_iff_mem, and_comm]
  unfold arrange
  cases bracketed with
  | false => exact hordered
  | true => exact mem_bracketOrder_iff.trans hordered

theorem arrange_congr {bracketed : Bool} {cs ds : List Char}
    (h : ∀ ch, isPrintable ch = true → (ch ∈ cs ↔ ch ∈ ds)) :
    arrange bracketed cs = arrange bracketed ds := by
  have hfilter : classOrder.filter cs.contains = classOrder.filter ds.contains := by
    refine List.filter_congr fun ch hch => ?_
    rw [Bool.eq_iff_iff, List.contains_iff_mem, List.contains_iff_mem]
    exact h ch (mem_classOrder_iff.1 hch)
  simp only [arrange, hfilter]

theorem arrange_arrange {bracketed : Bool} {cs : List Char} :
    arrange bracketed (arrange bracketed cs) = arrange bracketed cs := by
  refine arrange_congr fun ch hch => ?_
  rw [mem_arrange_iff]
  exact and_iff_left hch

/-! ## Members of a pool -/

@[simp]
theorem role_ofClasses (role : Role) (classes : List CharClass) :
    (ofClasses role classes).role = role := rfl

theorem mem_ofClasses_iff {role : Role} {classes : List CharClass} {ch : Char} :
    ch ∈ (ofClasses role classes).chars ↔
      isPrintable ch = true ∧ ∃ c ∈ classes, c.isFree role = true ∧ c.contains ch = true := by
  unfold ofClasses
  rw [List.mem_filter, mem_classOrder_iff, covers_iff]
  simp only [List.mem_filter, and_assoc]

variable {pool : Pool}

theorem isComplete_iff {b : BasicClass} :
    pool.isComplete b = true ↔ ∀ ch, b.contains ch = true → ch ∈ pool.chars := by
  simp only [isComplete, List.all_eq_true, BasicClass.mem_chars_iff, List.contains_iff_mem]

theorem mem_leftovers_iff {ch : Char} : ch ∈ pool.leftovers ↔
    ch ∈ pool.chars ∧ ∃ b : BasicClass, pool.isComplete b = false ∧ b.contains ch = true := by
  unfold leftovers
  simp only [List.mem_flatMap, List.mem_filter, Bool.not_eq_true']
  constructor
  · rintro ⟨b, ⟨-, hb⟩, hch, hmem⟩
    exact ⟨hch, b, hb, hmem⟩
  · rintro ⟨hch, b, hb, hmem⟩
    exact ⟨b, ⟨b.mem_all, hb⟩, hch, hmem⟩

theorem rangedBasic?_eq_some_iff {c : CharClass} {b : BasicClass} :
    pool.rangedBasic? c = some b ↔
      c.isFree pool.role = false ∧ c.body.basic? = some b ∧ pool.isComplete b = false := by
  unfold rangedBasic?
  by_cases h : c.isFree pool.role = true
  · simp [h]
  · simp [h, Option.filter_eq_some_iff]

end Pool

end PasswordPolicy
