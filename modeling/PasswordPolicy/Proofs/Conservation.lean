import Mathlib.Data.List.Perm.Basic
import PasswordPolicy.Proofs.MergedContents

/-!
# What canonicalization conserves

**Characters.** A canonical list contains the printable characters of the list that it comes from,
and makes up no others (`canonical_keeps_contents`).

**Ranges.** In a required list each range is a demand of its own, so none may be lost, doubled or
moved to other characters. A custom class with a range either stays a custom class or, the first of
its kind, is stated by the name of the basic class that it amounts to. A basic class that the list
names is complete, and of the classes that name it the first alone counts.

Main result: the ranges of a canonical required list are those of the custom classes and of the
classes that name a basic class first, each on the same characters and as often as there
(`required_ranges_conserved`).
-/

namespace PasswordPolicy

open Text

/-! ## Characters -/

section Characters

variable {role : Role} {bracketed : Bool} {classes : List CharClass} {ch : Char}

theorem covers_of_covers_canonical (h : covers (canonical role bracketed classes) ch = true) :
    covers classes ch = true := by
  rcases canonical_cases role bracketed classes with
    ⟨u, hu, hcanonical⟩ | ⟨-, ⟨-, -, -, hcanonical⟩ | ⟨hall, hcanonical⟩⟩ | ho
  · rw [hcanonical] at h
    obtain ⟨c, hc, hch⟩ := covers_iff.1 h
    obtain rfl := List.mem_singleton.1 hc
    exact covers_iff.2 ⟨c, (mem_of_universal? hu).1, hch⟩
  · exact hcanonical ▸ h
  · rw [hcanonical] at h
    obtain ⟨c, hc, hch⟩ := covers_iff.1 h
    obtain rfl := List.mem_singleton.1 hc
    exact List.all_eq_true.1 hall ch (mem_printable_iff.2 hch)
  · rw [ho.canonical_eq] at h
    exact ho.covers_of_regrouped h

/-- **No character is lost or made up.** A canonical list contains the same printable characters,
and nothing that the list did not contain. -/
theorem canonical_keeps_contents (role : Role) (bracketed : Bool) (classes : List CharClass) :
    contents (canonical role bracketed classes) = contents classes ∧
      ∀ ch, covers (canonical role bracketed classes) ch = true → covers classes ch = true :=
  ⟨contents_canonical role bracketed classes, fun _ h => covers_of_covers_canonical h⟩

end Characters

/-! ## Ranges and what they speak of -/

/-- The classes with a range, each by its printable members. -/
def rangedContents (classes : List CharClass) : List (List Char × CountRange) :=
  classes.filterMap fun c => c.range.map (contents [c], ·)

/-- The basic classes that a list names, each as it is named first. -/
def firstNamed (classes : List CharClass) : List CharClass :=
  BasicClass.all.filterMap fun b => classes.find? (·.name? == some (.basic b))

section Ranged

variable {classes : List CharClass} {c d : CharClass}

theorem rangedContents_append (xs ys : List CharClass) :
    rangedContents (xs ++ ys) = rangedContents xs ++ rangedContents ys :=
  List.filterMap_append

theorem rangedContents_cons (c : CharClass) (classes : List CharClass) :
    rangedContents (c :: classes) = rangedContents [c] ++ rangedContents classes :=
  rangedContents_append [c] classes

theorem covers_singleton (c : CharClass) (ch : Char) : covers [c] ch = c.contains ch :=
  Bool.or_false _

/-- Order and repetition of the members do not matter. -/
theorem rangedContents_congr (hr : c.range = d.range)
    (h : ∀ ch, isPrintable ch = true → c.contains ch = d.contains ch) :
    rangedContents [c] = rangedContents [d] := by
  have hcontents : contents [c] = contents [d] := contents_congr fun ch hp => by
    rw [covers_singleton, covers_singleton, h ch hp]
  simp only [rangedContents, List.filterMap_cons, hr, hcontents]

theorem rangedContents_flatMap {α : Type} (f : α → List CharClass) (l : List α) :
    rangedContents (l.flatMap f) = l.flatMap fun a => rangedContents (f a) :=
  List.filterMap_flatMap

theorem rangedContents_filterMap {α : Type} (f : α → Option CharClass) (l : List α) :
    rangedContents (l.filterMap f) = l.flatMap fun a => rangedContents (f a).toList := by
  rw [List.filterMap_eq_flatMap_toList, rangedContents_flatMap]

theorem Pool.rangedContents_kept (bracketed : Bool) (c : CharClass) :
    rangedContents [kept bracketed c] = rangedContents [c] := by
  refine rangedContents_congr rfl fun ch hp => ?_
  show (arrange bracketed c.chars).contains ch = c.contains ch
  rw [Bool.eq_iff_iff, List.contains_iff_mem, mem_arrange_iff, CharClass.mem_chars_iff]
  exact and_iff_left hp

end Ranged

/-- One more entry, wherever it stands. -/
theorem perm_filterMap_cons {α β : Type} {l : List α} (hl : l.Nodup) {a : α} (ha : a ∈ l)
    {f g : α → Option β} {y : β} (hf : f a = some y) (hg : g a = none)
    (hsame : ∀ x, x ≠ a → f x = g x) : (l.filterMap f).Perm (y :: l.filterMap g) := by
  obtain ⟨xs, ys, rfl⟩ := List.append_of_mem ha
  have hnot : a ∉ xs ∧ a ∉ ys := by
    have hmiddle := (List.nodup_cons.1 (List.perm_middle.nodup hl)).1
    exact not_or.1 fun hmem => hmiddle (List.mem_append.2 hmem)
  have hxs : xs.filterMap f = xs.filterMap g :=
    List.filterMap_congr fun x hx => hsame x fun heq => hnot.1 (heq ▸ hx)
  have hys : ys.filterMap f = ys.filterMap g :=
    List.filterMap_congr fun x hx => hsame x fun heq => hnot.2 (heq ▸ hx)
  rw [List.filterMap_append, List.filterMap_append, List.filterMap_cons_some hf,
    List.filterMap_cons_none hg, hxs, hys]
  exact List.perm_middle

/-! ## Custom classes with a range -/

namespace Pool

variable {pool : Pool} {bracketed : Bool} {before classes : List CharClass} {c : CharClass}
  {b : BasicClass}

/-- The class with a range that is stated by the name of `b`: the first that amounts to it, unless
there was one before. -/
def statedAs? (pool : Pool) (before classes : List CharClass) (b : BasicClass) :
    Option CharClass :=
  if before.any (pool.rangedBasic? · == some b) then none
  else classes.find? (pool.rangedBasic? · == some b)

theorem statedAs?_nil (classes : List CharClass) (b : BasicClass) :
    pool.statedAs? [] classes b = classes.find? (pool.rangedBasic? · == some b) := rfl

theorem statedAs?_cons_of_ne (h : pool.rangedBasic? c ≠ some b) :
    pool.statedAs? before (c :: classes) b = pool.statedAs? (c :: before) classes b := by
  simp [statedAs?, h]

theorem statedAs?_cons_self (h : pool.rangedBasic? c = some b)
    (hbefore : ¬before.any (pool.rangedBasic? · == some b) = true) :
    pool.statedAs? before (c :: classes) b = some c := by
  simp [statedAs?, h, hbefore]

theorem statedAs?_of_before (h : before.any (pool.rangedBasic? · == some b) = true) :
    pool.statedAs? before classes b = none := by
  simp [statedAs?, h]

/-- In a required list a class with a range remains unless it is the first to be stated by the name
of some basic class. -/
theorem remains_iff_of_required (hrole : pool.role = .required)
    (hfree : c.isFree pool.role = false) : pool.remains before c = true ↔
      ∀ b, pool.rangedBasic? c = some b → before.any (pool.rangedBasic? · == some b) = true := by
  unfold remains
  rw [hfree, hrole]
  cases pool.rangedBasic? c with
  | none => simp
  | some b => simp

/-- What becomes of the classes with a range that follow `before`. -/
def outcomes (pool : Pool) (bracketed : Bool) (before classes : List CharClass) : List CharClass :=
  pool.customClassesAfter bracketed before classes ++
    BasicClass.all.filterMap (pool.statedAs? before classes)

/-- A free class states no range, and neither do the leftovers that it may bring up. -/
theorem rangedContents_outcomes_of_free (hfree : c.isFree pool.role = true) :
    rangedContents (pool.outcomes bracketed before (c :: classes)) =
      rangedContents (pool.outcomes bracketed (c :: before) classes) := by
  have hranged : pool.rangedBasic? c = none := by simp [rangedBasic?, hfree]
  have hremains : pool.remains before c = false := by simp [remains, hfree]
  have hstated : pool.statedAs? before (c :: classes) = pool.statedAs? (c :: before) classes :=
    funext fun b => statedAs?_cons_of_ne (by simp [hranged])
  unfold outcomes
  rw [customClassesAfter, hremains, hstated, List.append_assoc, rangedContents_append]
  split
  · rfl
  · rfl

/-- Of a class with a range the range and the members are kept, once. -/
theorem rangedContents_outcomes_of_ranged (hrole : pool.role = .required)
    (hfree : c.isFree pool.role = false) :
    (rangedContents (pool.outcomes bracketed before (c :: classes))).Perm
      (rangedContents [c] ++ rangedContents (pool.outcomes bracketed (c :: before) classes)) := by
  have hiff : pool.remains before c = true ↔ _ := remains_iff_of_required hrole hfree
  by_cases hremains : pool.remains before c = true
  · have hstated : pool.statedAs? before (c :: classes) = pool.statedAs? (c :: before) classes := by
      funext b
      by_cases hb : pool.rangedBasic? c = some b
      · rw [statedAs?_of_before (hiff.1 hremains b hb), statedAs?_of_before (by simp [hb])]
      · exact statedAs?_cons_of_ne hb
    rw [outcomes, customClassesAfter_of_remains hremains, hstated, List.cons_append,
      rangedContents_cons, rangedContents_kept]
    exact List.Perm.refl _
  · obtain ⟨b, hb, hbefore⟩ : ∃ b, pool.rangedBasic? c = some b ∧
        ¬before.any (pool.rangedBasic? · == some b) = true := by
      simpa only [hiff, Classical.not_forall, exists_prop] using hremains
    have hholds : pool.holdsLeftovers c = false := by simp [holdsLeftovers, hfree]
    have hstated : (BasicClass.all.filterMap (pool.statedAs? before (c :: classes))).Perm
        (c :: BasicClass.all.filterMap (pool.statedAs? (c :: before) classes)) := by
      refine perm_filterMap_cons BasicClass.nodup_all b.mem_all (statedAs?_cons_self hb hbefore)
        (statedAs?_of_before (by simp [hb])) fun x hx => statedAs?_cons_of_ne ?_
      rw [hb, ne_eq, Option.some.injEq]
      exact hx.symm
    have houtcomes : (pool.outcomes bracketed before (c :: classes)).Perm
        (c :: pool.outcomes bracketed (c :: before) classes) := by
      unfold outcomes
      rw [customClassesAfter, hholds, Bool.false_and, if_neg (by decide), if_neg hremains,
        List.nil_append]
      exact (hstated.append_left _).trans List.perm_middle
    rw [← rangedContents_cons]
    exact houtcomes.filterMap _

/-- What remains a custom class and what is stated by name are all the classes with a range, with
their ranges and members. -/
theorem rangedContents_outcomes (hrole : pool.role = .required) (bracketed : Bool)
    (before classes : List CharClass) :
    (rangedContents (pool.outcomes bracketed before classes)).Perm
      (rangedContents (classes.filter (!·.isFree pool.role))) := by
  induction classes generalizing before with
  | nil =>
    have hnone : pool.statedAs? before [] = fun _ => none := funext fun b => by simp [statedAs?]
    rw [outcomes, hnone, List.filterMap_none]
    exact List.Perm.refl _
  | cons c classes ih =>
    cases hfree : c.isFree pool.role with
    | true =>
      rw [rangedContents_outcomes_of_free hfree, List.filter_cons_of_neg (by simp [hfree])]
      exact ih (c :: before)
    | false =>
      rw [List.filter_cons_of_pos (by simp [hfree]), rangedContents_cons]
      exact (rangedContents_outcomes_of_ranged hrole hfree).trans ((ih (c :: before)).append_left _)

/-! ## Named classes -/

/-- The class that states `b`, if `b` is stated by name at all. -/
def namedClass? (pool : Pool) (classes : List CharClass) (b : BasicClass) : Option CharClass :=
  if b ∈ classes.flatMap pool.namesFrom then some (pool.namedClass classes b) else none

/-- Each basic class is stated by name once, and only its own statement decides how. -/
theorem perm_namedClasses (pool : Pool) (classes : List CharClass) :
    (pool.namedClasses classes).Perm (BasicClass.all.filterMap (pool.namedClass? classes)) := by
  have hnames : ((classes.flatMap pool.namesFrom).eraseDups).Perm
      (BasicClass.all.filter (· ∈ classes.flatMap pool.namesFrom)) := by
    refine (List.perm_ext_iff_of_nodup (nodup_eraseDups _) (BasicClass.nodup_all.filter _)).2 ?_
    intro b
    rw [List.mem_eraseDups, List.mem_filter, decide_eq_true_eq]
    exact (and_iff_right b.mem_all).symm
  have hclasses : BasicClass.all.filterMap (pool.namedClass? classes) =
      (BasicClass.all.filter (· ∈ classes.flatMap pool.namesFrom)).map
        (pool.namedClass classes) := by
    rw [← List.filterMap_eq_map, List.filterMap_filter]
    refine List.filterMap_congr fun b _ => ?_
    simp [namedClass?]
  rw [hclasses]
  exact hnames.map _

/-- In a required list an incomplete class takes the range of the first class that amounts to it. -/
theorem rangeOf_of_required (hrole : pool.role = .required) (classes : List CharClass)
    (b : BasicClass) :
    pool.rangeOf classes b = (pool.statedAs? [] classes b).bind (·.range) := by
  unfold rangeOf
  rw [hrole, statedAs?_nil, ← List.head?_filter]
  cases hfilter : classes.filter (pool.rangedBasic? · == some b) with
  | nil => rfl
  | cons c cs =>
    have hc := (List.mem_filter.1 (hfilter ▸ List.mem_cons_self)).2
    have hfree := (rangedBasic?_eq_some_iff.1 (beq_iff_eq.1 hc)).1
    obtain ⟨r, hr⟩ := Option.ne_none_iff_exists'.1 (CharClass.range_ne_none hfree)
    simp [hr]

section Required

variable (hu : universal? classes = none)
include hu

theorem rangedContents_namedClass?_of_complete
    (h : (ofClasses .required classes).isComplete b = true) :
    rangedContents ((ofClasses .required classes).namedClass? classes b).toList =
      rangedContents (classes.find? (·.name? == some (.basic b))).toList := by
  have hfind : (fun c : CharClass => c.isFree .required && c.name? == some (.basic b)) =
      fun c => c.name? == some (.basic b) := by
    funext c
    cases hname : c.name? == some (ClassName.basic b) with
    | true => simp [CharClass.isFree, CharClass.isNamed, beq_iff_eq.1 hname]
    | false => exact Bool.and_false _
  have hb := (mem_names_iff hu).2 (.inl h)
  rw [namedClass?, if_pos hb, namedClass, if_pos h, role_ofClasses, hfind]
  cases classes.find? (·.name? == some (.basic b)) with
  | none => rfl
  | some c => rfl

theorem rangedContents_namedClass?_of_incomplete
    (h : (ofClasses .required classes).isComplete b = false) :
    rangedContents ((ofClasses .required classes).namedClass? classes b).toList =
      rangedContents ((ofClasses .required classes).statedAs? [] classes b).toList := by
  have hrange := rangeOf_of_required (role_ofClasses .required classes) classes b
  cases hstated : (ofClasses .required classes).statedAs? [] classes b with
  | none =>
    have hnone := List.find?_eq_none.1 hstated
    have hb : b ∉ classes.flatMap (ofClasses .required classes).namesFrom := by
      rw [mem_names_iff hu, h]
      rintro (hcomplete | ⟨c, hc, hranged⟩)
      · cases hcomplete
      · exact hnone c hc (by simp [hranged])
    rw [namedClass?, if_neg hb]
  | some c =>
    rw [statedAs?_nil] at hstated
    have hc : c ∈ classes := List.mem_of_find?_eq_some hstated
    have hranged : (ofClasses .required classes).rangedBasic? c = some b := by
      simpa using List.find?_some hstated
    have hb := (mem_names_iff hu).2 (.inr ⟨c, hc, hranged⟩)
    have hsame := ClassBody.basic?_eq_some_iff.1 (rangedBasic?_eq_some_iff.1 hranged).2.1
    rw [namedClass?, if_pos hb, namedClass, h, hrange, statedAs?_nil, hstated]
    exact rangedContents_congr rfl fun ch _ => (hsame ch).symm

/-- A basic class is stated with the range that it is first named with, or else with the range of
the first class that amounts to it. -/
theorem rangedContents_namedClass? (b : BasicClass) :
    rangedContents ((ofClasses .required classes).namedClass? classes b).toList =
      rangedContents (classes.find? (·.name? == some (.basic b))).toList ++
        rangedContents ((ofClasses .required classes).statedAs? [] classes b).toList := by
  cases h : (ofClasses .required classes).isComplete b with
  | true =>
    have hstated : (ofClasses .required classes).statedAs? [] classes b = none := by
      refine List.find?_eq_none.2 fun c _ hranged => ?_
      have hincomplete := (rangedBasic?_eq_some_iff.1 (beq_iff_eq.1 hranged)).2.2
      rw [h] at hincomplete
      cases hincomplete
    rw [rangedContents_namedClass?_of_complete hu h, hstated]
    exact (List.append_nil _).symm
  | false =>
    have hunnamed : classes.find? (·.name? == some (.basic b)) = none := by
      refine List.find?_eq_none.2 fun c hc hname => ?_
      have hname := beq_iff_eq.1 hname
      have hfree : c.isFree .required = true := by
        simp [CharClass.isFree, CharClass.isNamed, hname]
      rw [isComplete_of_name? hc hfree hname] at h
      cases h
    rw [rangedContents_namedClass?_of_incomplete hu h, hunnamed]
    rfl

theorem rangedContents_namedClasses :
    (rangedContents ((ofClasses .required classes).namedClasses classes)).Perm
      (rangedContents (firstNamed classes) ++ rangedContents
        (BasicClass.all.filterMap ((ofClasses .required classes).statedAs? [] classes))) := by
  refine ((perm_namedClasses _ classes).filterMap _).trans ?_
  rw [firstNamed, ← rangedContents, rangedContents_filterMap, rangedContents_filterMap,
    rangedContents_filterMap]
  simp only [rangedContents_namedClass? hu]
  exact (List.flatMap_append_perm _ _ _).symm

end Required

end Pool

/-! ## Required lists -/

/-- In a required list exactly the custom classes with a range are not free. -/
theorem rangedContents_unfree (classes : List CharClass) :
    rangedContents (classes.filter (!·.isFree .required)) =
      rangedContents (classes.filter (!·.isNamed)) := by
  unfold rangedContents
  rw [List.filterMap_filter, List.filterMap_filter]
  refine List.filterMap_congr fun c _ => ?_
  cases hr : c.range with
  | none => simp
  | some r => simp [CharClass.isFree, hr]

theorem rangedContents_regrouped {bracketed : Bool} {classes : List CharClass}
    (hu : universal? classes = none) :
    (rangedContents (regrouped .required bracketed classes)).Perm
      (rangedContents (classes.filter (!·.isNamed)) ++ rangedContents (firstNamed classes)) := by
  have hnamed := Pool.rangedContents_namedClasses hu
  have hcustom := Pool.rangedContents_outcomes (Pool.role_ofClasses .required classes) bracketed
    [] classes
  rw [Pool.outcomes, rangedContents_append, Pool.role_ofClasses, rangedContents_unfree] at hcustom
  rw [regrouped, rangedContents_append]
  refine (hnamed.append_right _).trans ?_
  rw [List.append_assoc]
  refine List.Perm.trans ?_ List.perm_append_comm
  exact (List.perm_append_comm.trans hcustom).append_left _

/-- **No range is lost, doubled or moved.** In a required list without universal classes that does
not contain every printable character, the ranges speak of the same characters afterwards: those of
all custom classes, and those that basic classes are first named with. A list that does contain
every printable character is left alone if it has any range. -/
theorem required_ranges_conserved (bracketed : Bool) (classes : List CharClass)
    (hu : ∀ c ∈ classes, c.isUniversal = false) :
    (contents classes ≠ printable →
        (rangedContents (canonical .required bracketed classes)).Perm
          (rangedContents (classes.filter (!·.isNamed)) ++ rangedContents (firstNamed classes))) ∧
      (contents classes = printable → anyRange classes = true →
        canonical .required bracketed classes = classes) := by
  have hnone := universal?_eq_none_iff.2 hu
  have hcovers : contents classes = printable ↔ printable.all (covers classes) = true := by
    rw [contents, List.filter_eq_self, List.all_eq_true]
  rw [ne_eq, hcovers]
  refine ⟨fun huncovered => ?_, fun hall hrange => ?_⟩
  · rw [(Ordinary.of_uncovered hnone huncovered).canonical_eq]
    exact rangedContents_regrouped hnone
  · rw [canonical_of_covering bracketed hnone hall, if_pos hrange]

/-- Ranges on a name and its repetition, on a class spelled out twice, and on characters that other
classes hold as well. -/
def demandingClasses : List CharClass :=
  [⟨.custom ['7', 'B', '7'], some ⟨1, 2⟩⟩, ⟨.named (.basic .digit), some ⟨1, 3⟩⟩,
    ⟨.custom "ZYXWVUTSRQPONMLKJIHGFEDCBA".toList, some ⟨2, 4⟩⟩, .custom ['B', '!'],
    ⟨.named (.basic .digit), some ⟨0, 9⟩⟩,
    ⟨.custom "ABCDEFGHIJKLMNOPQRSTUVWXYZ".toList, some ⟨3, 3⟩⟩]

theorem demandingClasses_conserved :
    (∀ c ∈ demandingClasses, c.isUniversal = false) ∧ contents demandingClasses ≠ printable ∧
      canonical .required false demandingClasses =
        [⟨.named (.basic .digit), some ⟨1, 3⟩⟩, ⟨.named (.basic .upper), some ⟨2, 4⟩⟩,
          ⟨.custom ['B', '7'], some ⟨1, 2⟩⟩, .custom ['B', '!'],
          ⟨.custom "ABCDEFGHIJKLMNOPQRSTUVWXYZ".toList, some ⟨3, 3⟩⟩] ∧
      (rangedContents (canonical .required false demandingClasses)).Perm
        [(['7', 'B'], ⟨1, 2⟩), ("ABCDEFGHIJKLMNOPQRSTUVWXYZ".toList, ⟨2, 4⟩),
          ("ABCDEFGHIJKLMNOPQRSTUVWXYZ".toList, ⟨3, 3⟩), ("0123456789".toList, ⟨1, 3⟩)] ∧
      canonical .required false (demandingClasses ++ [.basic .lower, .basic .special]) =
        demandingClasses ++ [.basic .lower, .basic .special] := by
  have hu : ∀ c ∈ demandingClasses, c.isUniversal = false := by decide
  have huncovered : contents demandingClasses ≠ printable := by decide
  have hconserved := (required_ranges_conserved false demandingClasses hu).1 huncovered
  have hcovered := (required_ranges_conserved false
    (demandingClasses ++ [.basic .lower, .basic .special]) (by decide)).2 (by decide) (by decide)
  refine ⟨hu, huncovered, by decide, hconserved.trans (List.Perm.of_eq ?_), hcovered⟩
  decide

end PasswordPolicy
