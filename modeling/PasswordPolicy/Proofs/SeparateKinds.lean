import Mathlib.Data.List.Induction
import PasswordPolicy.Proofs.MergedRules

/-!
# Each kind of rule counts by itself

**Collecting.** The rules can be taken one after another (`Collected.push`): a required list or a
blocklist is put behind those before it, the classes of an allowed list are put behind the allowed
ones, of two numbers for a limit the stricter is kept, and a number of classes replaces the earlier
one. No step reads what another kind of rule has brought, and what the rules have come to in the end
is all that a merged policy is made from (`merge_congr_collect`).

**The same kinds.** So rules may be interleaved in any way: what counts is the order of required
lists and blocklists among each other, the allowed classes one after another, the last number of
classes, and which numbers are given for the other limits, in whatever order (`SameKinds`).

Main result: rules of the same kinds are merged into the same policy, and of the numbers given for
a limit it states the strictest (`merge_separate_kinds`).
-/

namespace PasswordPolicy

variable (minified : Bool)

/-! ## One rule after another -/

/-- What the rules come to, kind by kind, before their ranges are held against the limits. -/
structure Collected where
  demands : List Rule
  allowed : List CharClass
  maxConsecutive : Option UInt32
  minLength : Option UInt32
  maxLength : Option UInt32
  minClasses : Option UInt32

/-- The number kept of the one that held so far, if any, and a new one. -/
def keptNumber (pick : UInt32 → UInt32 → UInt32) (old : Option UInt32) (n : UInt32) :
    Option UInt32 :=
  some (old.elim n (pick · n))

namespace Collected

def empty : Collected := ⟨[], [], none, none, none, none⟩

def push (state : Collected) : Rule → Collected
  | .classes .required cs =>
    { state with demands := state.demands ++ [.classes .required (demand minified cs)] }
  | .classes .allowed cs =>
    { state with allowed := state.allowed ++ cs.map (·.withoutMinimum) }
  | .blocklist words => { state with demands := state.demands ++ [.blocklist words] }
  | .limit .maxConsecutive n =>
    { state with maxConsecutive := keptNumber min state.maxConsecutive n }
  | .limit .minLength n => { state with minLength := keptNumber max state.minLength n }
  | .limit .maxLength n => { state with maxLength := keptNumber min state.maxLength n }
  | .limit .minClasses n => { state with minClasses := some n }

end Collected

def collect (rules : List Rule) : Collected :=
  rules.foldl (Collected.push minified) .empty

theorem collect_concat (rules : List Rule) (r : Rule) :
    collect minified (rules ++ [r]) = (collect minified rules).push minified r := by
  rw [collect, List.foldl_append]
  rfl

theorem min?_concat (ns : List UInt32) (n : UInt32) :
    (ns ++ [n]).min? = keptNumber min ns.min? n := by
  cases ns with
  | nil => rfl
  | cons m ns =>
    rw [List.cons_append, List.min?_cons', List.min?_cons', List.foldl_append]
    rfl

theorem max?_concat (ns : List UInt32) (n : UInt32) :
    (ns ++ [n]).max? = keptNumber max ns.max? n := by
  cases ns with
  | nil => rfl
  | cons m ns =>
    rw [List.cons_append, List.max?_cons', List.max?_cons', List.foldl_append]
    rfl

/-- What is collected is, kind by kind, what the rules of that kind come to. -/
theorem collect_eq (rules : List Rule) : collect minified rules =
    ⟨demands minified rules, (listsIn .allowed rules).flatten.map (·.withoutMinimum),
      strictest .maxConsecutive rules, strictest .minLength rules, strictest .maxLength rules,
      strictest .minClasses rules⟩ := by
  induction rules using List.reverseRecOn with
  | nil => rfl
  | append_singleton rules r ih =>
    rw [collect_concat, ih, demands_append, listsIn_append]
    unfold strictest
    simp only [numbersIn_append]
    rcases r with ⟨⟨⟩, cs⟩ | ⟨⟨⟩, n⟩ | ws <;>
      simp [Collected.push, demands, listsIn, numbersIn, min?_concat, max?_concat]

/-- A merged policy is made from nothing but what is collected. -/
theorem merge_congr_collect {rules rules' : List Rule}
    (h : collect minified rules = collect minified rules') :
    merge minified rules = merge minified rules' := by
  rw [collect_eq, collect_eq, Collected.mk.injEq] at h
  obtain ⟨hdemands, hallowed, hconsecutive, hmin, hmax, hclasses⟩ := h
  have hconflict : mergeConflict? minified rules = mergeConflict? minified rules' := by
    unfold mergeConflict? lengthLimits
    rw [hdemands, hmin, hmax]
  unfold merge reconciled allowedRule? allowedClasses copied added mergedMinClasses askedMinClasses
    limitRule?
  rw [hconflict, hdemands, hallowed, hconsecutive, hmin, hmax, hclasses]

/-! ## The same kinds -/

/-- The rule is a required list or a blocklist, which keep their place. -/
def Rule.isDemand (r : Rule) : Bool :=
  r.name = .classes .required ∨ r.name = .blocklist

/-- The rules agree kind by kind, in whatever way the kinds are interleaved. -/
structure SameKinds (rules rules' : List Rule) : Prop where
  demands : rules.filter Rule.isDemand = rules'.filter Rule.isDemand
  allowed : (listsIn .allowed rules).flatten = (listsIn .allowed rules').flatten
  minClasses : (numbersIn .minClasses rules).getLast? = (numbersIn .minClasses rules').getLast?
  maxConsecutive : (numbersIn .maxConsecutive rules).Perm (numbersIn .maxConsecutive rules')
  minLength : (numbersIn .minLength rules).Perm (numbersIn .minLength rules')
  maxLength : (numbersIn .maxLength rules).Perm (numbersIn .maxLength rules')

theorem demands_filter (rules : List Rule) :
    demands minified (rules.filter Rule.isDemand) = demands minified rules := by
  unfold demands
  rw [List.filterMap_filter]
  congr 1
  funext r
  rcases r with ⟨⟨⟩, cs⟩ | _ | _ <;> rfl

theorem min?_perm {ns ms : List UInt32} (h : ns.Perm ms) : ns.min? = ms.min? := by
  refine Option.ext fun n => ?_
  rw [List.min?_eq_some_iff, List.min?_eq_some_iff]
  simp only [h.mem_iff]

theorem max?_perm {ns ms : List UInt32} (h : ns.Perm ms) : ns.max? = ms.max? := by
  refine Option.ext fun n => ?_
  rw [List.max?_eq_some_iff, List.max?_eq_some_iff]
  simp only [h.mem_iff]

theorem SameKinds.collect_eq {rules rules' : List Rule} (h : SameKinds rules rules') :
    collect minified rules = collect minified rules' := by
  have hdemands : PasswordPolicy.demands minified rules =
      PasswordPolicy.demands minified rules' := by
    rw [← demands_filter, h.demands, demands_filter]
  have hconsecutive : strictest .maxConsecutive rules = strictest .maxConsecutive rules' :=
    min?_perm h.maxConsecutive
  have hmin : strictest .minLength rules = strictest .minLength rules' := max?_perm h.minLength
  have hmax : strictest .maxLength rules = strictest .maxLength rules' := min?_perm h.maxLength
  have hclasses : strictest .minClasses rules = strictest .minClasses rules' := h.minClasses
  rw [PasswordPolicy.collect_eq, PasswordPolicy.collect_eq, hdemands, h.allowed, hconsecutive,
    hmin, hmax, hclasses]

/-! ## The strictest numbers -/

/-- Of the given numbers the strictest is stated, and none if none is given. -/
inductive StatesStrictest (stricter : UInt32 → UInt32 → Prop) : List UInt32 → List UInt32 → Prop
  | none : StatesStrictest stricter [] []
  | some {given : List UInt32} {n : UInt32} : n ∈ given → (∀ k ∈ given, stricter n k) →
    StatesStrictest stricter given [n]

theorem statesStrictest_min (given : List UInt32) :
    StatesStrictest (· ≤ ·) given given.min?.toList := by
  cases h : given.min? with
  | none =>
    rw [List.min?_eq_none_iff.1 h]
    exact .none
  | some n =>
    obtain ⟨hmem, hleast⟩ := List.min?_eq_some_iff.1 h
    exact .some hmem hleast

theorem statesStrictest_max (given : List UInt32) :
    StatesStrictest (· ≥ ·) given given.max?.toList := by
  cases h : given.max? with
  | none =>
    rw [List.max?_eq_none_iff.1 h]
    exact .none
  | some n =>
    obtain ⟨hmem, hmost⟩ := List.max?_eq_some_iff.1 h
    exact .some hmem hmost

/-- **Each kind of rule counts by itself**: rules that agree kind by kind are merged into the same
policy, and a policy states the least maximal numbers and the greatest minimal length that are
given, each exactly if any is given. -/
theorem merge_separate_kinds (rules : List Rule) :
    (∀ rules', SameKinds rules rules' → merge minified rules = merge minified rules') ∧
      StatesStrictest (· ≤ ·) (numbersIn .maxConsecutive rules)
        (numbersIn .maxConsecutive (merge minified rules)) ∧
      StatesStrictest (· ≥ ·) (numbersIn .minLength rules)
        (numbersIn .minLength (merge minified rules)) ∧
      StatesStrictest (· ≤ ·) (numbersIn .maxLength rules)
        (numbersIn .maxLength (merge minified rules)) := by
  refine ⟨fun rules' h => merge_congr_collect minified (h.collect_eq minified), ?_, ?_, ?_⟩
  · rw [numbersIn_merge, if_neg (by decide)]
    exact statesStrictest_min _
  · rw [numbersIn_merge, if_neg (by decide)]
    exact statesStrictest_max _
  · rw [numbersIn_merge, if_neg (by decide)]
    exact statesStrictest_min _

/-- All kinds of rules mixed up, some of them more than once. -/
def interleavedRules : List Rule :=
  [.limit .maxLength 20, .classes .allowed [.basic .digit], .limit .minClasses 1,
    .classes .required [⟨.named (.basic .lower), some ⟨2, 4⟩⟩], .limit .maxLength 12,
    .blocklist ["hibp"], .classes .allowed [.custom ['-', '+']], .limit .minClasses 2,
    .classes .required [.basic .upper]]

/-- The same kinds of rules, one kind after the other. -/
def groupedRules : List Rule :=
  [.limit .minClasses 2, .limit .maxLength 12, .limit .maxLength 20,
    .classes .allowed [.basic .digit, .custom ['-', '+']],
    .classes .required [⟨.named (.basic .lower), some ⟨2, 4⟩⟩], .blocklist ["hibp"],
    .classes .required [.basic .upper]]

theorem interleavedRules_merge : SameKinds interleavedRules groupedRules ∧
    merge true interleavedRules = merge true groupedRules := by
  have hkinds : SameKinds interleavedRules groupedRules :=
    ⟨by decide, by decide, by decide, by decide, by decide, by decide⟩
  exact ⟨hkinds, (merge_separate_kinds true interleavedRules).1 groupedRules hkinds⟩

end PasswordPolicy
