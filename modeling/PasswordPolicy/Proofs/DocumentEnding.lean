import PasswordPolicy.Proofs.DocumentRun
import PasswordPolicy.Report

/-!
# The diagnostics tell how a document ended

**Fates.** Some problems end a document: at some of them the reader stops and keeps what it has
read, at others it gives up the whole document. At all others it goes on (`Problem.fate`).

**Nothing follows the end.** Every reader notes a problem that ends the document last, and only if
it does not go on (`Reading.Tells`), and so the last finding of a document tells its ending.

Main result: `diagnostics_tell_ending`, for the diagnostics in the order in which they came up, for
reports and for strict readers.
-/

namespace PasswordPolicy

open Text

/-! ## Fates -/

/-- What the problem does to a document: it goes on being read, it ends there, or it is given up. -/
def Problem.fate : Problem → Ending
  | expected [.ruleName] | expected [.char ':'] | unknownRule _ => .stopped
  | expected [.classValue] | expected [.char ',', .char ';', .endOfText]
  | expected [.char ';', .endOfText] | expected [.identifier] | unterminatedCustomClass =>
    .abandoned
  | _ => .complete

theorem Problem.severity_of_fate {problem : Problem} (h : problem.fate ≠ .complete) :
    problem.severity = .error := by
  cases problem with
  | expected | unknownRule | unterminatedCustomClass => rfl
  | unknownClass | unknownBlocklist | malformedInteger => rfl
  | malformedRange | unterminatedRange | misplacedDash => exact absurd rfl h
  | nonPrintable | emptyCustomClass | emptyValue => exact absurd rfl h

/-- The problems of findings at which a document goes on. -/
def Harmless (fs : List Finding) : Prop :=
  ∀ f ∈ fs, f.problem.fate = .complete

/-- Only the last finding may end the document, and it does so in the way of `ending`. -/
inductive TellsEnding : List Finding → Ending → Prop
  | complete {fs : List Finding} : Harmless fs → TellsEnding fs .complete
  | ended {fs : List Finding} {f : Finding} : Harmless fs → f.problem.fate ≠ .complete →
      TellsEnding (fs ++ [f]) f.problem.fate

theorem Harmless.append {fs gs : List Finding} (hf : Harmless fs) (hg : Harmless gs) :
    Harmless (fs ++ gs) :=
  List.forall_mem_append.2 ⟨hf, hg⟩

theorem TellsEnding.harmless {fs : List Finding} (h : TellsEnding fs .complete) : Harmless fs := by
  generalize he : Ending.complete = ending at h
  cases h with
  | complete hfs => exact hfs
  | ended _ hf => exact absurd he.symm hf

theorem TellsEnding.after {fs gs : List Finding} {ending : Ending} (hg : TellsEnding gs ending)
    (hf : Harmless fs) : TellsEnding (fs ++ gs) ending := by
  cases hg with
  | complete hgs => exact .complete (hf.append hgs)
  | ended hgs hne =>
    rw [← List.append_assoc]
    exact .ended (hf.append hgs) hne

theorem harmless_nil : Harmless [] := by simp [Harmless]

theorem TellsEnding.single {f : Finding} {ending : Ending} (h : f.problem.fate = ending)
    (hne : ending ≠ .complete) : TellsEnding [f] ending := by
  subst h
  exact .ended harmless_nil hne

theorem TellsEnding.exists_last {fs : List Finding} {ending : Ending} (h : TellsEnding fs ending) :
    ∃ (harmless : List Finding) (last : Option Finding), fs = harmless ++ last.toList ∧
      Harmless harmless ∧ (∀ f ∈ last, f.problem.fate ≠ .complete) ∧
      ending = last.elim .complete (·.problem.fate) := by
  cases h with
  | complete hfs => exact ⟨fs, none, (List.append_nil fs).symm, hfs, by simp, rfl⟩
  | @ended gs f hgs hne => exact ⟨gs, some f, rfl, hgs, by simpa using hne, rfl⟩

/-- A document ends in some way exactly if there is a finding that does this to it. -/
theorem TellsEnding.exists_fate_iff {fs : List Finding} {ending e : Ending}
    (h : TellsEnding fs ending) (he : e ≠ .complete) :
    (∃ f ∈ fs, f.problem.fate = e) ↔ ending = e := by
  have hnone : ∀ gs, Harmless gs → ¬∃ f ∈ gs, f.problem.fate = e := by
    rintro gs hgs ⟨f, hf, hfate⟩
    exact he (hfate.symm.trans (hgs f hf))
  cases h with
  | complete hfs => exact iff_of_false (hnone _ hfs) fun heq => he heq.symm
  | @ended gs f hgs hne =>
    constructor
    · rintro ⟨g, hg, hfate⟩
      rcases List.mem_append.1 hg with hg | hg
      · exact absurd ⟨g, hg, hfate⟩ (hnone gs hgs)
      · rw [← List.mem_singleton.1 hg]
        exact hfate
    · exact fun heq => ⟨f, List.mem_append_right gs (List.mem_singleton_self f), heq⟩

/-! ## Readings -/

def Outcome.ending {α : Type} : Outcome α → Ending
  | read _ _ => .complete
  | stop => .stopped
  | abandon => .abandoned

/-- The findings of the reading tell whether and how it ended the document. -/
def Reading.Tells {α : Type} (r : Reading α) : Prop :=
  TellsEnding r.findings r.outcome.ending

namespace Reading.Tells

variable {α β : Type} {r : Reading α} {value : α} {rest tail : List Char} {problem : Problem}

theorem ok : (Reading.ok value rest).Tells :=
  .complete harmless_nil

theorem stopped (h : problem.fate = .stopped) : (Reading.stopped problem tail : Reading α).Tells :=
  .single h nofun

theorem abandoned (h : problem.fate = .abandoned) :
    (Reading.abandoned problem tail : Reading α).Tells :=
  .single h nofun

theorem noting (h : problem.fate = .complete) (hr : r.Tells) : (r.noting problem tail).Tells := by
  have hfirst : Harmless [⟨problem, tail⟩] := by simpa [Harmless] using h
  exact hr.after hfirst

theorem bind {f : α → List Char → Reading β} (hr : r.Tells)
    (hf : ∀ value rest, r.outcome = .read value rest → (f value rest).Tells) :
    (r.bind f).Tells := by
  rcases r with ⟨fs, ⟨value, rest⟩ | _ | _⟩
  · exact TellsEnding.after (hf value rest rfl) (TellsEnding.harmless hr)
  · exact hr
  · exact hr

theorem map {f : α → β} (hr : r.Tells) : (r.map f).Tells :=
  hr.bind fun _ _ _ => .ok

end Reading.Tells

/-! ## Every reader -/

theorem readRange_tells (text : List Char) : (readRange text).Tells := by
  unfold readRange
  split
  · split
    · exact .ok
    · exact .noting rfl .ok
  · exact .noting rfl .ok

theorem readOptionalRange_tells (text : List Char) : (readOptionalRange text).Tells := by
  unfold readOptionalRange
  split
  · exact readRange_tells _
  · exact .ok

theorem readMembers_tells (opening inside : List Char) : (readMembers opening inside).Tells := by
  fun_induction readMembers opening inside with
  | case1 => exact .abandoned rfl
  | case2 | case3 => exact .ok
  | case4 rest _ _ _ ih => exact .noting rfl ih
  | case5 c rest _ _ _ _ _ ih => exact .map ih
  | case6 c rest _ _ _ _ _ ih => exact .noting rfl ih

theorem readBrackets_tells (opening inside : List Char) : (readBrackets opening inside).Tells := by
  unfold readBrackets
  split
  · exact .map (readMembers_tells _ _)
  · exact readMembers_tells _ _

theorem readClass_tells (text : List Char) : (readClass text).Tells := by
  unfold readClass
  split
  · exact .abandoned rfl
  · split
    · refine .bind (readOptionalRange_tells _) fun range rest _ => ?_
      split
      · exact .ok
      · exact .noting rfl .ok
    · split
      · refine .bind (readBrackets_tells _ _) fun cs rest _ => ?_
        refine .bind (readOptionalRange_tells _) fun range rest _ => ?_
        split
        · exact .noting rfl .ok
        · exact .ok
      · exact .abandoned rfl

theorem readClassList_tells (text : List Char) : (readClassList text).Tells := by
  induction text using separator_induction with
  | step text ih =>
    rw [readClassList_eq]
    refine .bind (readClass_tells text) fun found rest ho => ?_
    split
    · exact .ok
    · next c more hm =>
      split
      · exact .ok
      · split
        · exact .map (ih rest c more ((readClass_within text).rest _ _ ho) hm)
        · exact .abandoned rfl

theorem readNumber_tells (text : List Char) : (readNumber text).Tells := by
  dsimp only [readNumber]
  split
  · split
    · exact .ok
    · exact .noting rfl .ok
  · exact .noting rfl .ok

theorem readBlocklist_tells (words : List String) (text : List Char) :
    (readBlocklist words text).Tells := by
  dsimp only [readBlocklist]
  split
  · exact .abandoned rfl
  · split
    · exact .ok
    · split
      · exact .ok
      · exact .noting rfl .ok

theorem readValue_tells (words : List String) (name : RuleName) (text : List Char) :
    (readValue words name text).Tells := by
  cases name with
  | classes role => exact .map (readClassList_tells text)
  | limit l => exact .map (readNumber_tells text)
  | blocklist => exact .map (readBlocklist_tells words text)

theorem identifierOf_ne_nil {text : List Char} (h : AtName text) : identifierOf text ≠ [] := by
  obtain ⟨c, hh, hc⟩ := h
  obtain ⟨more, rfl⟩ := List.head?_eq_some_iff.1 hh
  rw [identifierOf, List.takeWhile_cons_of_pos hc]
  exact List.cons_ne_nil _ _

/-- The name of a rule is never missing where one begins. -/
theorem readRule_tells {words : List String} {text : List Char} (h : AtName text) :
    (readRule words text).Tells := by
  dsimp only [readRule]
  rw [if_neg (identifierOf_ne_nil h)]
  split
  · exact .stopped rfl
  · split
    · split
      · exact .noting rfl .ok
      · exact readValue_tells words _ _
    · exact .stopped rfl

theorem AtName.tellsEnding {words : List String} {text : List Char} {fs : List Finding}
    {outcome : Outcome (Option Rule)} (h : AtName text)
    (hread : readRule words text = ⟨fs, outcome⟩) : TellsEnding fs outcome.ending := by
  have htells : (readRule words text).Tells := readRule_tells h
  rw [hread] at htells
  exact htells

theorem Round.harmless {words : List String} {text next : List Char} {fs : List Finding}
    {rule : Option Rule} (h : Round words text fs rule next) : Harmless fs := by
  obtain ⟨hname, rest, hread, -⟩ := h
  exact (hname.tellsEnding hread).harmless

/-! ## Documents -/

/-- The findings of a document tell how it ended. -/
theorem readRules_tellsEnding (words : List String) (text : List Char) :
    TellsEnding (readRules words text).findings (readRules words text).ending := by
  have hdrafts := drafts_readRules words text
  generalize readRules words text = d at hdrafts
  induction hdrafts with
  | nothing => exact .complete harmless_nil
  | noName => exact .single rfl nofun
  | stop hname hread | abandon hname hread => exact hname.tellsEnding hread
  | last hround => exact .complete hround.harmless
  | unseparated hround => exact .after (.single rfl nofun) hround.harmless
  | next hround _ ih => exact ih.after hround.harmless

theorem merge_ne_nil (minified : Bool) (rules : List Rule) : merge minified rules ≠ [] :=
  List.append_ne_nil_of_right_ne_nil _ (List.cons_ne_nil _ _)

theorem rules?_eq_none_iff {d : Draft} : d.rules? = none ↔ d.ending = .abandoned := by
  unfold Draft.rules?
  split
  · next h => exact ⟨fun _ => h, fun _ => rfl⟩
  · next h => exact ⟨fun hnone => (nomatch hnone), fun habandoned => absurd habandoned h⟩

theorem policy_eq_nil_iff {minified : Bool} {d : Draft} :
    d.policy minified = [] ↔ d.ending = .abandoned := by
  rw [← rules?_eq_none_iff]
  unfold Draft.policy
  cases d.rules? with
  | none => exact ⟨fun _ => rfl, fun _ => rfl⟩
  | some rules => exact ⟨fun h => absurd h (merge_ne_nil minified rules), fun h => (nomatch h)⟩

/-! ## Diagnostics -/

section Diagnostics

variable {words : List String} {minified : Bool} {text : String} {e : Ending}

theorem exists_diagnostic_fate_iff (he : e ≠ .complete) :
    (∃ d ∈ (Report.ofText words minified text).diagnostics, d.problem.fate = e) ↔
      (readDocument words text.toList).ending = e := by
  have htells := readRules_tellsEnding words (skipSpacing text.toList)
  rw [← readDocument] at htells
  rw [← htells.exists_fate_iff he]
  unfold Report.ofText diagnosticsOf
  simp only [List.mem_mergeSort, List.mem_map]
  constructor
  · rintro ⟨d, ⟨f, hf, rfl⟩, hfate⟩
    exact ⟨f, hf, hfate⟩
  · rintro ⟨f, hf, hfate⟩
    exact ⟨_, ⟨f, hf, rfl⟩, hfate⟩

/-- Every diagnostic of a report was found in the document, with the severity of its problem. -/
theorem severity_of_mem_report {d : Diagnostic}
    (h : d ∈ (Report.ofText words minified text).diagnostics) :
    d.severity = d.problem.severity := by
  unfold Report.ofText diagnosticsOf at h
  simp only [List.mem_mergeSort, List.mem_map] at h
  obtain ⟨f, -, rfl⟩ := h
  rfl

theorem readThrough_of_strict {rules : List Rule}
    (h : (Report.ofText words minified text).strict = .ok rules) :
    ReadThrough words (skipSpacing text.toList) ∧ rules ≠ [] := by
  unfold Report.strict at h
  split at h
  · cases h
  · next hclean =>
    have hcomplete : (readDocument words text.toList).ending = .complete := by
      refine Classical.byContradiction fun hne => hclean ?_
      obtain ⟨d, hd, hfate⟩ := (exists_diagnostic_fate_iff hne).2 rfl
      have herror : d.severity = .error :=
        (severity_of_mem_report hd).trans (Problem.severity_of_fate (hfate ▸ hne))
      exact List.any_eq_true.2 ⟨d, hd, by simp [Diagnostic.isError, herror]⟩
    cases h
    refine ⟨(ending_eq_complete_iff words _).1 hcomplete, fun hnil => ?_⟩
    have habandoned := policy_eq_nil_iff.1 hnil
    rw [hcomplete] at habandoned
    cases habandoned

end Diagnostics

/-- **The diagnostics tell how a document ended.** At most one of them ends the document; it is an
error and comes up last. The document states no rules exactly if that one gives it up, and without
it everything was read. So a report is empty exactly if a diagnostic gives the document up, and a
strict reader accepts a document only if it was read to its end, and then as a policy with rules. -/
theorem diagnostics_tell_ending (words : List String) (minified : Bool) (text : String) :
    (∃ (harmless : List Diagnostic) (last : Option Diagnostic),
        diagnosticsOf text.toList (readDocument words text.toList) = harmless ++ last.toList ∧
        (∀ d ∈ harmless, d.problem.fate = .complete) ∧
        (∀ d ∈ last, d.problem.fate ≠ .complete ∧ d.severity = .error) ∧
        ((readDocument words text.toList).rules? = none ↔
          ∃ d ∈ last, d.problem.fate = .abandoned) ∧
        (last = none ↔ ReadThrough words (skipSpacing text.toList))) ∧
      ((Report.ofText words minified text).rules = [] ↔
        ∃ d ∈ (Report.ofText words minified text).diagnostics, d.problem.fate = .abandoned) ∧
      ∀ rules, (Report.ofText words minified text).strict = .ok rules →
        ReadThrough words (skipSpacing text.toList) ∧ rules ≠ [] := by
  refine ⟨?_, ?_, fun rules h => readThrough_of_strict h⟩
  · obtain ⟨harmless, last, hfindings, hharmless, hlast, hending⟩ :=
      (readRules_tellsEnding words (skipSpacing text.toList)).exists_last
    have hthrough := ending_eq_complete_iff words (skipSpacing text.toList)
    rw [hending] at hthrough
    rw [rules?_eq_none_iff, diagnosticsOf, readDocument, hfindings, hending, List.map_append,
      ← hthrough]
    refine ⟨harmless.map (·.locate text.toList), last.map (·.locate text.toList), ?_, ?_, ?_⟩
    · cases last <;> rfl
    · intro d hd
      obtain ⟨f, hf, rfl⟩ := List.mem_map.1 hd
      exact hharmless f hf
    · cases last with
      | none => simp
      | some f =>
        have hne := hlast f rfl
        simpa [Finding.locate, hne] using Problem.severity_of_fate hne
  · exact policy_eq_nil_iff.trans (exists_diagnostic_fate_iff (by decide)).symm

end PasswordPolicy
