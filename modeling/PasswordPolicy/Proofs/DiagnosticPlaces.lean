import PasswordPolicy.Proofs.DocumentEnding
import PasswordPolicy.Proofs.GrammarComplete

/-!
# Diagnostics point at what they talk about

**Places.** A diagnostic divides its document in two. What stands before it fixes its offset, its
line and its column (`Diagnostic.Follows`), and what it talks about stands at the front of the rest.

**What stands there** (`Problem.ShownBy`). That is the character complained of, the bracket or
parenthesis that opened something, or a whole name. Where other things were expected none of them
stands there, and where a number was, no number reaches to the end of its rule.

**Findings are founded** if their tails show their problems. Every reader notes a problem at a tail
that it has just looked at, so its findings are founded (`Reading.Founded`), and so are those of a
document, round by round.

Main result: `diagnostics_point_at_problems`, for every diagnostic of a report, whose list is what
was found in the document, ordered by place.
-/

namespace PasswordPolicy

open Text Grammar

/-! ## What stands at a place -/

/-- The name stands at the front of the text and does not go on there. -/
structure NameAt (name text : List Char) : Prop where
  nonempty : name ≠ []
  front : ∃ rest, text = name ++ rest ∧ ∀ c ∈ rest.head?, isIdentifierChar c = false

/-- What could be expected stands at the front of the text. -/
def Expected.StandsAt : Expected → List Char → Prop
  | endOfText, text => text = []
  | char c, text => text.head? = some c
  | number, text => ∃ c, text.head? = some c ∧ c.isDigit = true
  | ruleName, text | identifier, text => AtName text
  | classValue, text => AtName text ∨ text.head? = some '['

/-- A number stands at the front of the text, and its rule may end behind it. -/
def NumberAt (text : List Char) : Prop :=
  ∃ ds n rest, Numeral ds n ∧ Behind [';'] rest ∧ text = ds ++ rest

/-- The text from the place of the problem on shows the problem. -/
def Problem.ShownBy : Problem → List Char → Prop
  | expected items, text => ∀ item ∈ items, ¬item.StandsAt text
  | unknownRule name, text | unknownClass name, text | unknownBlocklist name, text =>
    NameAt name.toList text
  | malformedInteger, text => ¬NumberAt text
  | malformedRange, text | unterminatedRange, text => text.head? = some '('
  | misplacedDash, text => text.head? = some '-'
  | nonPrintable c, text => text.head? = some c
  | emptyCustomClass, text | unterminatedCustomClass, text => text.head? = some '['
  | emptyValue rule, text => NameAt rule.name.toList text

theorem atName_iff {text : List Char} {c : Char} (h : text.head? = some c) :
    AtName text ↔ isIdentifierChar c = true := by
  unfold AtName
  rw [h]
  simp

theorem nameAt_identifierOf {text : List Char} (h : identifierOf text ≠ []) :
    NameAt (identifierOf text) text := by
  refine ⟨h, afterIdentifier text, List.takeWhile_append_dropWhile.symm, fun c hc => ?_⟩
  have hnot := List.head?_dropWhile_not isIdentifierChar text
  rw [← afterIdentifier, hc] at hnot
  simpa using hnot

theorem Problem.unknown_shownBy {text : List Char} (h : identifierOf text ≠ []) :
    NameAt (String.ofList (identifierOf text)).toList text := by
  rw [String.toList_ofList]
  exact nameAt_identifierOf h

theorem Problem.identifier_shownBy {text : List Char} (h : identifierOf text = []) :
    (expected [.identifier]).ShownBy text := by
  simpa [ShownBy, Expected.StandsAt] using fun hname => identifierOf_ne_nil hname h

theorem Problem.classValue_shownBy {text : List Char}
    (h : ∀ c ∈ text.head?, isIdentifierChar c = false ∧ c ≠ '[') :
    (expected [.classValue]).ShownBy text := by
  simp only [ShownBy, List.forall_mem_singleton, Expected.StandsAt, not_or]
  constructor
  · rintro ⟨c, hc, hname⟩
    exact absurd hname (by simp [(h c hc).1])
  · exact fun hb => (h '[' hb).2 rfl

/-! ## Founded findings -/

def Finding.Founded (f : Finding) : Prop :=
  f.problem.ShownBy f.tail

/-- Every problem noted in the reading shows at its tail. -/
def Reading.Founded {α : Type} (r : Reading α) : Prop :=
  ∀ f ∈ r.findings, f.Founded

namespace Reading.Founded

variable {α β : Type} {r : Reading α} {value : α} {rest tail : List Char} {problem : Problem}

theorem ok : (Reading.ok value rest).Founded :=
  fun _ hf => absurd hf List.not_mem_nil

theorem stopped (h : problem.ShownBy tail) : (Reading.stopped problem tail : Reading α).Founded :=
  fun _ hf => List.mem_singleton.1 hf ▸ h

theorem abandoned (h : problem.ShownBy tail) :
    (Reading.abandoned problem tail : Reading α).Founded :=
  fun _ hf => List.mem_singleton.1 hf ▸ h

theorem noting (h : problem.ShownBy tail) (hr : r.Founded) : (r.noting problem tail).Founded :=
  List.forall_mem_cons.2 ⟨h, hr⟩

theorem bind {f : α → List Char → Reading β} (hr : r.Founded)
    (hf : ∀ value rest, r.outcome = .read value rest → (f value rest).Founded) :
    (r.bind f).Founded := by
  rcases r with ⟨fs, ⟨value, rest⟩ | _ | _⟩
  · exact List.forall_mem_append.2 ⟨hr, hf value rest rfl⟩
  · exact hr
  · exact hr

theorem map {f : α → β} (hr : r.Founded) : (r.map f).Founded :=
  hr.bind fun _ _ _ => .ok

end Reading.Founded

/-! ## Every reader -/

theorem readRange_founded (rest : List Char) : (readRange ('(' :: rest)).Founded := by
  unfold readRange
  split
  · split
    · exact .ok
    · exact .noting rfl .ok
  · exact .noting rfl .ok

theorem readOptionalRange_founded (text : List Char) : (readOptionalRange text).Founded := by
  unfold readOptionalRange
  split
  · exact readRange_founded _
  · exact .ok

theorem readMembers_founded {opening : List Char} (h : opening.head? = some '[')
    (inside : List Char) : (readMembers opening inside).Founded := by
  fun_induction readMembers opening inside with
  | case1 => exact .abandoned h
  | case2 | case3 => exact .ok
  | case4 rest _ _ _ ih => exact .noting rfl ih
  | case5 c rest _ _ _ _ _ ih => exact .map ih
  | case6 c rest _ _ _ _ _ ih => exact .noting rfl ih

theorem readBrackets_founded {opening : List Char} (h : opening.head? = some '[')
    (inside : List Char) : (readBrackets opening inside).Founded := by
  unfold readBrackets
  split
  · exact .map (readMembers_founded h _)
  · exact readMembers_founded h _

theorem readCustomClass_founded {text : List Char} (h : text.head? = some '[') :
    (readCustomClass text).Founded := by
  refine .bind (readBrackets_founded h _) fun cs rest _ => ?_
  refine .bind (readOptionalRange_founded rest) fun range rest _ => ?_
  split
  · exact .noting h .ok
  · exact .ok

theorem readNamedClass_founded {text : List Char} (h : AtName text) :
    (readNamedClass text).Founded := by
  refine .bind (readOptionalRange_founded _) fun range rest _ => ?_
  split
  · exact .ok
  · exact .noting (Problem.unknown_shownBy (identifierOf_ne_nil h)) .ok

theorem readClass_founded (text : List Char) : (readClass text).Founded := by
  unfold readClass
  split
  · next hnone => exact .abandoned (Problem.classValue_shownBy (by simp [hnone]))
  · next c hc =>
    split
    · next hname => exact readNamedClass_founded ⟨c, hc, hname⟩
    · next hname =>
      split
      · next hb => exact readCustomClass_founded (hc.trans (congrArg some hb))
      · next hb => exact .abandoned (Problem.classValue_shownBy (by simp [hc, hname, hb]))

theorem readClassList_founded (text : List Char) : (readClassList text).Founded := by
  induction text using separator_induction with
  | step text ih =>
    rw [readClassList_eq]
    refine .bind (readClass_founded text) fun found rest ho => ?_
    split
    · exact .ok
    · next c more hm =>
      split
      · exact .ok
      · next hsemicolon =>
        split
        · exact .map (ih rest c more ((readClass_within text).rest _ _ ho) hm)
        · next hcomma =>
          refine .abandoned ?_
          simp [Problem.ShownBy, Expected.StandsAt, hsemicolon, hcomma]

/-- A number that its rule may end behind is read without a complaint. -/
theorem readNumber_of_numberAt {text : List Char} (h : NumberAt text) :
    (readNumber text).findings = [] := by
  obtain ⟨ds, n, rest, hds, hrest, rfl⟩ := h
  rw [hds.read hrest]
  rfl

theorem readNumber_founded (text : List Char) : (readNumber text).Founded := by
  by_cases h : NumberAt text
  · simp [Reading.Founded, readNumber_of_numberAt h]
  · dsimp only [readNumber]
    split
    · split
      · exact .ok
      · exact .noting h .ok
    · exact .noting h .ok

theorem readBlocklist_founded (words : List String) (text : List Char) :
    (readBlocklist words text).Founded := by
  dsimp only [readBlocklist]
  split
  · next hnone => exact .abandoned (Problem.identifier_shownBy hnone)
  · next hname =>
    split
    · exact .ok
    · split
      · exact .ok
      · exact .noting (Problem.unknown_shownBy hname) .ok

theorem readValue_founded (words : List String) (name : RuleName) (text : List Char) :
    (readValue words name text).Founded := by
  cases name with
  | classes role => exact .map (readClassList_founded text)
  | limit l => exact .map (readNumber_founded text)
  | blocklist => exact .map (readBlocklist_founded words text)

theorem readRule_founded (words : List String) (text : List Char) :
    (readRule words text).Founded := by
  dsimp only [readRule]
  split
  · next hnone => exact .stopped (Problem.identifier_shownBy hnone)
  · next hname =>
    split
    · exact .stopped (Problem.unknown_shownBy hname)
    · next name hrule =>
      split
      · split
        · refine .noting ?_ .ok
          show NameAt name.name.toList text
          rw [← RuleName.eq_of_ofName? hrule]
          exact nameAt_identifierOf hname
        · exact readValue_founded words _ _
      · next hcolon =>
        refine .stopped ?_
        simpa [Problem.ShownBy, Expected.StandsAt, List.head?_eq_some_iff] using hcolon

/-! ## Documents -/

theorem founded_of_readRule {words : List String} {text : List Char} {fs : List Finding}
    {outcome : Outcome (Option Rule)} (h : readRule words text = ⟨fs, outcome⟩) :
    ∀ f ∈ fs, f.Founded := by
  have hfounded := readRule_founded words text
  rw [h] at hfounded
  exact hfounded

theorem Round.founded {words : List String} {text next : List Char} {fs : List Finding}
    {rule : Option Rule} (h : Round words text fs rule next) : ∀ f ∈ fs, f.Founded := by
  obtain ⟨-, rest, hread, -⟩ := h
  exact founded_of_readRule hread

/-- Whatever is found in a document shows at its tail. -/
theorem Drafts.founded {words : List String} {text : List Char} {d : Draft}
    (h : Drafts words text d) : ∀ f ∈ d.findings, f.Founded := by
  induction h with
  | nothing => exact List.forall_mem_nil _
  | noName hc =>
    refine List.forall_mem_singleton.2 ?_
    simp [Finding.Founded, Problem.ShownBy, Expected.StandsAt, atName_iff, hc]
  | stop _ hread | abandon _ hread => exact founded_of_readRule hread
  | last hround => exact hround.founded
  | unseparated hround hc =>
    refine List.forall_mem_append.2 ⟨hround.founded, List.forall_mem_singleton.2 ?_⟩
    simp [Finding.Founded, Problem.ShownBy, Expected.StandsAt, hc]
  | next hround _ ih => exact List.forall_mem_append.2 ⟨hround.founded, ih⟩

/-! ## Lines and columns -/

/-- The offset, line and column of the diagnostic are those of the place behind the text: its bytes,
its line feeds, and its characters since the last of them. -/
structure Diagnostic.Follows (before : String) (d : Diagnostic) : Prop where
  index : d.index = before.utf8ByteSize
  line : d.line = min (1 + before.toList.count '\n') (UInt32.size - 1)
  column : ∃ lines current : String, before = lines ++ current ∧
    (lines = "" ∨ ∃ earlier, lines = earlier ++ "\n") ∧ '\n' ∉ current.toList ∧
    d.column = min (1 + current.length) (UInt32.size - 1)

/-- A text ends with its current line. -/
theorem exists_currentLine (before : List Char) : ∃ lines current, before = lines ++ current ∧
    (lines = [] ∨ ∃ earlier, lines = earlier ++ ['\n']) ∧ '\n' ∉ current := by
  by_cases h : '\n' ∈ before
  · obtain ⟨current, earlier, hsplit, hcurrent⟩ :=
      List.eq_append_cons_of_mem (List.mem_reverse.2 h)
    refine ⟨earlier.reverse ++ ['\n'], current.reverse, ?_, .inr ⟨_, rfl⟩, by simpa⟩
    rw [← before.reverse_reverse, hsplit]
    simp
  · exact ⟨[], before, rfl, .inl rfl, h⟩

theorem columnAfter_lines {lines current : List Char}
    (hlines : lines = [] ∨ ∃ earlier, lines = earlier ++ ['\n']) (hcurrent : '\n' ∉ current) :
    columnAfter (lines ++ current) = ordinal current.length := by
  have hplain : ∀ c ∈ current.reverse, decide (c ≠ '\n') = true := fun c hc =>
    decide_eq_true fun heq => hcurrent (heq ▸ List.mem_reverse.1 hc)
  have hfeed : ∀ c more, lines.reverse = c :: more → decide (c ≠ '\n') = false := by
    intro c more hc
    rcases hlines with rfl | ⟨earlier, rfl⟩
    · cases hc
    · rw [List.reverse_concat] at hc
      cases hc
      rfl
  rw [columnAfter, List.reverse_append, takeWhile_run hplain hfeed, List.length_reverse]

theorem Finding.locate_follows (before : List Char) (f : Finding) :
    (f.locate (before ++ f.tail)).Follows (String.ofList before) := by
  have hbefore := textBefore_append before f.tail
  obtain ⟨lines, current, hsplit, hlines, hcurrent⟩ := exists_currentLine before
  refine ⟨?_, ?_, String.ofList lines, String.ofList current, ?_, ?_, ?_, ?_⟩
  · rw [utf8ByteSize_ofList, Finding.locate, hbefore]
  · rw [String.toList_ofList, Finding.locate, hbefore, lineAfter, ordinal, Nat.add_comm]
  · rw [hsplit, String.ofList_append]
  · rcases hlines with rfl | ⟨earlier, rfl⟩
    · exact .inl rfl
    · exact .inr ⟨String.ofList earlier, String.ofList_append⟩
  · rwa [String.toList_ofList]
  · rw [String.length_ofList, Finding.locate, hbefore, hsplit, columnAfter_lines hlines hcurrent,
      ordinal, Nat.add_comm]

/-! ## Reports -/

/-- The second list holds the diagnostics of the first ordered by place; those at one place stand in
the order in which they came up. -/
structure OrderedByPlace (emitted listed : List Diagnostic) : Prop where
  perm : listed.Perm emitted
  ordered : listed.Pairwise (·.index ≤ ·.index)
  stable : ∀ i, listed.filter (·.index = i) = emitted.filter (·.index = i)

theorem orderedByPlace_mergeSort (ds : List Diagnostic) :
    OrderedByPlace ds (ds.mergeSort (·.index ≤ ·.index)) := by
  have htrans : ∀ a b c : Diagnostic, decide (a.index ≤ b.index) = true →
      decide (b.index ≤ c.index) = true → decide (a.index ≤ c.index) = true := by
    simp only [decide_eq_true_eq]
    exact fun _ _ _ => Nat.le_trans
  have htotal : ∀ a b : Diagnostic,
      (decide (a.index ≤ b.index) || decide (b.index ≤ a.index)) = true := by
    simp only [Bool.or_eq_true, decide_eq_true_eq]
    exact fun a b => Nat.le_total a.index b.index
  have hperm := List.mergeSort_perm ds (·.index ≤ ·.index)
  refine ⟨hperm, ?_, fun i => ?_⟩
  · simpa using List.pairwise_mergeSort htrans htotal ds
  · -- What stands at one place is in order already, so sorting keeps it as it stands.
    have hplace : (ds.filter (·.index = i)).Pairwise fun a b => decide (a.index ≤ b.index) := by
      refine List.pairwise_of_forall_mem_list fun a ha b hb => decide_eq_true ?_
      have hai : a.index = i := by simpa using (List.mem_filter.1 ha).2
      have hbi : b.index = i := by simpa using (List.mem_filter.1 hb).2
      exact Nat.le_of_eq (hai.trans hbi.symm)
    have hsublist := (List.sublist_mergeSort htrans htotal hplace List.filter_sublist).filter
      (·.index = i)
    simp only [List.filter_filter, Bool.and_self] at hsublist
    exact (hsublist.eq_of_length ((hperm.filter _).length_eq.symm)).symm

/-- **Diagnostics point at what they talk about.** The index of a diagnostic is the number of bytes
in front of its place, which lies between two characters; its line and column count the line feeds
up to there and the characters since. What it talks about stands at its place. A report lists what
was found in the document by place, and in the order in which it came up. -/
theorem diagnostics_point_at_problems (words : List String) (minified : Bool) (text : String) :
    (∀ d ∈ (Report.ofText words minified text).diagnostics,
      (String.Pos.Raw.mk d.index).IsValid text ∧ ∃ before tail : String,
        text = before ++ tail ∧ d.Follows before ∧ d.problem.ShownBy tail.toList) ∧
    OrderedByPlace (diagnosticsOf text.toList (readDocument words text.toList))
      (Report.ofText words minified text).diagnostics := by
  have hordered := orderedByPlace_mergeSort
    (diagnosticsOf text.toList (readDocument words text.toList))
  refine ⟨fun d hd => ?_, hordered⟩
  obtain ⟨f, hf, rfl⟩ := List.mem_map.1 (hordered.perm.mem_iff.1 hd)
  obtain ⟨before, htext⟩ := suffix_of_mem_readDocument words text.toList f hf
  have hsplit : text = String.ofList before ++ String.ofList f.tail := by
    rw [← String.ofList_append, htext, String.ofList_toList]
  have hfollows : (f.locate text.toList).Follows (String.ofList before) :=
    htext ▸ f.locate_follows before
  refine ⟨?_, String.ofList before, String.ofList f.tail, hsplit, hfollows, ?_⟩
  · rw [String.Pos.Raw.isValid_iff_exists_append, hfollows.index]
    exact ⟨_, _, hsplit, rfl⟩
  · rw [String.toList_ofList]
    exact (drafts_readRules words _).founded f hf

end PasswordPolicy
