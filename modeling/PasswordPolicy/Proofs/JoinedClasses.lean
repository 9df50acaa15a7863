import PasswordPolicy.Proofs.MovedPlaces

/-!
# Classes joined by commas

**Runs.** A list of classes that is read to the end of its text is read class by class, and after
every class but the last there is a comma (`ListRun`). A run in front of a comma goes on with
whatever run there is behind it, unless one of its ranges is open (`ListRun.append`).

**Parts.** A text of parts is read one by one: no part knows of the others, though commas also stand
inside brackets and ranges, and though a class is looked over for a range behind it.

Main result: `readClassList_joined`, what is found in one part does not affect another.
-/

namespace PasswordPolicy

open Text Grammar

/-! ## Runs -/

/-- The list is read to the end of the text, with these findings and these classes. -/
inductive ListRun : List Char → List Finding → List CharClass → Prop
  | last {text rest : List Char} {found : Option CharClass} :
      (readClass text).outcome = .read found rest → skipSpacing rest = [] →
      ListRun text (readClass text).findings found.toList
  | next {text rest more : List Char} {fs : List Finding} {found : Option CharClass}
      {cs : List CharClass} :
      (readClass text).outcome = .read found rest → skipSpacing rest = ',' :: more →
      ListRun (skipSpacing more) fs cs →
      ListRun text ((readClass text).findings ++ fs) (found.toList ++ cs)

theorem ListRun.read {text : List Char} {fs : List Finding} {cs : List CharClass}
    (h : ListRun text fs cs) : readClassList text = ⟨fs, .read cs []⟩ := by
  induction h with
  | last hread hend =>
    rw [readClassList_eq]
    simp [Reading.bind, hread, hend, Reading.ok]
  | next hread hcomma _ ih =>
    rw [readClassList_eq]
    simp [Reading.bind, hread, hcomma, ih, Reading.map, Reading.ok]

/-- A composition reads something only if its parts do. -/
theorem Reading.read_of_bind {α β : Type} {r : Reading α} {f : α → List Char → Reading β} {b : β}
    {left : List Char} (h : (r.bind f).outcome = .read b left) :
    ∃ a rest next, r.outcome = .read a rest ∧ f a rest = next ∧ next.outcome = .read b left ∧
      (r.bind f).findings = r.findings ++ next.findings := by
  rcases r with ⟨fs, ⟨a, rest⟩ | _ | _⟩
  · exact ⟨a, rest, _, rfl, rfl, h, rfl⟩
  · cases h
  · cases h

theorem listRun_of_read {text : List Char} {cs : List CharClass}
    (h : (readClassList text).outcome = .read cs []) :
    ListRun text (readClassList text).findings cs := by
  induction text using separator_induction generalizing cs with
  | step text ih =>
    rw [readClassList_eq] at h ⊢
    obtain ⟨found, rest, next, hread, hnext, ho, hfindings⟩ := Reading.read_of_bind h
    rw [hfindings]
    split at hnext
    · next hend =>
      subst hnext
      cases ho
      rw [Reading.ok, List.append_nil]
      exact .last hread hend
    · next c more hmore =>
      split at hnext
      · -- A semicolon would be left over.
        subst hnext
        cases ho
      · split at hnext
        · next hcomma =>
          subst hnext hcomma
          obtain ⟨others, left, _, hothers, rfl, hend, hmap⟩ := Reading.read_of_bind ho
          cases hend
          rw [Reading.map, hmap, Reading.ok, List.append_nil]
          have hwithin := (readClass_within text).rest found rest hread
          exact .next hread hmore (ih rest _ more hwithin hmore hothers)
        · subst hnext
          cases ho

theorem ListRun.begins {text : List Char} {fs : List Finding} {cs : List CharClass}
    (h : ListRun text fs cs) : Begins text := by
  have hread : ∃ found rest, (readClass text).outcome = .read found rest := by
    cases h with
    | last hread => exact ⟨_, _, hread⟩
    | next hread => exact ⟨_, _, hread⟩
  obtain ⟨found, rest, hread⟩ := hread
  cases text with
  | nil => cases hread
  | cons c more =>
    refine ⟨c, more, rfl, ?_⟩
    by_cases hc : isIdentifierChar c = true
    · exact ⟨not_spacing_of_identifierChar hc, by rintro rfl; cases hc⟩
    · by_cases hbracket : c = '['
      · subst hbracket
        decide
      · simp [readClass, hc, hbracket, Reading.abandoned] at hread

/-- **A run goes on behind a comma**, and spacing around it does not matter. -/
theorem ListRun.append {first second s s' : List Char} {fs gs : List Finding}
    {cs ds : List CharClass} (hfirst : ListRun first fs cs) (hs : Spacing s) (hs' : Spacing s')
    (hclosed : ∀ f ∈ fs, f.problem ≠ .unterminatedRange) (hsecond : ListRun second gs ds) :
    ListRun (first ++ (s ++ ',' :: (s' ++ second)))
      (fs.map (·.extend (s ++ ',' :: (s' ++ second))) ++ gs) (cs ++ ds) := by
  have hcomma : skipSpacing (s ++ ',' :: (s' ++ second)) = ',' :: (s' ++ second) := by
    rw [skipSpacing_append hs]
    exact skipSpacing_cons rfl _
  have hskip : skipSpacing (s' ++ second) = second := by
    simpa using hsecond.begins.skipSpacing_eq hs' []
  generalize s ++ ',' :: (s' ++ second) = behind at hcomma ⊢
  have hb : Behind [',', ';'] behind := by
    intro c more hm
    rw [hcomma] at hm
    cases hm
    decide
  -- Each class is read as before, as it does not reach the comma.
  have hclass : ∀ {text rest found}, (readClass text).outcome = .read found rest →
      (∀ f ∈ (readClass text).findings, f.problem ≠ .unterminatedRange) →
      readClass (text ++ behind) =
        ⟨(readClass text).findings.map (·.extend behind), .read found (rest ++ behind)⟩ :=
    fun hread hclosed => readClass_carriesOver hb _ _ _ hread (.inr hclosed)
  induction hfirst with
  | @last text rest found hread hend =>
    have hrest : skipSpacing (rest ++ behind) = ',' :: (s' ++ second) := by
      rw [skipSpacing_append (List.dropWhile_eq_nil_iff.1 hend), hcomma]
    have hrun := ListRun.next (by rw [hclass hread hclosed]) hrest (hskip.symm ▸ hsecond)
    rwa [hclass hread hclosed] at hrun
  | @next text rest more fs found cs hread hmore hrun ih =>
    obtain ⟨hclosed₁, hclosed₂⟩ := List.forall_mem_append.1 hclosed
    have hrest := skipSpacing_append_of_cons hmore behind
    -- What is behind the inner comma is not all spacing, so no spacing is skipped at its end.
    obtain ⟨c, u, hbegin, -⟩ := hrun.begins
    have hgoes : skipSpacing (more ++ behind) = skipSpacing more ++ behind := by
      rw [skipSpacing_append_of_cons hbegin, hbegin, List.cons_append]
    have hrun := ListRun.next (by rw [hclass hread hclosed₁]) hrest (hgoes ▸ ih hclosed₂)
    rw [hclass hread hclosed₁] at hrun
    rwa [List.map_append, List.append_assoc, List.append_assoc]

/-! ## Parts -/

/-- A value that is read to its end by itself, and what stands in front of it in a longer text. -/
structure ListPart where
  front : List Char
  value : List Char
  classes : List CharClass
  read : (readClassList value).outcome = .read classes []

/-- What is found in the value when it is read by itself. -/
def ListPart.findings (part : ListPart) : List Finding :=
  (readClassList part.value).findings

/-- What is found in the value, at its places in the longer text. -/
def ListPart.diagnostics (part : ListPart) : List Diagnostic :=
  part.findings.map fun f => (f.locate part.value).behind part.front

/-- The text is the values of the parts with commas between them, and with any spacing around the
commas. -/
inductive JoinedByCommas : List Char → List ListPart → Prop
  | one {part : ListPart} : part.front = [] → JoinedByCommas part.value [part]
  | next {text s s' : List Char} {parts : List ListPart} {part : ListPart} :
      JoinedByCommas text parts → Spacing s → Spacing s' → part.front = text ++ s ++ ',' :: s' →
      JoinedByCommas (part.front ++ part.value) (parts ++ [part])

theorem ListPart.diagnostics_eq (part : ListPart) :
    part.diagnostics = part.findings.map (·.locate (part.front ++ part.value)) := by
  refine List.map_congr_left fun f hf => (Finding.locate_append part.front ?_).symm
  exact (readClassList_within part.value).findings f hf

theorem ListPart.run (part : ListPart) : ListRun part.value part.findings part.classes :=
  listRun_of_read part.read

/-- Parts are read in one run, up to the last one even if its last range is open. -/
theorem JoinedByCommas.run {text : List Char} {parts : List ListPart}
    (h : JoinedByCommas text parts)
    (hclosed : ∀ part ∈ parts.dropLast, ∀ f ∈ part.findings, f.problem ≠ .unterminatedRange) :
    ∃ fs, ListRun text fs (parts.flatMap ListPart.classes) ∧
      fs.map (·.locate text) = parts.flatMap ListPart.diagnostics := by
  induction h with
  | @one part hfront =>
    refine ⟨part.findings, by simpa using part.run, ?_⟩
    simp [part.diagnostics_eq, hfront]
  | @next text s s' parts part _ hs hs' hfront ih =>
    rw [List.dropLast_concat] at hclosed
    obtain ⟨fs, hrun, hlocated⟩ := ih fun p hp => hclosed p (List.dropLast_subset parts hp)
    have hfs : ∀ f ∈ fs, f.problem ≠ .unterminatedRange := by
      intro f hf
      have hmem : f.locate text ∈ parts.flatMap ListPart.diagnostics :=
        hlocated ▸ List.mem_map_of_mem hf
      obtain ⟨p, hp, hd⟩ := List.mem_flatMap.1 hmem
      obtain ⟨g, hg, heq⟩ := List.mem_map.1 hd
      have hproblem : g.problem = f.problem := congrArg Diagnostic.problem heq
      exact hproblem ▸ hclosed p hp g hg
    have htext : part.front ++ part.value = text ++ (s ++ ',' :: (s' ++ part.value)) := by
      simp [hfront]
    refine ⟨fs.map (·.extend (s ++ ',' :: (s' ++ part.value))) ++ part.findings, ?_, ?_⟩
    · rw [htext, List.flatMap_append, List.flatMap_singleton]
      exact hrun.append hs hs' hfs part.run
    · rw [List.map_append, List.map_map, List.flatMap_append, List.flatMap_singleton,
        part.diagnostics_eq, ← hlocated, htext]
      congr 1
      exact List.map_congr_left fun f _ => f.locate_extend text _

/-- **What is found in one part does not affect another.** A text of values that are read by
themselves, joined by commas, is read to its end, and gives the classes of the values one after
another. What is found in it is what is found in the values, one after another and moved to where
the values stand. Only the last value may have an open range. -/
theorem readClassList_joined {text : List Char} {parts : List ListPart}
    (h : JoinedByCommas text parts)
    (hclosed : ∀ part ∈ parts.dropLast, ∀ f ∈ part.findings, f.problem ≠ .unterminatedRange) :
    (readClassList text).outcome = .read (parts.flatMap ListPart.classes) [] ∧
      (readClassList text).findings.map (·.locate text) =
        parts.flatMap ListPart.diagnostics := by
  obtain ⟨fs, hrun, hlocated⟩ := h.run hclosed
  rw [hrun.read]
  exact ⟨rfl, hlocated⟩

/-- An unknown name with a range. -/
def unknownName : ListPart :=
  ⟨[], "length(1,2)".toList, [], by rw [readClassList_eq]; rfl⟩

/-- Brackets without members. -/
def noMembers : ListPart :=
  ⟨"length(1,2) ,".toList, "[]".toList, [], by rw [readClassList_eq]; rfl⟩

/-- Members and a range that do not make sense. -/
def oddMembers : ListPart :=
  ⟨"length(1,2) ,[],\n".toList, "[a-é,](1)".toList, [⟨.custom ['a', ','], none⟩],
    by rw [readClassList_eq]; rfl⟩

/-- A range that the end of the text cuts off. -/
def openRange : ListPart :=
  ⟨"length(1,2) ,[],\n[a-é,](1), ".toList, "digit(3,4".toList, [⟨.named (.basic .digit), none⟩],
    by rw [readClassList_eq]; rfl⟩

theorem unknownName_findings :
    unknownName.findings = [⟨.unknownClass "length", "length(1,2)".toList⟩] := by
  rw [ListPart.findings, readClassList_eq]
  rfl

theorem noMembers_findings : noMembers.findings = [⟨.emptyCustomClass, "[]".toList⟩] := by
  rw [ListPart.findings, readClassList_eq]
  rfl

theorem oddMembers_findings : oddMembers.findings =
    [⟨.misplacedDash, "-é,](1)".toList⟩, ⟨.nonPrintable 'é', "é,](1)".toList⟩,
      ⟨.malformedRange, "(1)".toList⟩] := by
  rw [ListPart.findings, readClassList_eq]
  rfl

theorem openRange_findings : openRange.findings = [⟨.unterminatedRange, "(3,4".toList⟩] := by
  rw [ListPart.findings, readClassList_eq]
  rfl

/-- The four values with commas between them. -/
def oddValues : List Char := "length(1,2) ,[],\n[a-é,](1), digit(3,4".toList

theorem oddValues_joined :
    JoinedByCommas oddValues [unknownName, noMembers, oddMembers, openRange] := by
  have hnone : Spacing [] := by simp [Spacing]
  have hblank : Spacing [' '] := by simp [Spacing, isSpacing]
  have hfeed : Spacing ['\n'] := by simp [Spacing, isSpacing]
  have htwo : JoinedByCommas _ [unknownName, noMembers] := .next (.one rfl) hblank hnone rfl
  have hthree : JoinedByCommas _ [unknownName, noMembers, oddMembers] := .next htwo hnone hfeed rfl
  have hfour : JoinedByCommas (openRange.front ++ openRange.value)
      ([unknownName, noMembers, oddMembers] ++ [openRange]) :=
    .next hthree hnone hblank rfl
  exact hfour

/-- Two of the four values give a class, and each has its own findings. -/
theorem oddValues_read :
    JoinedByCommas oddValues [unknownName, noMembers, oddMembers, openRange] ∧
    (∀ part ∈ [unknownName, noMembers, oddMembers, openRange].dropLast,
      ∀ f ∈ part.findings, f.problem ≠ .unterminatedRange) ∧
    (readClassList oddValues).outcome =
      .read [⟨.custom ['a', ','], none⟩, ⟨.named (.basic .digit), none⟩] [] ∧
    (readClassList oddValues).findings.map (·.locate oddValues) =
      [⟨0, 1, 1, .error, .unknownClass "length"⟩, ⟨13, 1, 14, .warning, .emptyCustomClass⟩,
        ⟨19, 2, 3, .warning, .misplacedDash⟩, ⟨20, 2, 4, .warning, .nonPrintable 'é'⟩,
        ⟨24, 2, 7, .warning, .malformedRange⟩, ⟨34, 2, 17, .warning, .unterminatedRange⟩] := by
  have hclosed : ∀ part ∈ [unknownName, noMembers, oddMembers, openRange].dropLast,
      ∀ f ∈ part.findings, f.problem ≠ .unterminatedRange := by
    simp [unknownName_findings, noMembers_findings, oddMembers_findings]
  obtain ⟨hread, hdiagnostics⟩ := readClassList_joined oddValues_joined hclosed
  refine ⟨oddValues_joined, hclosed, hread, hdiagnostics.trans ?_⟩
  simp only [List.flatMap_cons, List.flatMap_nil, ListPart.diagnostics, unknownName_findings,
    noMembers_findings, oddMembers_findings, openRange_findings]
  decide

end PasswordPolicy
