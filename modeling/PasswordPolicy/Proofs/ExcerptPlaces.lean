import Mathlib.Data.List.Dedup
import Mathlib.Data.List.Forall2
import Mathlib.Data.List.SplitBy
import Mathlib.Data.List.TakeWhile
import PasswordPolicy.Diagnostic.Excerpt
import PasswordPolicy.Proofs.DiagnosticPlaces
import PasswordPolicy.Proofs.MovedPlaces

/-!
# Excerpts show each place once

**Runs.** An ordered list falls into runs of equal keys, one for each key, in the order of the keys
(`splitBy_of_ordered`).

**Places.** As long as line and column are not cut short, they tell prefixes of one text apart, just
as the number of bytes does. So two diagnostics of a document have the same line and column exactly
if they have the same index (`samePlace_locate_iff`), and a report ordered by index has one run for
each index.

**Quotations.** The line that is quoted for a place is cut out of the text around the place
(`lineOf?_place`), so the caret stands under the character at the place or right behind the line.

**Print.** An excerpt that quotes a line is printed in five rows (`Excerpt.PrintedAs`), and the
printed excerpts follow one another with nothing between them.

Main result: `excerpts_show_each_place_once`.
-/

namespace PasswordPolicy

open Text

/-! ## Lists ordered by a key -/

section Keys

variable {α : Type} {key : α → Nat} {l : List α}

/-- What has the least key stands in front. -/
theorem filter_append_of_ordered {k : Nat} (h : l.Pairwise (key · ≤ key ·))
    (hk : ∀ a ∈ l, k ≤ key a) : l.filter (key · = k) ++ l.filter (key · ≠ k) = l := by
  induction l with
  | nil => rfl
  | cons a l ih =>
    obtain ⟨ha, hl⟩ := List.pairwise_cons.1 h
    have hkl : ∀ b ∈ l, k ≤ key b := fun b hb => hk b (List.mem_cons_of_mem a hb)
    by_cases heq : key a = k
    · simpa [heq] using ih hl hkl
    · have hlt : ∀ b ∈ a :: l, key b ≠ k := by
        have hka : k ≤ key a := hk a List.mem_cons_self
        intro b hb
        rcases List.mem_cons.1 hb with rfl | hb
        · exact heq
        · have hab := ha b hb
          omega
      rw [List.filter_eq_nil_iff.2 (by simpa using hlt), List.filter_eq_self.2 (by simpa using hlt)]
      rfl

theorem flatMap_filter_of_ordered {keys : List Nat} (hkeys : keys.Pairwise (· < ·))
    (h : l.Pairwise (key · ≤ key ·)) (hmem : ∀ a ∈ l, key a ∈ keys) :
    keys.flatMap (fun k => l.filter (key · = k)) = l := by
  induction keys generalizing l with
  | nil =>
    have hnil : l = [] := List.eq_nil_iff_forall_not_mem.2 fun a ha => List.not_mem_nil (hmem a ha)
    rw [hnil]
    rfl
  | cons k keys ih =>
    obtain ⟨hk, hkeys⟩ := List.pairwise_cons.1 hkeys
    have hleast : ∀ a ∈ l, k ≤ key a := by
      intro a ha
      rcases List.mem_cons.1 (hmem a ha) with heq | hlater
      · exact Nat.le_of_eq heq.symm
      · exact Nat.le_of_lt (hk _ hlater)
    -- The later keys only meet what is left without the first one.
    have hrest : keys.flatMap (fun j => l.filter (key · = j)) =
        keys.flatMap (fun j => (l.filter (key · ≠ k)).filter (key · = j)) := by
      refine List.flatMap_congr fun j hj => ?_
      rw [List.filter_filter]
      refine List.filter_congr fun a _ => ?_
      have hne : j ≠ k := Nat.ne_of_gt (hk j hj)
      by_cases heq : key a = j <;> simp [heq, hne]
    rw [List.flatMap_cons, hrest, ih hkeys (h.filter _), filter_append_of_ordered h hleast]
    intro a ha
    obtain ⟨ha, hne⟩ := List.mem_filter.1 ha
    exact (List.mem_cons.1 (hmem a ha)).resolve_left (by simpa using hne)

/-- The keys of the list in their order, each of them once. -/
theorem pairwise_dedup_keys (h : l.Pairwise (key · ≤ key ·)) :
    (l.map key).dedup.Pairwise (· < ·) := by
  have hle : (l.map key).dedup.Pairwise (· ≤ ·) :=
    (List.pairwise_map.2 h).sublist (List.dedup_sublist _)
  exact (hle.and (List.nodup_dedup _)).imp fun hab => Nat.lt_of_le_of_ne hab.1 hab.2

/-- **The runs of an ordered list** are what it holds of each key. -/
theorem splitBy_of_ordered {same : α → α → Bool} (h : l.Pairwise (key · ≤ key ·))
    (hsame : ∀ a ∈ l, ∀ b ∈ l, same a b = true ↔ key a = key b) :
    l.splitBy same = (l.map key).dedup.map fun k => l.filter (key · = k) := by
  have hkeys : (l.map key).dedup.Pairwise (· < ·) := pairwise_dedup_keys h
  have hrun : ∀ k ∈ (l.map key).dedup, l.filter (key · = k) ≠ [] := by
    intro k hk
    obtain ⟨a, ha, hak⟩ := List.mem_map.1 (List.mem_dedup.1 hk)
    exact List.ne_nil_of_mem (List.mem_filter.2 ⟨ha, by simpa using hak⟩)
  have hmem : ∀ {k a}, a ∈ l.filter (key · = k) → a ∈ l ∧ key a = k := fun ha => by simpa using ha
  refine List.splitBy_eq_iff.2 ⟨?_, ?_, ?_, ?_⟩
  · rw [← List.flatMap_def, flatMap_filter_of_ordered hkeys h]
    exact fun a ha => List.mem_dedup.2 (List.mem_map.2 ⟨a, ha, rfl⟩)
  · rintro hnil
    obtain ⟨k, hk, heq⟩ := List.mem_map.1 hnil
    exact hrun k hk heq
  · intro run hr
    obtain ⟨k, -, rfl⟩ := List.mem_map.1 hr
    refine (List.pairwise_of_forall_mem_list fun a ha b hb => ?_).isChain
    exact (hsame a (hmem ha).1 b (hmem hb).1).2 ((hmem ha).2.trans (hmem hb).2.symm)
  · rw [List.isChain_map]
    refine (hkeys.imp_of_mem fun {j k} hj hk hlt => ⟨hrun j hj, hrun k hk, ?_⟩).isChain
    obtain ⟨ha, haj⟩ := hmem (List.getLast_mem (hrun j hj))
    obtain ⟨hb, hbk⟩ := hmem (List.head_mem (hrun k hk))
    refine Bool.not_eq_true _ ▸ fun heq => ?_
    have hjk := (hsame _ ha _ hb).1 heq
    omega

end Keys

/-! ## Places tell prefixes apart -/

/-- A measure that grows with every character tells the prefixes of a text apart. -/
theorem prefix_eq_of_measure {text a b : List Char} {β : Type} {measure : List Char → β}
    (hgrows : ∀ before more, measure before = measure (before ++ more) → more = [])
    (ha : a <+: text) (hb : b <+: text) (h : measure a = measure b) : a = b := by
  rcases List.prefix_or_prefix_of_prefix ha hb with ⟨more, rfl⟩ | ⟨more, rfl⟩
  · rw [hgrows a more h, List.append_nil]
  · rw [hgrows b more h.symm, List.append_nil]

theorem eq_nil_of_byteLength {before more : List Char}
    (h : byteLength before = byteLength (before ++ more)) : more = [] := by
  cases more with
  | nil => rfl
  | cons c more =>
    have hpos : 0 < c.utf8Size := c.utf8Size_pos
    rw [byteLength_append, byteLength] at h
    omega

/-- On the same line the columns count every further character. -/
theorem eq_nil_of_placeAfter {before more : List Char}
    (h : placeAfter before = placeAfter (before ++ more)) : more = [] := by
  obtain ⟨hlines, hcolumns⟩ := Prod.mk.inj h
  rw [List.count_append] at hlines
  have hplain : ∀ c ∈ more.reverse, decide (c ≠ '\n') = true := by
    intro c hc
    have hnone : '\n' ∉ more := List.count_eq_zero.1 (by omega)
    exact decide_eq_true fun heq => hnone (heq ▸ List.mem_reverse.1 hc)
  rw [List.reverse_append, List.takeWhile_append_of_pos hplain, List.length_append,
    List.length_reverse] at hcolumns
  exact List.eq_nil_of_length_eq_zero (by omega)

theorem ordinal_eq {n : Nat} (h : n < UInt32.size - 1) : ordinal n = n + 1 :=
  Nat.min_eq_left h

section Places

variable {text : List Char}

theorem length_of_prefix_lt {before : List Char} (hshort : text.length < UInt32.size - 1)
    (h : before <+: text) : before.length < UInt32.size - 1 :=
  Nat.lt_of_le_of_lt h.length_le hshort

theorem lineAfter_eq {before : List Char} (h : before.length < UInt32.size - 1) :
    lineAfter before = (placeAfter before).1 + 1 :=
  ordinal_eq (Nat.lt_of_le_of_lt List.count_le_length h)

theorem columnAfter_eq {before : List Char} (h : before.length < UInt32.size - 1) :
    columnAfter before = (placeAfter before).2 + 1 := by
  have hle := (List.takeWhile_prefix (l := before.reverse) (· ≠ '\n')).length_le
  rw [List.length_reverse] at hle
  exact ordinal_eq (Nat.lt_of_le_of_lt hle h)

theorem textBefore_prefix (text tail : List Char) : textBefore text tail <+: text :=
  List.take_prefix _ text

/-- **Two findings share line and column exactly if they share their index.** -/
theorem samePlace_locate_iff (hshort : text.length < UInt32.size - 1) (f g : Finding) :
    Excerpt.samePlace (f.locate text) (g.locate text) = true ↔
      (f.locate text).index = (g.locate text).index := by
  have hf : textBefore text f.tail <+: text := textBefore_prefix text f.tail
  have hg : textBefore text g.tail <+: text := textBefore_prefix text g.tail
  have hfshort := length_of_prefix_lt hshort hf
  have hgshort := length_of_prefix_lt hshort hg
  simp only [Excerpt.samePlace, Finding.locate, Bool.and_eq_true, beq_iff_eq]
  constructor
  · rintro ⟨hline, hcolumn⟩
    rw [lineAfter_eq hfshort, lineAfter_eq hgshort] at hline
    rw [columnAfter_eq hfshort, columnAfter_eq hgshort] at hcolumn
    have hplace : placeAfter (textBefore text f.tail) = placeAfter (textBefore text g.tail) :=
      Prod.ext (Nat.succ.inj hline) (Nat.succ.inj hcolumn)
    rw [prefix_eq_of_measure (fun _ _ => eq_nil_of_placeAfter) hf hg hplace]
  · intro hindex
    rw [prefix_eq_of_measure (fun _ _ => eq_nil_of_byteLength) hf hg hindex]
    exact ⟨rfl, rfl⟩

end Places

/-! ## Quoted lines -/

theorem length_splitOn (c : Char) (text : List Char) :
    (text.splitOn c).length = text.count c + 1 := by
  induction text with
  | nil => simp
  | cons d text ih =>
    rw [List.splitOn_cons_eq_if_modifyHead, List.count_cons]
    by_cases hd : d == c
    · simp [hd, ih]
    · simp [hd, ih]

theorem head?_splitOn (c : Char) (text : List Char) :
    (text.splitOn c).head? = some (text.takeWhile (· ≠ c)) := by
  induction text with
  | nil => simp
  | cons d text ih =>
    rw [List.splitOn_cons_eq_if_modifyHead]
    by_cases hd : d = c
    · simp [hd]
    · simp [hd, ih]

/-- What follows a line is empty or begins with a line feed. -/
theorem dropWhile_line (tail : List Char) :
    tail.dropWhile (· ≠ '\n') = [] ∨ ∃ after, tail.dropWhile (· ≠ '\n') = '\n' :: after := by
  cases hd : tail.dropWhile (· ≠ '\n') with
  | nil => exact .inl rfl
  | cons c after =>
    have hc := List.head?_dropWhile_not (· ≠ '\n') tail
    rw [hd] at hc
    obtain rfl : c = '\n' := by simpa using hc
    exact .inr ⟨after, rfl⟩

/-- The line of a place goes on behind it up to the next line feed. -/
theorem lineOf?_place {lines current tail : List Char}
    (hlines : lines = [] ∨ ∃ earlier, lines = earlier ++ ['\n']) (hcurrent : '\n' ∉ current) :
    Excerpt.lineOf? (String.ofList (lines ++ current ++ tail)) (lines.count '\n' + 1) =
      some (String.ofList (current ++ tail.takeWhile (· ≠ '\n'))) := by
  have hplain : ∀ c ∈ current, decide (c ≠ '\n') = true := fun c hc =>
    decide_eq_true fun heq => hcurrent (heq ▸ hc)
  have hhead : ((current ++ tail).splitOn '\n')[0]? =
      some (current ++ tail.takeWhile (· ≠ '\n')) := by
    rw [← List.head?_eq_getElem?, head?_splitOn, List.takeWhile_append_of_pos hplain]
  have hline : ((lines ++ current ++ tail).splitOn '\n')[lines.count '\n']? =
      some (current ++ tail.takeWhile (· ≠ '\n')) := by
    rw [List.append_assoc]
    rcases hlines with rfl | ⟨earlier, rfl⟩
    · exact hhead
    · have hlength : (earlier.splitOn '\n').length = (earlier ++ ['\n']).count '\n' := by
        rw [length_splitOn, List.count_append]
        rfl
      rw [List.append_assoc, List.singleton_append, List.splitOn_append_cons_self, ← hlength,
        List.getElem?_append_right (Nat.le_refl _), Nat.sub_self, hhead]
  rw [Excerpt.lineOf?, String.toList_ofList, hline]
  rfl

/-! ## Excerpts -/

/-- The excerpt quotes a whole line, by its number, and its caret stands under a character of the
line or right behind the last one. -/
structure Excerpt.Quotes (e : Excerpt) (earlier line later : List Char) : Prop where
  begins : earlier = [] ∨ ∃ before, earlier = before ++ ['\n']
  unbroken : '\n' ∉ line
  ends : later = [] ∨ ∃ after, later = '\n' :: after
  quotation : e.quotation = some (String.ofList line)
  number : e.line = earlier.count '\n' + 1
  caret : 1 ≤ e.column ∧ e.column ≤ line.length + 1

/-- The excerpt says what was found at the index, all of it in the order in which it came up, and
shows the line of the text in which this is. -/
structure Excerpt.Shows (text : List Char) (emitted : List Diagnostic) (index : Nat)
    (e : Excerpt) : Prop where
  remark : e.remark =
    "; ".intercalate ((emitted.filter (·.index = index)).map Diagnostic.message)
  heading : e.heading = "parsing failed" ↔ ∃ d ∈ emitted, d.index = index ∧ d.isError = true
  wording : e.heading = "parsing failed" ∨ e.heading = "input was adjusted"
  place : ∃ earlier line later, text = earlier ++ line ++ later ∧ e.Quotes earlier line later ∧
    byteLength (earlier ++ line.take (e.column - 1)) = index

/-- The block is the excerpt in print, row by row. The quoted line stands behind its number, and the
other rows have a margin as wide as that. Blanks lead to the caret, one less than its column. -/
inductive Excerpt.PrintedAs (e : Excerpt) : String → Prop
  | rows {margin quoted blanks : String} :
      margin.toList = List.replicate (toString e.line).length ' ' →
      e.quotation = some quoted →
      blanks.toList = List.replicate (e.column - 1) ' ' →
      e.PrintedAs
        ("error: " ++ e.heading ++ "\n" ++
          margin ++ "--> " ++ toString e.line ++ ":" ++ toString e.column ++ "\n" ++
          margin ++ " | " ++ "\n" ++
          toString e.line ++ " | " ++ quoted ++ "\n" ++
          margin ++ " | " ++ blanks ++ "^ " ++ e.remark)

theorem Excerpt.Shows.printedAs {text : List Char} {emitted : List Diagnostic} {index : Nat}
    {e : Excerpt} (h : e.Shows text emitted index) : e.PrintedAs e.render := by
  obtain ⟨earlier, line, later, -, hquotes, -⟩ := h.place
  rw [render_of_quotation hquotes.quotation]
  exact .rows (toList_spaces _) hquotes.quotation (toList_spaces _)

theorem forall₂_printedAs {text : List Char} {emitted : List Diagnostic} {indices : List Nat}
    {es : List Excerpt} (h : List.Forall₂ (Excerpt.Shows text emitted) indices es) :
    List.Forall₂ Excerpt.PrintedAs es (es.map Excerpt.render) := by
  induction h with
  | nil => exact .nil
  | cons hshows _ ih => exact .cons hshows.printedAs ih

/-- The line that is looked up for a finding holds its place. -/
theorem exists_quotes_of_locate {text : List Char} (hshort : text.length < UInt32.size - 1)
    {f : Finding} (hf : f.tail <:+ text) {e : Excerpt} (hline : e.line = (f.locate text).line)
    (hcolumn : e.column = (f.locate text).column)
    (hquotation : e.quotation = Excerpt.lineOf? (String.ofList text) e.line) :
    ∃ earlier line later, text = earlier ++ line ++ later ∧ e.Quotes earlier line later ∧
      byteLength (earlier ++ line.take (e.column - 1)) = (f.locate text).index := by
  obtain ⟨before, rfl⟩ := hf
  obtain ⟨lines, current, rfl, hlines, hcurrent⟩ := exists_currentLine before
  have hlength := length_of_prefix_lt hshort (List.prefix_append (lines ++ current) f.tail)
  have hcount : (lines ++ current).count '\n' = lines.count '\n' := by
    rw [List.count_append, List.count_eq_zero.2 hcurrent, Nat.add_zero]
  have hnumber : e.line = lines.count '\n' + 1 := by
    rw [hline, Finding.locate, textBefore_append, ← hcount]
    exact lineAfter_eq hlength
  have hcaret : e.column = current.length + 1 := by
    rw [hcolumn, Finding.locate, textBefore_append]
    refine (columnAfter_lines hlines hcurrent).trans (ordinal_eq ?_)
    rw [List.length_append] at hlength
    omega
  refine ⟨lines, current ++ f.tail.takeWhile (· ≠ '\n'), f.tail.dropWhile (· ≠ '\n'), ?_,
    ⟨hlines, ?_, ?_, ?_, hnumber, ?_⟩, ?_⟩
  · simp only [List.append_assoc, List.takeWhile_append_dropWhile]
  · rw [List.mem_append, not_or]
    exact ⟨hcurrent, fun hc => by simpa using List.mem_takeWhile_imp hc⟩
  · exact dropWhile_line f.tail
  · rw [hquotation, hnumber]
    exact lineOf?_place hlines hcurrent
  · rw [hcaret, List.length_append]
    omega
  · rw [hcaret, Nat.add_sub_cancel, List.take_left, Finding.locate, textBefore_append]

theorem headingOf_eq_iff {run : List Diagnostic} :
    Excerpt.headingOf run = "parsing failed" ↔ ∃ d ∈ run, d.isError = true := by
  rw [← List.any_eq_true]
  unfold Excerpt.headingOf
  cases run.any Diagnostic.isError with
  | true => exact iff_of_true rfl rfl
  | false => exact iff_of_false (by decide) (by decide)

theorem headingOf_wording (run : List Diagnostic) :
    Excerpt.headingOf run = "parsing failed" ∨ Excerpt.headingOf run = "input was adjusted" :=
  ite_eq_or_eq _ _ _

/-- The excerpt for all that was found at one index shows this index. -/
theorem exists_shows_of_run {text : List Char} (hshort : text.length < UInt32.size - 1)
    {findings : List Finding} (htails : ∀ f ∈ findings, f.tail <:+ text) {index : Nat}
    (hindex : ∃ f ∈ findings, (f.locate text).index = index) :
    ∃ e, Excerpt.ofRun (String.ofList text)
        ((findings.map (·.locate text)).filter (·.index = index)) = some e ∧
      e.Shows text (findings.map (·.locate text)) index := by
  have hrun : (findings.map (·.locate text)).filter (·.index = index) ≠ [] := by
    obtain ⟨f, hf, hi⟩ := hindex
    refine List.ne_nil_of_mem (List.mem_filter.2 ⟨List.mem_map.2 ⟨f, hf, rfl⟩, ?_⟩)
    exact decide_eq_true hi
  obtain ⟨d, run, heq⟩ := List.exists_cons_of_ne_nil hrun
  have hd : d ∈ (findings.map (·.locate text)).filter (·.index = index) := by
    rw [heq]
    exact List.mem_cons_self
  obtain ⟨hmem, hi⟩ := List.mem_filter.1 hd
  obtain ⟨f, hf, rfl⟩ := List.mem_map.1 hmem
  rw [← of_decide_eq_true hi] at heq ⊢
  refine ⟨_, by rw [heq]; rfl, ⟨by rw [heq], ?_, headingOf_wording _, ?_⟩⟩
  · rw [← heq, headingOf_eq_iff]
    simp only [List.mem_filter, decide_eq_true_eq, and_assoc]
  · exact exists_quotes_of_locate hshort (htails f hf) rfl rfl rfl

theorem forall₂_filterMap {α β : Type} {R : α → β → Prop} {f : α → Option β} {l : List α}
    (h : ∀ a ∈ l, ∃ b, f a = some b ∧ R a b) : List.Forall₂ R l (l.filterMap f) := by
  induction l with
  | nil => exact .nil
  | cons a l ih =>
    obtain ⟨b, hb, hab⟩ := h a List.mem_cons_self
    rw [List.filterMap_cons_some hb]
    exact .cons hab (ih fun c hc => h c (List.mem_cons_of_mem a hc))

theorem ofDiagnostics_of_ne_nil {source : String} {ds : List Diagnostic} (h : ds ≠ []) :
    Excerpt.ofDiagnostics source ds =
      (ds.splitBy Excerpt.samePlace).filterMap (Excerpt.ofRun source) := by
  unfold Excerpt.ofDiagnostics
  split
  · exact absurd rfl h
  · rfl

/-- A report has an excerpt for each index, in the order of the indices. -/
theorem exists_indices_shown (words : List String) (minified : Bool) (text : String)
    (hshort : text.length < UInt32.size - 1)
    (hsome : (Report.ofText words minified text).diagnostics ≠ []) :
    ∃ indices : List Nat, indices.Pairwise (· < ·) ∧
      (∀ i, i ∈ indices ↔ ∃ d ∈ (Report.ofText words minified text).diagnostics, d.index = i) ∧
      List.Forall₂
        (Excerpt.Shows text.toList (diagnosticsOf text.toList (readDocument words text.toList)))
        indices (Excerpt.ofDiagnostics text (Report.ofText words minified text).diagnostics) := by
  have hordered : OrderedByPlace (diagnosticsOf text.toList (readDocument words text.toList))
      (Report.ofText words minified text).diagnostics := orderedByPlace_mergeSort _
  have htails := suffix_of_mem_readDocument words text.toList
  have hlocated : ∀ d ∈ (Report.ofText words minified text).diagnostics,
      ∃ f ∈ (readDocument words text.toList).findings, f.locate text.toList = d :=
    fun d hd => List.mem_map.1 (hordered.perm.mem_iff.1 hd)
  have hmem : ∀ i, i ∈ ((Report.ofText words minified text).diagnostics.map (·.index)).dedup ↔
      ∃ d ∈ (Report.ofText words minified text).diagnostics, d.index = i := by
    simp only [List.mem_dedup, List.mem_map, implies_true]
  refine ⟨((Report.ofText words minified text).diagnostics.map (·.index)).dedup,
    pairwise_dedup_keys hordered.ordered, hmem, ?_⟩
  have hsame : ∀ d ∈ (Report.ofText words minified text).diagnostics,
      ∀ e ∈ (Report.ofText words minified text).diagnostics,
        Excerpt.samePlace d e = true ↔ d.index = e.index := by
    intro d hd e he
    obtain ⟨f, -, rfl⟩ := hlocated d hd
    obtain ⟨g, -, rfl⟩ := hlocated e he
    exact samePlace_locate_iff hshort f g
  rw [ofDiagnostics_of_ne_nil hsome, splitBy_of_ordered hordered.ordered hsame,
    List.filterMap_map]
  refine forall₂_filterMap fun i hi => ?_
  obtain ⟨d, hd, hdi⟩ := (hmem i).1 hi
  obtain ⟨f, hf, rfl⟩ := hlocated d hd
  have hshows := exists_shows_of_run hshort htails ⟨f, hf, hdi⟩
  rw [String.ofList_toList] at hshows
  rw [Function.comp_apply, hordered.stable]
  exact hshows

/-- **Excerpts show each place once.** A document that is not too long for the numbers of lines and
columns has one excerpt for each index of a diagnostic, in the order of the indices. Its remark is
all that was found there, in the order in which it came up, its heading tells whether an error is
among this, it quotes the line of the text that the place is in, and its caret stands at the
place. All of this is printed, one block of five rows for each excerpt. -/
theorem excerpts_show_each_place_once (words : List String) (minified : Bool) (text : String)
    (hshort : text.length < UInt32.size - 1)
    (hsome : (Report.ofText words minified text).diagnostics ≠ []) :
    ∃ (indices : List Nat) (blocks : List String), indices.Pairwise (· < ·) ∧
      (∀ i, i ∈ indices ↔ ∃ d ∈ (Report.ofText words minified text).diagnostics, d.index = i) ∧
      List.Forall₂
        (Excerpt.Shows text.toList (diagnosticsOf text.toList (readDocument words text.toList)))
        indices (Excerpt.ofDiagnostics text (Report.ofText words minified text).diagnostics) ∧
      List.Forall₂ Excerpt.PrintedAs
        (Excerpt.ofDiagnostics text (Report.ofText words minified text).diagnostics) blocks ∧
      renderExcerpts text (Report.ofText words minified text).diagnostics = String.join blocks := by
  obtain ⟨indices, hordered, hmem, hshown⟩ := exists_indices_shown words minified text hshort hsome
  exact ⟨indices, _, hordered, hmem, hshown, forall₂_printedAs hshown, rfl⟩

/-- A rule without a value, and on the next line a number that is none. -/
def twoLines : String := "maxlength:;\nminlength: x"

theorem twoLines_read : readDocument [] twoLines.toList =
    ⟨[⟨.emptyValue (.limit .maxLength), twoLines.toList⟩, ⟨.malformedInteger, ['x']⟩,
      ⟨.expected [.char ';', .endOfText], ['x']⟩], [], .abandoned⟩ := by
  have hfirst : Round [] (skipSpacing twoLines.toList)
      [⟨.emptyValue (.limit .maxLength), twoLines.toList⟩] none
      (';' :: "\nminlength: x".toList) :=
    ⟨⟨'m', rfl, rfl⟩, ";\nminlength: x".toList, rfl, rfl⟩
  have hlast : Round [] (skipSpacing "\nminlength: x".toList) [⟨.malformedInteger, ['x']⟩] none
      ['x'] :=
    ⟨⟨'m', rfl, rfl⟩, ['x'], rfl, rfl⟩
  rw [readDocument, hfirst.readRules_next, hlast.readRules_unseparated (by decide)]
  rfl

theorem twoLines_diagnostics : (Report.ofText [] true twoLines).diagnostics =
    [⟨0, 1, 1, .warning, .emptyValue (.limit .maxLength)⟩,
      ⟨23, 2, 12, .error, .malformedInteger⟩,
      ⟨23, 2, 12, .error, .expected [.char ';', .endOfText]⟩] := by
  rw [Report.ofText, twoLines_read]
  exact List.mergeSort_of_pairwise (by decide)

/-- The two lines have a block each, though three things were found in them. -/
theorem twoLines_shown :
    twoLines.length < UInt32.size - 1 ∧ (Report.ofText [] true twoLines).diagnostics ≠ [] ∧
    Excerpt.ofDiagnostics twoLines (Report.ofText [] true twoLines).diagnostics =
      [⟨"input was adjusted", 1, 1, some "maxlength:;", "rule maxlength has no value"⟩,
        ⟨"parsing failed", 2, 12, some "minlength: x",
          "malformed integer; expected one of ';', or EoF"⟩] ∧
    renderExcerpts twoLines (Report.ofText [] true twoLines).diagnostics =
      "error: input was adjusted\n" ++
      " --> 1:1\n" ++
      "  | \n" ++
      "1 | maxlength:;\n" ++
      "  | ^ rule maxlength has no value" ++
      "error: parsing failed\n" ++
      " --> 2:12\n" ++
      "  | \n" ++
      "2 | minlength: x\n" ++
      "  |            ^ malformed integer; expected one of ';', or EoF" ∧
    ∃ (indices : List Nat) (blocks : List String), indices.Pairwise (· < ·) ∧
      (∀ i, i ∈ indices ↔ ∃ d ∈ (Report.ofText [] true twoLines).diagnostics, d.index = i) ∧
      List.Forall₂
        (Excerpt.Shows twoLines.toList
          (diagnosticsOf twoLines.toList (readDocument [] twoLines.toList)))
        indices (Excerpt.ofDiagnostics twoLines (Report.ofText [] true twoLines).diagnostics) ∧
      List.Forall₂ Excerpt.PrintedAs
        (Excerpt.ofDiagnostics twoLines (Report.ofText [] true twoLines).diagnostics) blocks ∧
      renderExcerpts twoLines (Report.ofText [] true twoLines).diagnostics =
        String.join blocks := by
  have hsome : (Report.ofText [] true twoLines).diagnostics ≠ [] := by
    rw [twoLines_diagnostics]
    decide
  refine ⟨by decide, hsome, ?_, ?_,
    excerpts_show_each_place_once [] true twoLines (by decide) hsome⟩
  · rw [twoLines_diagnostics]
    decide +kernel
  · rw [twoLines_diagnostics]
    decide +kernel

end PasswordPolicy
