import PasswordPolicy.Proofs.Alphabet
import PasswordPolicy.Proofs.CleanReading
import PasswordPolicy.Proofs.Grammar

/-!
# What the grammar derives is read

**One lemma a reader.** The reader is put in front of a derived text and something behind it that
cannot belong to it. It takes exactly the derived text, gives the thing derived, and finds nothing
wrong. A reader looks at most at the first character behind its text, over spacing: `Behind` says
which characters may stand there.

Main result: `Document.read`, a derivable document is read as the rules it is derived for.
-/

namespace PasswordPolicy.Grammar

open Text

/-! ## What may stand behind a text -/

/-- Over spacing, the text ends or goes on with one of the marks. -/
def Behind (marks rest : List Char) : Prop :=
  ∀ c more, skipSpacing rest = c :: more → c ∈ marks

theorem skipSpacing_append {s : List Char} (hs : Spacing s) (t : List Char) :
    skipSpacing (s ++ t) = skipSpacing t :=
  List.dropWhile_append_of_pos hs

theorem skipSpacing_cons {c : Char} (hc : isSpacing c = false) (t : List Char) :
    skipSpacing (c :: t) = c :: t := by
  simp [skipSpacing, hc]

theorem skipSpacing_eq_nil {s : List Char} (hs : Spacing s) : skipSpacing s = [] := by
  rw [← List.append_nil s, skipSpacing_append hs]
  rfl

theorem Behind.head {marks rest : List Char} {c : Char} {more : List Char}
    (h : Behind marks rest) (hr : rest = c :: more) : isSpacing c = true ∨ c ∈ marks := by
  subst hr
  cases hc : isSpacing c with
  | true => exact .inl rfl
  | false => exact .inr (h c more (skipSpacing_cons hc more))

theorem behind_append {marks s rest : List Char} (hs : Spacing s) (h : Behind marks rest) :
    Behind marks (s ++ rest) := by
  intro c more hm
  rw [skipSpacing_append hs] at hm
  exact h c more hm

theorem behind_spacing {marks s : List Char} (hs : Spacing s) : Behind marks s := by
  intro c more hm
  simp [skipSpacing_eq_nil hs] at hm

theorem behind_cons {marks rest : List Char} {c : Char} (hs : isSpacing c = false)
    (hc : c ∈ marks) : Behind marks (c :: rest) := by
  intro d more hm
  rw [skipSpacing_cons hs] at hm
  cases hm
  exact hc

theorem atRuleEnd_of_behind {rest : List Char} (h : Behind [';'] rest) :
    atRuleEnd (skipSpacing rest) = true := by
  cases hr : skipSpacing rest with
  | nil => rfl
  | cons c more => simpa [atRuleEnd] using h c more hr

/-! ## Runs of one kind of character -/

theorem takeWhile_run {p : Char → Bool} {t rest : List Char} (ht : ∀ c ∈ t, p c = true)
    (hrest : ∀ c more, rest = c :: more → p c = false) : (t ++ rest).takeWhile p = t := by
  rw [List.takeWhile_append_of_pos ht]
  cases rest with
  | nil => simp
  | cons c more => simp [hrest c more rfl]

theorem dropWhile_run {p : Char → Bool} {t rest : List Char} (ht : ∀ c ∈ t, p c = true)
    (hrest : ∀ c more, rest = c :: more → p c = false) : (t ++ rest).dropWhile p = rest := by
  rw [List.dropWhile_append_of_pos ht]
  cases rest with
  | nil => rfl
  | cons c more => simp [hrest c more rfl]

/-- A character outside a kind that spacing and the marks do not belong to ends a run. -/
theorem Behind.ends {p : Char → Bool} {marks rest : List Char} (h : Behind marks rest)
    (hs : ∀ c, isSpacing c = true → p c = false) (hm : marks.any p = false) :
    ∀ c more, rest = c :: more → p c = false := by
  intro c more hr
  rcases h.head hr with hc | hc
  · exact hs c hc
  · exact Bool.eq_false_iff.2 (List.any_eq_false.1 hm c hc)

/-! ## Numbers -/

theorem count?_eq_some_iff {ds : List Char} {n : UInt32} : count? ds = some n ↔ Numeral ds n := by
  constructor
  · intro h
    unfold count? at h
    split at h
    · next hds =>
      split at h
      · next hlt =>
        cases h
        exact ⟨hds.1, List.all_eq_true.1 hds.2, by simp⟩
      · simp at h
    · simp at h
  · intro h
    have hall : ds.all Char.isDigit = true := List.all_eq_true.2 h.digits
    simp [count?, h.nonempty, hall, h.value, n.toNat_lt_size]

theorem Numeral.read {ds rest : List Char} {n : UInt32} (h : Numeral ds n)
    (hrest : Behind [';'] rest) : readNumber (ds ++ rest) = .ok (some n) rest := by
  have hend := hrest.ends (fun _ => not_digit_of_spacing) (by decide)
  simp only [readNumber, takeWhile_run h.digits hend, dropWhile_run h.digits hend,
    count?_eq_some_iff.2 h, atRuleEnd_of_behind hrest, if_true]

/-! ## Ranges -/

/-- What counts on one side of a range is its digits. -/
theorem rangeDigits_of_only {side : List Char}
    (h : ∀ c ∈ side, c.isDigit = true ∨ isSpacing c = true ∨ c = '(') :
    rangeDigits side = side.filter Char.isDigit := by
  refine List.filter_congr fun c hc => ?_
  rcases h c hc with hd | hs | rfl
  · have hp : c ≠ '(' := by rintro rfl; cases hd
    simp [hd, hp, not_spacing_of_digit hd]
  · simp [not_digit_of_spacing hs, hs]
  · rfl

theorem Side.inside {side : List Char} {n : UInt32} (h : Side side n) :
    ∀ c ∈ side, isRangeInside c = true := by
  intro c hc
  have hne : c ≠ ';' ∧ c ≠ ')' := by
    refine ⟨?_, ?_⟩ <;> rintro rfl <;> exact absurd (h.only _ hc) (by decide)
  simp [isRangeInside, hne]

theorem Numeral.comma_notMem {ds : List Char} {n : UInt32} (h : Numeral ds n) : ',' ∉ ds :=
  fun hc => absurd (h.digits _ hc) (by decide)

theorem rangeOf?_eq_some {left right : List Char} {least most : UInt32} (hl : Side left least)
    (hr : Side right most) (hne : ¬(least = 0 ∧ most = 0)) :
    rangeOf? ('(' :: (left ++ ',' :: right)) = some ⟨least, most⟩ := by
  have hdigits : rangeDigits ('(' :: (left ++ ',' :: right)) =
      left.filter Char.isDigit ++ ',' :: right.filter Char.isDigit := by
    rw [← rangeDigits_of_only hl.only, ← rangeDigits_of_only hr.only]
    simp [rangeDigits, isSpacing]
  have hsplit : (rangeDigits ('(' :: (left ++ ',' :: right))).splitOn ',' =
      [left.filter Char.isDigit, right.filter Char.isDigit] := by
    rw [hdigits, List.splitOn_append_cons_self_of_not_mem hl.numeral.comma_notMem,
      List.splitOn_eq_singleton hr.numeral.comma_notMem]
  simp [rangeOf?, hsplit, count?_eq_some_iff.2 hl.numeral, count?_eq_some_iff.2 hr.numeral,
    CountRange.of?, hne]

theorem Range.read {t : List Char} {r : CountRange} (h : Range t r) (rest : List Char) :
    readRange (t ++ rest) = .ok (some r) rest := by
  obtain @⟨left, right, least, most, hl, hr, hne⟩ := h
  have hin : ∀ c ∈ '(' :: (left ++ ',' :: right), isRangeInside c = true := by
    intro c hc
    rcases List.mem_cons.1 hc with rfl | hc
    · rfl
    · rcases List.mem_append.1 hc with hc | hc
      · exact hl.inside c hc
      · rcases List.mem_cons.1 hc with rfl | hc
        · rfl
        · exact hr.inside c hc
  have hend : ∀ c more, ')' :: rest = c :: more → isRangeInside c = false := by
    rintro c more ⟨⟩
    rfl
  have htext : '(' :: (left ++ ',' :: right) ++ [')'] ++ rest =
      '(' :: (left ++ ',' :: right) ++ ')' :: rest := by simp
  rw [htext, readRange, dropWhile_run hin hend, takeWhile_run hin hend]
  simp only [rangeOf?_eq_some hl hr hne]

/-- A range is found over spacing. -/
theorem Range.read_optional {s t : List Char} {r : CountRange} (hs : Spacing s) (h : Range t r)
    (rest : List Char) : readOptionalRange (s ++ t ++ rest) = .ok (some r) rest := by
  have hread := h.read rest
  obtain @⟨left, right, least, most, -, -, -⟩ := h
  rw [readOptionalRange, List.append_assoc, skipSpacing_append hs]
  exact hread

/-- No range is found where none can stand. -/
theorem readOptionalRange_of_behind {rest : List Char} (h : Behind [',', ';'] rest) :
    readOptionalRange rest = .ok none rest := by
  unfold readOptionalRange
  split
  · next more hm => simpa using h _ _ hm
  · rfl

/-! ## Classes -/

theorem readMembers_plain {opening rest : List Char} {c : Char} (hc : Plain c) :
    readMembers opening (c :: rest) = (readMembers opening rest).map (c :: ·) := by
  obtain ⟨hp, hd, hb⟩ := hc
  have hclose : c = ']' → False := hb
  rw [readMembers]
  all_goals simp_all

theorem readMembers_run {opening inner close rest : List Char} (hi : ∀ c ∈ inner, Plain c)
    (hc : close = [] ∨ close = [']']) (hrest : ∀ more, rest ≠ ']' :: more) :
    readMembers opening (inner ++ close ++ ']' :: rest) = .ok (inner ++ close) rest := by
  induction inner with
  | nil =>
    rcases hc with rfl | rfl
    · exact readMembers_close hrest
    · rfl
  | cons c inner ih =>
    have hih := ih fun d hd => hi d (List.mem_cons_of_mem c hd)
    rw [List.cons_append, List.cons_append, readMembers_plain (hi c List.mem_cons_self), hih]
    simp

theorem Members.read {opening cs rest : List Char} (h : Members cs)
    (hrest : ∀ more, rest ≠ ']' :: more) :
    readBrackets opening (cs ++ ']' :: rest) = .ok cs rest := by
  obtain @⟨dash, inner, close, hdash, hinner, hclose⟩ := h
  have hrun : readMembers opening (inner ++ close ++ ']' :: rest) = .ok (inner ++ close) rest :=
    readMembers_run hinner hclose hrest
  rcases hdash with rfl | rfl
  · -- What comes first is no dash, so the reader of the first member passes it on.
    have hfirst : ∀ more, inner ++ close ++ ']' :: rest ≠ '-' :: more := by
      intro more hm
      cases inner with
      | nil => rcases hclose with rfl | rfl <;> cases hm
      | cons c inner =>
        cases hm
        exact (hinner '-' List.mem_cons_self).2.1 rfl
    unfold readBrackets
    split
    · next more hm => exact absurd hm (hfirst more)
    · exact hrun
  · show (readMembers opening (inner ++ close ++ ']' :: rest)).map ('-' :: ·) = _
    rw [hrun, Reading.ok_map]
    rfl

/-- A class is read up to its range, whatever the reader of ranges makes of what is behind. -/
theorem Body.read {t tail rest : List Char} {b : ClassBody} {range : Option CountRange}
    (h : Body t b) (htail : ∀ c more, tail = c :: more → isIdentifierChar c = false ∧ c ≠ ']')
    (hr : readOptionalRange tail = .ok range rest) :
    readClass (t ++ tail) = .ok (some ⟨b, range⟩) rest := by
  cases h with
  | named n hn =>
    have hid := isIdentifierChar_of_same n.isIdentifierChar_of_mem_name hn
    have hend := fun c more hm => (htail c more hm).1
    obtain ⟨c, u, rfl⟩ := List.exists_cons_of_ne_nil (ne_nil_of_same n.name_ne_nil hn)
    have hc := hid c List.mem_cons_self
    rw [readClass, List.cons_append, List.head?_cons]
    simp only [hc, if_true]
    rw [← List.cons_append, readNamedClass, identifierOf, afterIdentifier, takeWhile_run hid hend,
      dropWhile_run hid hend, hr, Reading.ok_bind, ClassName.ofIdentifier?_eq_some_iff.2 hn]
  | @custom cs hcs hne =>
    have hclose : ∀ more, tail ≠ ']' :: more := fun more hm => (htail _ _ hm).2 rfl
    rw [readClass, List.cons_append, List.cons_append, List.append_assoc, List.singleton_append,
      List.head?_cons]
    simp [isIdentifierChar, isCapital, isSmallLetter, between, readCustomClass, hcs.read hclose, hr,
      hne]

/-- What spacing or the mark of a range begins with ends a class. -/
theorem ends_class {s rest : List Char} {d : Char} (hs : Spacing s)
    (hd : isIdentifierChar d = false ∧ d ≠ ']') :
    ∀ c more, s ++ d :: rest = c :: more → isIdentifierChar c = false ∧ c ≠ ']' := by
  intro c more hm
  cases s with
  | nil => cases hm; exact hd
  | cons e s =>
    cases hm
    have he := hs c List.mem_cons_self
    exact ⟨not_identifierChar_of_spacing he, by rintro rfl; cases he⟩

theorem Item.read {t rest : List Char} {c : CharClass} (h : Item t c)
    (hrest : Behind [',', ';'] rest) : readClass (t ++ rest) = .ok (some c) rest := by
  cases h with
  | plain hb =>
    refine hb.read (fun c more hm => ?_) (readOptionalRange_of_behind hrest)
    rcases hrest.head hm with hc | hc
    · exact ⟨not_identifierChar_of_spacing hc, by rintro rfl; cases hc⟩
    · rcases List.mem_cons.1 hc with rfl | hc
      · decide
      · rw [List.mem_singleton.1 hc]
        decide
  | ranged hb hs hr =>
    have hrange := hr.read_optional hs rest
    obtain @⟨left, right, least, most, -, -, -⟩ := hr
    rw [List.append_assoc] at hrange
    rw [List.append_assoc, List.append_assoc]
    exact hb.read (ends_class hs (by decide)) hrange

/-! ## Beginnings -/

/-- The text begins with a character that is not skipped and does not end a rule. -/
def Begins (t : List Char) : Prop :=
  ∃ c u, t = c :: u ∧ isSpacing c = false ∧ c ≠ ';'

theorem Begins.append {t : List Char} (h : Begins t) (u : List Char) : Begins (t ++ u) := by
  obtain ⟨c, v, rfl, hc⟩ := h
  exact ⟨c, v ++ u, rfl, hc⟩

theorem Begins.skipSpacing_eq {s t : List Char} (h : Begins t) (hs : Spacing s) (rest : List Char) :
    skipSpacing (s ++ (t ++ rest)) = t ++ rest := by
  obtain ⟨c, u, rfl, hc, -⟩ := h
  rw [skipSpacing_append hs]
  exact skipSpacing_cons hc _

theorem Begins.not_atRuleEnd {t : List Char} (h : Begins t) (rest : List Char) :
    atRuleEnd (t ++ rest) = false := by
  obtain ⟨c, u, rfl, -, hc⟩ := h
  simp [atRuleEnd, hc]

theorem begins_of_identifier {t : List Char} (ht : t ≠ [])
    (h : ∀ c ∈ t, isIdentifierChar c = true) : Begins t := by
  obtain ⟨c, u, rfl⟩ := List.exists_cons_of_ne_nil ht
  have hc := h c List.mem_cons_self
  exact ⟨c, u, rfl, not_spacing_of_identifierChar hc, by rintro rfl; cases hc⟩

theorem begins_of_same {name t : List Char} (hne : name ≠ [])
    (hname : ∀ c ∈ name, isIdentifierChar c = true) (h : sameIgnoringCase name t = true) :
    Begins t :=
  begins_of_identifier (ne_nil_of_same hne h) (isIdentifierChar_of_same hname h)

theorem Body.begins {t : List Char} {b : ClassBody} (h : Body t b) : Begins t := by
  cases h with
  | named n hn => exact begins_of_same n.name_ne_nil n.isIdentifierChar_of_mem_name hn
  | custom => exact ⟨'[', _, rfl, by decide, by decide⟩

theorem Item.begins {t : List Char} {c : CharClass} (h : Item t c) : Begins t := by
  cases h with
  | plain hb => exact hb.begins
  | ranged hb hs hr => exact (hb.begins.append _).append _

theorem Items.begins {t : List Char} {cs : List CharClass} (h : Items t cs) : Begins t := by
  cases h with
  | one hc => exact hc.begins
  | cons hc => exact (hc.begins.append _).append _

theorem Numeral.begins {t : List Char} {n : UInt32} (h : Numeral t n) : Begins t := by
  obtain ⟨c, u, rfl⟩ := List.exists_cons_of_ne_nil h.nonempty
  have hc := h.digits c List.mem_cons_self
  exact ⟨c, u, rfl, not_spacing_of_digit hc, by rintro rfl; cases hc⟩

theorem Value.begins {words : List String} {name : RuleName} {t : List Char} {r : Rule}
    (h : Value words name t r) : Begins t := by
  cases h with
  | classes role hcs => exact hcs.begins
  | limit l hn => exact hn.begins
  | defaultList ht => exact begins_of_same (by decide) isIdentifierChar_of_mem_default ht
  | source hs ht =>
    exact begins_of_same (source_ne_nil _ hs) (isIdentifierChar_of_mem_source _ hs) ht

/-! ## Lists of classes -/

theorem Items.read {t rest : List Char} {cs : List CharClass} (h : Items t cs)
    (hrest : Behind [';'] rest) : readClassList (t ++ rest) = .ok cs (skipSpacing rest) := by
  induction h with
  | @one t c hc =>
    have hsep : Behind [',', ';'] rest := fun c more hm =>
      List.mem_cons_of_mem _ (hrest c more hm)
    rw [readClassList_eq, hc.read hsep, Reading.ok_bind]
    cases hm : skipSpacing rest with
    | nil => rfl
    | cons c more =>
      have hsemi : c = ';' := by simpa using hrest c more hm
      simp [hsemi]
  | @cons t s s' u c cs hc hs hs' hu ih =>
    have hcomma : skipSpacing (s ++ ',' :: (s' ++ u) ++ rest) = ',' :: (s' ++ (u ++ rest)) := by
      rw [List.append_assoc, skipSpacing_append hs, List.cons_append, List.append_assoc]
      exact skipSpacing_cons (by decide) _
    have hsep : Behind [',', ';'] (s ++ ',' :: (s' ++ u) ++ rest) := by
      intro d more hm
      rw [hcomma] at hm
      cases hm
      decide
    rw [List.append_assoc, List.append_assoc, ← List.append_assoc s, readClassList_eq, hc.read hsep,
      Reading.ok_bind, hcomma]
    simp [hu.begins.skipSpacing_eq hs' rest, ih]

/-! ## Values -/

/-- The name of a blocklist is read whole. -/
theorem identifier_run {name t rest : List Char} (hname : ∀ c ∈ name, isIdentifierChar c = true)
    (h : sameIgnoringCase name t = true) (hrest : Behind [';'] rest) :
    identifierOf (t ++ rest) = t ∧ afterIdentifier (t ++ rest) = rest := by
  have hid := isIdentifierChar_of_same hname h
  have hend := hrest.ends (fun _ => not_identifierChar_of_spacing) (by decide)
  exact ⟨takeWhile_run hid hend, dropWhile_run hid hend⟩

theorem Value.read {words : List String} {name : RuleName} {t rest : List Char} {r : Rule}
    (h : Value words name t r) (hrest : Behind [';'] rest) :
    ∃ left, readValue words name (t ++ rest) = .ok (some r) left ∧
      skipSpacing left = skipSpacing rest := by
  cases h with
  | @classes t cs role hcs =>
    have hne : cs ≠ [] := by cases hcs <;> simp
    refine ⟨skipSpacing rest, ?_, skipSpacing_skipSpacing rest⟩
    simp [readValue, hcs.read hrest, hne]
  | limit l hn =>
    refine ⟨rest, ?_, rfl⟩
    simp [readValue, hn.read hrest]
  | defaultList ht =>
    obtain ⟨hid, hafter⟩ := identifier_run isIdentifierChar_of_mem_default ht hrest
    have hne := ne_nil_of_same (by decide) ht
    refine ⟨rest, ?_, rfl⟩
    simp [readValue, readBlocklist, hid, hafter, hne, ht]
  | @source t source hs ht =>
    obtain ⟨hid, hafter⟩ := identifier_run (isIdentifierChar_of_mem_source _ hs) ht hrest
    have hne := ne_nil_of_same (source_ne_nil _ hs) ht
    have hdefault : ¬sameIgnoringCase defaultBlocklist.toList t = true := by
      rw [sameIgnoringCase_iff, ← sameIgnoringCase_iff.1 ht]
      exact (source_ne_default _ hs).symm
    refine ⟨rest, ?_, rfl⟩
    simp [readValue, readBlocklist, hid, hafter, hne, hdefault, findSource_of_same hs ht]

/-! ## Rules and documents -/

theorem Statement.begins {words : List String} {t : List Char} {r : Rule}
    (h : Statement words t r) : ∃ c u, t = c :: u ∧ isIdentifierChar c = true := by
  obtain @⟨name, s, s', t, r, -, -, -⟩ := h
  obtain ⟨c, u, hname⟩ := List.exists_cons_of_ne_nil name.name_ne_nil
  have hc := name.isIdentifierChar_of_mem_name c (hname ▸ List.mem_cons_self)
  exact ⟨c, _, by rw [hname]; rfl, hc⟩

theorem Statement.read {words : List String} {t rest : List Char} {r : Rule}
    (h : Statement words t r) (hrest : Behind [';'] rest) :
    ∃ left, readRule words (t ++ rest) = .ok (some r) left ∧
      skipSpacing left = skipSpacing rest := by
  obtain @⟨name, s, s', t, r, hs, hs', hv⟩ := h
  obtain ⟨left, hread, hleft⟩ := hv.read hrest
  refine ⟨left, ?_, hleft⟩
  have hid := name.isIdentifierChar_of_mem_name
  have hend : ∀ c more, s ++ ':' :: (s' ++ (t ++ rest)) = c :: more →
      isIdentifierChar c = false :=
    fun c more hm => (ends_class hs (by decide) c more hm).1
  have htext : name.name.toList ++ s ++ ':' :: (s' ++ t) ++ rest =
      name.name.toList ++ (s ++ ':' :: (s' ++ (t ++ rest))) := by simp
  have hcolon : skipSpacing (s ++ ':' :: (s' ++ (t ++ rest))) = ':' :: (s' ++ (t ++ rest)) := by
    rw [skipSpacing_append hs]
    exact skipSpacing_cons (by decide) _
  rw [htext, readRule, identifierOf, afterIdentifier, takeWhile_run hid hend,
    dropWhile_run hid hend, if_neg name.name_ne_nil, RuleName.ofName?_name]
  simp [hcolon, hv.begins.skipSpacing_eq hs', hv.begins.not_atRuleEnd, hread]

/-- A rule is read, and reading goes on behind the semicolon if one stands there. -/
theorem Statement.readRules_eq {words : List String} {t rest : List Char} {r : Rule}
    (h : Statement words t r) (hrest : Behind [';'] rest) :
    readRules words (t ++ rest) = match skipSpacing rest with
      | [] => ⟨[], [r], .complete⟩
      | _ :: more => (readRules words (skipSpacing more)).after [] [r] := by
  obtain ⟨left, hread, hleft⟩ := h.read hrest
  obtain ⟨c, u, rfl, hc⟩ := h.begins
  rw [readRules_of_head rfl hc, hread]
  simp only [Reading.ok, hleft]
  cases hm : skipSpacing rest with
  | nil => rfl
  | cons d more =>
    have hd : d = ';' := by simpa using hrest d more hm
    simp [hd]

theorem Statements.begins {words : List String} {t : List Char} {rs : List Rule}
    (h : Statements words t rs) : ∃ c u, t = c :: u ∧ isSpacing c = false := by
  have hfirst {u v : List Char} {r : Rule} (hr : Statement words u r) :
      ∃ c w, u ++ v = c :: w ∧ isSpacing c = false := by
    obtain ⟨c, w, rfl, hc⟩ := hr.begins
    exact ⟨c, w ++ v, rfl, not_spacing_of_identifierChar hc⟩
  cases h with
  | last hr => exact hfirst hr
  | ended hr => rw [List.append_assoc]; exact hfirst hr
  | cons hr => rw [List.append_assoc]; exact hfirst hr

theorem Statements.read {words : List String} {t : List Char} {rs : List Rule}
    (h : Statements words t rs) : readRules words t = ⟨[], rs, .complete⟩ := by
  have hempty : readRules words [] = ⟨[], [], .complete⟩ := by simp [readRules]
  have hsemi {s : List Char} (hs : Spacing s) (u : List Char) :
      skipSpacing (s ++ ';' :: u) = ';' :: u := by
    rw [skipSpacing_append hs]
    exact skipSpacing_cons (by decide) u
  have hbehind {s : List Char} (hs : Spacing s) (u : List Char) : Behind [';'] (s ++ ';' :: u) :=
    behind_append hs (behind_cons (by decide) List.mem_cons_self)
  induction h with
  | last hr hs => rw [hr.readRules_eq (behind_spacing hs), skipSpacing_eq_nil hs]
  | ended hr hs hs' =>
    rw [List.append_assoc, hr.readRules_eq (hbehind hs _), hsemi hs]
    simp only [skipSpacing_eq_nil hs', hempty]
    rfl
  | cons hr hs hs' hu ih =>
    obtain ⟨c, u, rfl, hc⟩ := hu.begins
    rw [List.append_assoc, hr.readRules_eq (hbehind hs _), hsemi hs]
    simp only [skipSpacing_append hs', skipSpacing_cons hc, ih]
    rfl

/-- **A derivable document is read as the rules it is derived for, and nothing is found.** -/
theorem Document.read {words : List String} {text : List Char} {rs : List Rule}
    (h : Document words text rs) : readDocument words text = ⟨[], rs, .complete⟩ := by
  cases h with
  | empty hs =>
    rw [readDocument, skipSpacing_eq_nil hs]
    simp [readRules]
  | rules hs hrs =>
    obtain ⟨c, u, rfl, hc⟩ := hrs.begins
    rw [readDocument, skipSpacing_append hs, skipSpacing_cons hc, hrs.read]

end PasswordPolicy.Grammar
