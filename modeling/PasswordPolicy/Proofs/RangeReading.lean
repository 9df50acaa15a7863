import Mathlib.Data.List.TakeWhile
import PasswordPolicy.Proofs.GrammarSound

/-!
# What becomes of a range

**Where a range ends** depends on the first semicolon or closing parenthesis alone, whatever else
stands inside. At a semicolon, or at the end of the text, the range is not terminated, and it is
dropped up to there.

**What a terminated range says** is in the text between the parentheses: two numbers with a comma
between them (`InsideRange`). If it says nothing, the range is malformed, and it is dropped with its
closing parenthesis.

Main result: `readRange_decides`, every text behind an opening parenthesis is one of these, and a
range that is dropped has one finding, at its opening parenthesis.
-/

namespace PasswordPolicy

open Text Grammar

/-- Digits, spacing, opening parentheses and one comma; the digits in front of the comma are the
least number, those behind it the most, and the two are not both zero. -/
structure InsideRange (inside : List Char) (r : CountRange) : Prop where
  only : ∀ c ∈ inside, c.isDigit = true ∨ isSpacing c = true ∨ c = '(' ∨ c = ','
  comma : inside.count ',' = 1
  least : Numeral ((inside.takeWhile (· ≠ ',')).filter Char.isDigit) r.least
  most : Numeral ((inside.dropWhile (· ≠ ',')).filter Char.isDigit) r.most
  notZero : ¬(r.least = 0 ∧ r.most = 0)

/-! ## Both sides of the comma -/

section Comma

variable {left right : List Char}

theorem takeWhile_comma (h : ',' ∉ left) :
    (left ++ ',' :: right).takeWhile (· ≠ ',') = left := by
  refine takeWhile_run (fun c hc => decide_eq_true fun heq => h (heq ▸ hc)) fun c more hc => ?_
  cases hc
  rfl

theorem dropWhile_comma (h : ',' ∉ left) :
    (left ++ ',' :: right).dropWhile (· ≠ ',') = ',' :: right := by
  refine dropWhile_run (fun c hc => decide_eq_true fun heq => h (heq ▸ hc)) fun c more hc => ?_
  cases hc
  rfl

theorem count_comma (hl : ',' ∉ left) (hr : ',' ∉ right) :
    (left ++ ',' :: right).count ',' = 1 := by
  rw [List.count_append, List.count_cons_self, List.count_eq_zero.2 hl, List.count_eq_zero.2 hr]

/-- A text with one comma is what stands in front of it and what stands behind it. -/
theorem exists_sides {inside : List Char} (h : inside.count ',' = 1) :
    ∃ left right, inside = left ++ ',' :: right ∧ ',' ∉ left ∧ ',' ∉ right := by
  have hmem : ',' ∈ inside := List.count_pos_iff.1 (by omega)
  obtain ⟨left, right, rfl, hl⟩ := List.eq_append_cons_of_mem hmem
  refine ⟨left, right, rfl, hl, List.count_eq_zero.1 ?_⟩
  rw [List.count_append, List.count_cons_self, List.count_eq_zero.2 hl] at h
  omega

end Comma

theorem Grammar.Side.comma_notMem {side : List Char} {n : UInt32} (h : Side side n) :
    ',' ∉ side :=
  fun hc => absurd (h.only _ hc) (by decide)

theorem Grammar.Range.sides {inside : List Char} {r : CountRange}
    (h : Grammar.Range ('(' :: inside ++ [')']) r) :
    ∃ left right, inside = left ++ ',' :: right ∧ Side left r.least ∧ Side right r.most ∧
      ¬(r.least = 0 ∧ r.most = 0) := by
  generalize htext : '(' :: inside ++ [')'] = text at h
  obtain @⟨left, right, least, most, hl, hr, hne⟩ := h
  exact ⟨left, right, (List.cons.inj (List.append_cancel_right htext)).2, hl, hr, hne⟩

theorem range_iff_insideRange {inside : List Char} {r : CountRange} :
    Grammar.Range ('(' :: inside ++ [')']) r ↔ InsideRange inside r := by
  constructor
  · intro h
    obtain ⟨left, right, rfl, hl, hr, hne⟩ := h.sides
    have hnl := hl.comma_notMem
    have hnr := hr.comma_notMem
    refine ⟨fun c hc => ?_, count_comma hnl hnr, ?_, ?_, hne⟩
    · rcases List.mem_append.1 hc with hc | hc
      · exact (hl.only c hc).imp_right (·.imp_right .inl)
      · rcases List.mem_cons.1 hc with rfl | hc
        · exact .inr (.inr (.inr rfl))
        · exact (hr.only c hc).imp_right (·.imp_right .inl)
    · rw [takeWhile_comma hnl]
      exact hl.numeral
    · rw [dropWhile_comma hnl]
      exact hr.numeral
  · intro h
    obtain ⟨left, right, rfl, hnl, hnr⟩ := exists_sides h.comma
    have hleast := h.least
    have hmost := h.most
    rw [takeWhile_comma hnl] at hleast
    rw [dropWhile_comma hnl] at hmost
    have hside : ∀ c ∈ left ++ ',' :: right, c ≠ ',' →
        c.isDigit = true ∨ isSpacing c = true ∨ c = '(' := by
      intro c hc hcomma
      rcases h.only c hc with hd | hs | hp | hcomma'
      · exact .inl hd
      · exact .inr (.inl hs)
      · exact .inr (.inr hp)
      · exact absurd hcomma' hcomma
    refine .mk ⟨fun c hc => ?_, hleast⟩ ⟨fun c hc => ?_, hmost⟩ h.notZero
    · exact hside c (List.mem_append_left _ hc) fun heq => hnl (heq ▸ hc)
    · exact hside c (by simp [hc]) fun heq => hnr (heq ▸ hc)

theorem rangeOf?_eq_some_iff {inside : List Char} {r : CountRange} :
    rangeOf? ('(' :: inside) = some r ↔ InsideRange inside r := by
  rw [← range_iff_insideRange]
  refine ⟨range_of_rangeOf?, fun h => ?_⟩
  obtain ⟨left, right, rfl, hl, hr, hne⟩ := h.sides
  exact rangeOf?_eq_some hl hr hne

/-! ## Where a range ends -/

section Ends

variable {inside rest : List Char} (h : ∀ c ∈ inside, c ≠ ';' ∧ c ≠ ')')
include h

theorem isRangeInside_of_mem : ∀ c ∈ '(' :: inside, isRangeInside c = true := by
  intro c hc
  rcases List.mem_cons.1 hc with rfl | hc
  · rfl
  · simp [isRangeInside, h c hc]

theorem readRange_endless : readRange ('(' :: inside) =
    ⟨[⟨.unterminatedRange, '(' :: inside⟩], .read none []⟩ := by
  have hdrop : ('(' :: inside).dropWhile isRangeInside = [] :=
    List.dropWhile_eq_nil_iff.2 (isRangeInside_of_mem h)
  rw [readRange_of_unclosed (by simp [hdrop]), hdrop]
  rfl

theorem readRange_semicolon : readRange ('(' :: (inside ++ ';' :: rest)) =
    ⟨[⟨.unterminatedRange, '(' :: (inside ++ ';' :: rest)⟩], .read none (';' :: rest)⟩ := by
  have hdrop : ('(' :: inside ++ ';' :: rest).dropWhile isRangeInside = ';' :: rest :=
    dropWhile_run (isRangeInside_of_mem h) fun c more hc => by cases hc; rfl
  rw [List.cons_append] at hdrop
  rw [readRange_of_unclosed (by simp [hdrop]), hdrop]
  rfl

theorem readRange_closed : readRange ('(' :: (inside ++ ')' :: rest)) =
    match rangeOf? ('(' :: inside) with
    | some r => ⟨[], .read (some r) rest⟩
    | none => ⟨[⟨.malformedRange, '(' :: (inside ++ ')' :: rest)⟩], .read none rest⟩ := by
  have hend : ∀ c more, ')' :: rest = c :: more → isRangeInside c = false := by
    rintro c more ⟨⟩
    rfl
  have hdrop := dropWhile_run (isRangeInside_of_mem h) hend
  have htake := takeWhile_run (isRangeInside_of_mem h) hend
  rw [List.cons_append] at hdrop htake
  rw [readRange_of_closed hdrop, htake]
  cases rangeOf? ('(' :: inside) <;> rfl

theorem readRange_closed_iff {r : CountRange} : readRange ('(' :: (inside ++ ')' :: rest)) =
    ⟨[], .read (some r) rest⟩ ↔ InsideRange inside r := by
  rw [readRange_closed h, ← rangeOf?_eq_some_iff]
  cases rangeOf? ('(' :: inside) with
  | none => simp
  | some s => simp

theorem readRange_malformed (hnone : ∀ r, ¬InsideRange inside r) :
    readRange ('(' :: (inside ++ ')' :: rest)) =
      ⟨[⟨.malformedRange, '(' :: (inside ++ ')' :: rest)⟩], .read none rest⟩ := by
  have hsays : rangeOf? ('(' :: inside) = none :=
    Option.eq_none_iff_forall_ne_some.2 fun r hr => hnone r (rangeOf?_eq_some_iff.1 hr)
  rw [readRange_closed h, hsays]

end Ends

/-- A text is inside a range up to its first semicolon or closing parenthesis. -/
theorem exists_inside (text : List Char) :
    ∃ inside, (∀ c ∈ inside, c ≠ ';' ∧ c ≠ ')') ∧
      (text = inside ∨ (∃ rest, text = inside ++ ';' :: rest) ∨
        ∃ rest, text = inside ++ ')' :: rest) := by
  have hinside : ∀ c ∈ text.takeWhile isRangeInside, c ≠ ';' ∧ c ≠ ')' := by
    intro c hc
    have hc := List.all_eq_true.1 List.all_takeWhile c hc
    simpa [isRangeInside] using hc
  have hsplit : text = text.takeWhile isRangeInside ++ text.dropWhile isRangeInside :=
    List.takeWhile_append_dropWhile.symm
  refine ⟨_, hinside, ?_⟩
  cases hdrop : text.dropWhile isRangeInside with
  | nil =>
    rw [hdrop, List.append_nil] at hsplit
    exact .inl hsplit
  | cons c rest =>
    rw [hdrop] at hsplit
    have hc : c = ';' ∨ c = ')' := by
      have hstop := List.head?_dropWhile_not isRangeInside text
      rw [hdrop] at hstop
      simpa [isRangeInside, Decidable.or_iff_not_imp_left] using hstop
    rcases hc with rfl | rfl
    · exact .inr (.inl ⟨rest, hsplit⟩)
    · exact .inr (.inr ⟨rest, hsplit⟩)

/-- **Every range is decided.** What stands behind an opening parenthesis, up to the first semicolon
or closing parenthesis, decides what becomes of it. Without either, or with a semicolon first, the
range is not terminated: it has that one finding and gives no value, and reading goes on at the
semicolon. With a closing parenthesis first, reading goes on behind it. The range is read, without a
finding, exactly if the text inside says one, and otherwise it is malformed: that is its one
finding, and it gives no value. -/
theorem readRange_decides (text : List Char) :
    ∃ inside, (∀ c ∈ inside, c ≠ ';' ∧ c ≠ ')') ∧
      ((text = inside ∧ readRange ('(' :: text) =
          ⟨[⟨.unterminatedRange, '(' :: text⟩], .read none []⟩) ∨
        (∃ rest, text = inside ++ ';' :: rest ∧ readRange ('(' :: text) =
          ⟨[⟨.unterminatedRange, '(' :: text⟩], .read none (';' :: rest)⟩) ∨
        ∃ rest, text = inside ++ ')' :: rest ∧
          (∀ r, readRange ('(' :: text) = ⟨[], .read (some r) rest⟩ ↔ InsideRange inside r) ∧
          ((∀ r, ¬InsideRange inside r) → readRange ('(' :: text) =
            ⟨[⟨.malformedRange, '(' :: text⟩], .read none rest⟩)) := by
  obtain ⟨inside, hinside, rfl | ⟨rest, rfl⟩ | ⟨rest, rfl⟩⟩ := exists_inside text
  · exact ⟨_, hinside, .inl ⟨rfl, readRange_endless hinside⟩⟩
  · exact ⟨_, hinside, .inr (.inl ⟨rest, rfl, readRange_semicolon hinside⟩)⟩
  · exact ⟨_, hinside, .inr (.inr ⟨rest, rfl, fun _ => readRange_closed_iff hinside,
      readRange_malformed hinside⟩)⟩

example : readRange "(1 (0, 2)x".toList = ⟨[], .read (some ⟨10, 2⟩) ['x']⟩ := by
  rfl

end PasswordPolicy
