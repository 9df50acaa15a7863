import PasswordPolicy.Proofs.ReadingLoops

/-!
# Every reader makes progress

**Within the text.** Whatever a reader is given, it leaves a tail of it unread, and its findings are
at tails of it.

**Going on.** Ranges and numbers are always read, at worst without a value: a problem with them is
reported, and reading goes on behind it (`Reading.GoesOn`).

**Progress.** A rule, a class and its brackets, and a range from its opening parenthesis on are
never read without a character (`Reading.Consumes`). Neither does a loop go on without one. So every
loop ends, whatever the text, and it ends after no more turns than there are characters and one.

Main result: `readers_make_progress`.
-/

namespace PasswordPolicy

open Text

variable {α β : Type}

/-! ## Reading at least one character -/

/-- If there is a value, some of the text was read for it. -/
def Reading.Consumes (text : List Char) (r : Reading α) : Prop :=
  ∀ value rest, r.outcome = .read value rest → ShorterTail rest text

namespace Reading

variable {text inner tail rest : List Char} {value : α} {problem : Problem} {r : Reading α}

theorem Consumes.ok (h : ShorterTail rest text) : (Reading.ok value rest).Consumes text := by
  intro value' rest' hread
  cases hread
  exact h

theorem Consumes.stopped : (Reading.stopped problem tail : Reading α).Consumes text :=
  fun _ _ hread => nomatch hread

theorem Consumes.abandoned : (Reading.abandoned problem tail : Reading α).Consumes text :=
  fun _ _ hread => nomatch hread

theorem Consumes.noting (h : r.Consumes text) : (r.noting problem tail).Consumes text :=
  h

theorem Consumes.trans_suffix (h : r.Consumes inner) (hinner : inner <:+ text) : r.Consumes text :=
  fun value rest hread => (h value rest hread).trans_suffix hinner

/-- A reader that stays within a shorter tail consumes what is in front of it. -/
theorem Within.consumes (h : r.Within inner) (hinner : ShorterTail inner text) : r.Consumes text :=
  fun value rest hread => hinner.suffix_trans (h.rest value rest hread)

theorem Consumes.bind {f : α → List Char → Reading β} (h : r.Consumes text)
    (hf : ∀ value rest, ShorterTail rest text → (f value rest).Consumes text) :
    (r.bind f).Consumes text := by
  rcases r with ⟨fs, ⟨value, rest⟩ | _ | _⟩
  · exact hf value rest (h value rest rfl)
  · exact fun _ _ hread => nomatch hread
  · exact fun _ _ hread => nomatch hread

theorem Consumes.map {f : α → β} (h : r.Consumes text) : (r.map f).Consumes text :=
  h.bind fun _ _ hrest => .ok hrest

/-- There is text left to read on from. -/
def GoesOn (r : Reading α) : Prop :=
  ∃ value rest, r.outcome = .read value rest

theorem GoesOn.ok (value : α) (rest : List Char) : (Reading.ok value rest).GoesOn :=
  ⟨value, rest, rfl⟩

theorem GoesOn.noting (h : r.GoesOn) : (r.noting problem tail).GoesOn :=
  h

end Reading

/-! ## Classes and ranges -/

theorem readMembers_consumes (opening inside : List Char) :
    (readMembers opening inside).Consumes inside := by
  fun_induction readMembers opening inside with
  | case1 => exact .abandoned
  | case2 rest => exact .ok (.of_cons (List.suffix_cons ']' rest) List.suffix_rfl)
  | case3 rest => exact .ok (.of_cons List.suffix_rfl List.suffix_rfl)
  | case4 rest _ _ _ ih => exact (ih.trans_suffix (List.suffix_cons _ rest)).noting
  | case5 c rest _ _ _ _ _ ih => exact (ih.trans_suffix (List.suffix_cons c rest)).map
  | case6 c rest _ _ _ _ _ ih => exact (ih.trans_suffix (List.suffix_cons c rest)).noting

theorem readBrackets_consumes (opening inside : List Char) :
    (readBrackets opening inside).Consumes inside := by
  unfold readBrackets
  split
  · next rest =>
    have hmembers := readMembers_consumes opening rest
    exact (hmembers.trans_suffix (List.suffix_cons '-' rest)).map
  · exact readMembers_consumes opening inside

/-- Read a class from its opening bracket on, without a range. -/
def readBracketed : List Char → Reading (List Char)
  | '[' :: inside => readBrackets ('[' :: inside) inside
  | text => .stopped (.expected [.char '[']) text

theorem readBracketed_within (text : List Char) : (readBracketed text).Within text := by
  unfold readBracketed
  split
  · next inside => exact readBrackets_within List.suffix_rfl (List.suffix_cons '[' inside)
  · exact .stopped List.suffix_rfl

theorem readBracketed_consumes (text : List Char) : (readBracketed text).Consumes text := by
  unfold readBracketed
  split
  · next inside => exact (readBrackets_consumes _ inside).trans_suffix (List.suffix_cons '[' inside)
  · exact .stopped

theorem readRange_consumes {text : List Char} (h : text.head? = some '(') :
    (readRange text).Consumes text := by
  obtain ⟨inside, rfl⟩ := List.head?_eq_some_iff.1 h
  have hdrop : ('(' :: inside).dropWhile isRangeInside <:+ inside :=
    List.dropWhile_suffix (l := inside) isRangeInside
  have hshorter : ShorterTail (('(' :: inside).dropWhile isRangeInside) ('(' :: inside) :=
    .of_cons hdrop List.suffix_rfl
  unfold readRange
  split
  · next rest hclose =>
    have hrest := hshorter.suffix_trans (hclose ▸ List.suffix_cons ')' rest)
    split
    · exact .ok hrest
    · exact (Reading.Consumes.ok hrest).noting
  · exact (Reading.Consumes.ok hshorter).noting

theorem readRange_goesOn (text : List Char) : (readRange text).GoesOn := by
  unfold readRange
  split
  · split
    · exact .ok _ _
    · exact (Reading.GoesOn.ok _ _).noting
  · exact (Reading.GoesOn.ok _ _).noting

theorem readOptionalRange_goesOn (text : List Char) : (readOptionalRange text).GoesOn := by
  unfold readOptionalRange
  split
  · exact readRange_goesOn _
  · exact .ok _ _

theorem readNumber_goesOn (text : List Char) : (readNumber text).GoesOn := by
  dsimp only [readNumber]
  split
  · split
    · exact .ok _ _
    · exact (Reading.GoesOn.ok _ _).noting
  · exact (Reading.GoesOn.ok _ _).noting

theorem afterIdentifier_shorter {text : List Char} {c : Char} (h : text.head? = some c)
    (hc : isIdentifierChar c = true) : ShorterTail (afterIdentifier text) text := by
  obtain ⟨rest, rfl⟩ := List.head?_eq_some_iff.1 h
  rw [afterIdentifier, List.dropWhile_cons_of_pos hc]
  exact .of_cons (afterIdentifier_suffix rest) List.suffix_rfl

theorem readNamedClass_consumes {text : List Char} {c : Char} (h : text.head? = some c)
    (hc : isIdentifierChar c = true) : (readNamedClass text).Consumes text := by
  have hrange := (readOptionalRange_within _).consumes (afterIdentifier_shorter h hc)
  refine hrange.bind fun range rest hrest => ?_
  split
  · exact .ok hrest
  · exact (Reading.Consumes.ok hrest).noting

/-- A class in brackets is read bracket to bracket, and then its range. -/
theorem readCustomClass_of_bracket (inside : List Char) : readCustomClass ('[' :: inside) =
    (readBracketed ('[' :: inside)).bind fun cs rest =>
      (readOptionalRange rest).bind fun range rest =>
        if cs = [] then (Reading.ok none rest).noting .emptyCustomClass ('[' :: inside)
        else .ok (some ⟨.custom cs, range⟩) rest :=
  rfl

theorem readCustomClass_consumes {text : List Char} (h : text.head? = some '[') :
    (readCustomClass text).Consumes text := by
  obtain ⟨inside, rfl⟩ := List.head?_eq_some_iff.1 h
  rw [readCustomClass_of_bracket]
  refine (readBracketed_consumes _).bind fun cs rest hrest => ?_
  refine ((readOptionalRange_within rest).consumes hrest).bind fun range rest hrest => ?_
  split
  · exact (Reading.Consumes.ok hrest).noting
  · exact .ok hrest

theorem readClass_consumes (text : List Char) : (readClass text).Consumes text := by
  unfold readClass
  split
  · exact .abandoned
  · next c hhead =>
    split
    · next hc => exact readNamedClass_consumes hhead hc
    · split
      · next hopen => exact readCustomClass_consumes (hopen ▸ hhead)
      · exact .abandoned

/-! ## Rules -/

theorem readRule_consumes (words : List String) (text : List Char) :
    (readRule words text).Consumes text := by
  have hname := (skipSpacing_suffix (afterIdentifier text)).trans (afterIdentifier_suffix text)
  dsimp only [readRule]
  split
  · exact .stopped
  · split
    · exact .stopped
    · next name _ =>
      split
      · next rest hcolon =>
        rw [hcolon] at hname
        -- The colon alone makes what is left shorter, even if no value follows.
        have hvalue : ShorterTail (skipSpacing rest) text :=
          .of_cons (skipSpacing_suffix rest) hname
        split
        · exact (Reading.Consumes.ok hvalue).noting
        · exact (readValue_within words name _).consumes hvalue
      · exact .stopped

/-! ## All of them -/

/-- What the readers leave unread, and where their findings are, are tails of the text. -/
structure ReadersWithin (words : List String) (text : List Char) : Prop where
  rule : (readRule words text).Within text
  classList : (readClassList text).Within text
  oneClass : (readClass text).Within text
  brackets : (readBracketed text).Within text
  range : (readRange text).Within text
  optionalRange : (readOptionalRange text).Within text
  number : (readNumber text).Within text
  blocklist : (readBlocklist words text).Within text

/-- These readers neither stop nor abandon the document. -/
structure ReadersGoOn (text : List Char) : Prop where
  range : (readRange text).GoesOn
  optionalRange : (readOptionalRange text).GoesOn
  number : (readNumber text).GoesOn

/-- These readers give no value without reading a character. -/
structure ReadersConsume (words : List String) (text : List Char) : Prop where
  rule : (readRule words text).Consumes text
  oneClass : (readClass text).Consumes text
  brackets : (readBracketed text).Consumes text
  range : text.head? = some '(' → (readRange text).Consumes text

/-- No loop goes on without reading a character. -/
structure TurnsConsume (words : List String) : Prop where
  rules : ∀ s t, rulesTurn words s = .goOn t → ShorterTail t.tail s.tail
  classes : ∀ s t, classesTurn s = .goOn t → ShorterTail t.tail s.tail
  members : ∀ opening s t, membersTurn opening s = .goOn t → ShorterTail t.tail s.tail
  range : ∀ text s t, rangeTurn text s = .goOn t → ShorterTail t.tail s.tail

/-- From the front of the text on, every loop ends in time, with what its reader gives. -/
structure LoopsEnd (words : List String) (text : List Char) : Prop where
  rules : ∃ n ≤ text.length + 1,
    Ends (rulesTurn words) n ⟨skipSpacing text, [], []⟩ (readDocument words text)
  classes : ∃ n ≤ text.length + 1, Ends classesTurn n ⟨text, [], []⟩ (readClassList text)
  members : ∀ opening, ∃ n ≤ text.length + 1,
    Ends (membersTurn opening) n ⟨text, true, [], []⟩ (readBrackets opening text)
  range : ∃ n ≤ text.length + 1, Ends (rangeTurn text) n ⟨text, .start⟩ (readRange text)

theorem readersWithin (words : List String) (text : List Char) : ReadersWithin words text where
  rule := readRule_within words text
  classList := readClassList_within text
  oneClass := readClass_within text
  brackets := readBracketed_within text
  range := readRange_within text
  optionalRange := readOptionalRange_within text
  number := readNumber_within text
  blocklist := readBlocklist_within words text

theorem readersGoOn (text : List Char) : ReadersGoOn text where
  range := readRange_goesOn text
  optionalRange := readOptionalRange_goesOn text
  number := readNumber_goesOn text

theorem readersConsume (words : List String) (text : List Char) : ReadersConsume words text where
  rule := readRule_consumes words text
  oneClass := readClass_consumes text
  brackets := readBracketed_consumes text
  range := readRange_consumes

theorem turnsConsume (words : List String) : TurnsConsume words where
  rules _ _ := (rulesTurn_computes words).shorterTail
  classes _ _ := classesTurn_computes.shorterTail
  members opening _ _ := (membersTurn_computes opening).shorterTail
  range text _ _ := (rangeTurn_computes text).shorterTail

/-- With nothing read so far, a reading is what it is. -/
theorem Reading.after_nil {α : Type} (r : Reading (List α)) : r.after [] [] = r :=
  congrArg (Reading.mk r.findings) (Outcome.map_nil_append r.outcome)

theorem loopsEnd (words : List String) (text : List Char) : LoopsEnd words text where
  rules := by
    obtain ⟨n, hn, hends⟩ := (rulesTurn_computes words).ends ⟨skipSpacing text, [], []⟩
    have hlength := (skipSpacing_suffix text).length_le
    exact ⟨n, hn.trans (Nat.add_le_add_right hlength 1), hends⟩
  classes := by
    have hends := classesTurn_computes.ends ⟨text, [], []⟩
    rw [Reading.after_nil] at hends
    exact hends
  members opening := by
    have hends := (membersTurn_computes opening).ends ⟨text, true, [], []⟩
    rw [Reading.after_nil] at hends
    exact hends
  range := by
    have hends := (rangeTurn_computes text).ends ⟨text, .start⟩
    rw [readRangeFrom_start] at hends
    exact hends

/-- **Every reader makes progress within its text.** Whatever the text, the readers leave tails of
it and report at tails of it, and ranges and numbers always leave one; a rule, a class, its brackets
and a range take at least one character, and so does every turn after which a loop goes on. So the
loops end, and what they give is what the readers give. -/
theorem readers_make_progress (words : List String) :
    TurnsConsume words ∧ ∀ text, ReadersWithin words text ∧ ReadersGoOn text ∧
      ReadersConsume words text ∧ LoopsEnd words text :=
  ⟨turnsConsume words, fun text => ⟨readersWithin words text, readersGoOn text,
    readersConsume words text, loopsEnd words text⟩⟩

end PasswordPolicy
