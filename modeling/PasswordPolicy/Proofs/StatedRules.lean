import PasswordPolicy.Proofs.DocumentRun
import PasswordPolicy.Proofs.Rendering

/-!
# Rules as documents state them

Whatever a document holds, and whatever is found in it, the rules that are read can be written down
again, and they are written as they were read (`stated_of_mem_readDocument`). The readers are
followed one by one: a property of all their values is passed on when readers are composed
(`Reading.Yields`).
-/

namespace PasswordPolicy

open Text Grammar

/-! ## What a reading yields -/

/-- Every value that is read has the property. -/
def Reading.Yields {α : Type} (P : α → Prop) (r : Reading α) : Prop :=
  ∀ value rest, r.outcome = .read value rest → P value

namespace Reading.Yields

variable {α β : Type} {P : α → Prop} {Q : β → Prop} {r : Reading α} {value : α}
  {rest tail : List Char} {problem : Problem}

theorem ok (h : P value) : (Reading.ok value rest).Yields P := by
  intro v s hv
  cases hv
  exact h

theorem stopped : (Reading.stopped problem tail : Reading α).Yields P :=
  fun _ _ h => (nomatch h)

theorem abandoned : (Reading.abandoned problem tail : Reading α).Yields P :=
  fun _ _ h => (nomatch h)

theorem noting (h : r.Yields P) : (r.noting problem tail).Yields P := h

theorem bind {f : α → List Char → Reading β}
    (hf : ∀ value rest, r.outcome = .read value rest → (f value rest).Yields Q) :
    (r.bind f).Yields Q := by
  rcases r with ⟨fs, ⟨value, rest⟩ | _ | _⟩
  · exact hf value rest rfl
  · exact fun _ _ hv => (nomatch hv)
  · exact fun _ _ hv => (nomatch hv)

theorem map {f : α → β} (h : r.Yields P) (hf : ∀ value, P value → Q (f value)) :
    (r.map f).Yields Q :=
  bind fun value rest hv => .ok (hf value (h value rest hv))

end Reading.Yields

/-! ## Classes -/

/-- The class can be written and is written as it stands. -/
def CharClass.Stated (c : CharClass) : Prop :=
  c.Writable ∧ c.written = c

theorem bracketOrder_of_members {cs : List Char} (h : Members cs) : bracketOrder cs = cs := by
  obtain @⟨dash, inner, close, hdash, hinner, hclose⟩ := h
  have hdashes : '-' ∉ inner := fun hm => (hinner _ hm).2.1 rfl
  have hcloses : ']' ∉ inner := fun hm => (hinner _ hm).2.2 rfl
  have hkeep : inner.filter (fun c => c ≠ '-' ∧ c ≠ ']') = inner :=
    List.filter_eq_self.2 fun c hc => by simpa using (hinner c hc).2
  unfold bracketOrder
  rw [List.filter_append, List.filter_append, hkeep]
  rcases hdash with rfl | rfl <;> rcases hclose with rfl | rfl <;> simp [hdashes, hcloses]

theorem isPrintable_of_members {cs : List Char} (h : Members cs) :
    ∀ c ∈ cs, isPrintable c = true := by
  obtain @⟨dash, inner, close, hdash, hinner, hclose⟩ := h
  intro c hc
  rcases List.mem_append.1 hc with hc | hc
  · rcases List.mem_append.1 hc with hc | hc
    · rcases hdash with rfl | rfl
      · exact absurd hc List.not_mem_nil
      · rw [List.mem_singleton.1 hc]
        decide
    · exact (hinner c hc).1
  · rcases hclose with rfl | rfl
    · exact absurd hc List.not_mem_nil
    · rw [List.mem_singleton.1 hc]
      decide

theorem readMembers_yields (opening inside : List Char) :
    (readMembers opening inside).Yields fun cs => ∃ inner close, cs = inner ++ close ∧
      (∀ c ∈ inner, Plain c) ∧ (close = [] ∨ close = [']']) := by
  fun_induction readMembers opening inside with
  | case1 => exact .abandoned
  | case2 rest => exact .ok ⟨[], [']'], rfl, by simp, .inr rfl⟩
  | case3 rest => exact .ok ⟨[], [], rfl, by simp, .inl rfl⟩
  | case4 rest _ _ _ ih => exact ih.noting
  | case5 c rest _ hbracket _ hdash hp ih =>
    refine ih.map fun cs => ?_
    rintro ⟨inner, close, rfl, hinner, hclose⟩
    refine ⟨c :: inner, close, rfl, fun d hd => ?_, hclose⟩
    rcases List.mem_cons.1 hd with rfl | hd
    · exact ⟨hp, hdash, hbracket⟩
    · exact hinner d hd
  | case6 c rest _ _ _ _ _ ih => exact ih.noting

theorem readBrackets_yields (opening inside : List Char) :
    (readBrackets opening inside).Yields Members := by
  unfold readBrackets
  split
  · refine (readMembers_yields _ _).map fun cs => ?_
    rintro ⟨inner, close, rfl, hinner, hclose⟩
    exact .mk (.inr rfl) hinner hclose
  · intro cs rest hread
    obtain ⟨inner, close, rfl, hinner, hclose⟩ := readMembers_yields _ _ cs rest hread
    exact .mk (.inl rfl) hinner hclose

theorem ne_zero_of_rangeOf? {inside : List Char} {r : CountRange} (h : rangeOf? inside = some r) :
    ¬(r.least = 0 ∧ r.most = 0) := by
  unfold rangeOf? at h
  split at h
  · obtain ⟨l, -, h⟩ := Option.bind_eq_some_iff.1 h
    obtain ⟨m, -, h⟩ := Option.bind_eq_some_iff.1 h
    unfold CountRange.of? at h
    split at h
    · cases h
    · next hne =>
      cases h
      exact hne
  · cases h

theorem readRange_yields (text : List Char) :
    (readRange text).Yields fun range => ∀ r ∈ range, ¬(r.least = 0 ∧ r.most = 0) := by
  unfold readRange
  split
  · split
    · next r hr =>
      refine .ok fun s hs => ?_
      cases hs
      exact ne_zero_of_rangeOf? hr
    · exact .noting (.ok (by simp))
  · exact .noting (.ok (by simp))

theorem readOptionalRange_yields (text : List Char) :
    (readOptionalRange text).Yields fun range => ∀ r ∈ range, ¬(r.least = 0 ∧ r.most = 0) := by
  unfold readOptionalRange
  split
  · exact readRange_yields _
  · exact .ok (by simp)

theorem readClass_yields (text : List Char) :
    (readClass text).Yields fun found => ∀ c ∈ found, c.Stated := by
  unfold readClass
  split
  · exact .abandoned
  · split
    · refine .bind fun range rest hread => ?_
      have hrange := readOptionalRange_yields _ range rest hread
      split
      · refine .ok fun c hc => ?_
        cases hc
        exact ⟨⟨trivial, hrange⟩, rfl⟩
      · exact .noting (.ok (by simp))
    · split
      · refine .bind fun cs rest hread => .bind fun range more hread' => ?_
        have hcs := readBrackets_yields _ _ cs rest hread
        have hrange := readOptionalRange_yields _ range more hread'
        split
        · exact .noting (.ok (by simp))
        · next hne =>
          refine .ok fun c hc => ?_
          cases hc
          refine ⟨⟨⟨hne, isPrintable_of_members hcs⟩, hrange⟩, ?_⟩
          simp only [CharClass.written, ClassBody.written, bracketOrder_of_members hcs]
      · exact .abandoned

theorem readClassList_yields (text : List Char) :
    (readClassList text).Yields fun cs => ∀ c ∈ cs, c.Stated := by
  induction text using separator_induction with
  | step text ih =>
    rw [readClassList_eq]
    refine .bind fun found rest hread => ?_
    have hfound : ∀ c ∈ found.toList, c.Stated := fun c hc =>
      readClass_yields text found rest hread c (Option.mem_toList.1 hc)
    split
    · exact .ok hfound
    · next d more hm =>
      split
      · exact .ok hfound
      · split
        · have hrest := (readClass_within text).rest _ _ hread
          refine (ih rest d more hrest hm).map fun cs hcs c hc => ?_
          rcases List.mem_append.1 hc with hc | hc
          · exact hfound c hc
          · exact hcs c hc
        · exact .abandoned

/-! ## Rules and documents -/

/-- The rule can be written and is written as it stands. -/
def Rule.Stated (words : List String) (r : Rule) : Prop :=
  r.Writable words ∧ r.written = r

theorem stated_classes {words : List String} {role : Role} {cs : List CharClass} (hne : cs ≠ [])
    (h : ∀ c ∈ cs, c.Stated) : (Rule.classes role cs).Stated words := by
  refine ⟨⟨hne, fun c hc => (h c hc).1⟩, ?_⟩
  have hwritten : cs.map CharClass.written = cs :=
    (List.map_congr_left fun c hc => (h c hc).2).trans (List.map_id cs)
  exact congrArg (Rule.classes role) hwritten

theorem map_written_of_stated {words : List String} {role : Role} {cs : List CharClass}
    (h : (Rule.classes role cs).Stated words) : cs.map CharClass.written = cs := by
  have hwritten := h.2
  simpa [Rule.written] using hwritten

theorem readBlocklist_yields (words : List String) (text : List Char) :
    (readBlocklist words text).Yields fun found =>
      ∀ ws ∈ found, (Rule.blocklist ws).Stated words := by
  dsimp only [readBlocklist]
  split
  · exact .abandoned
  · split
    · refine .ok fun ws hws => ?_
      cases hws
      exact ⟨.inr rfl, rfl⟩
    · split
      · next source hsource =>
        refine .ok fun ws hws => ?_
        cases hws
        exact ⟨.inl ⟨source, List.mem_of_find?_eq_some hsource, rfl⟩, rfl⟩
      · exact .noting (.ok (by simp))

theorem readValue_yields (words : List String) (name : RuleName) (text : List Char) :
    (readValue words name text).Yields fun found => ∀ r ∈ found, r.Stated words := by
  cases name with
  | classes role =>
    refine (readClassList_yields text).map fun cs hcs r hr => ?_
    by_cases hne : cs = []
    · simp [hne] at hr
    · rw [if_neg hne] at hr
      cases hr
      exact stated_classes hne hcs
  | limit l =>
    refine .bind fun n rest _ => .ok fun r hr => ?_
    obtain ⟨m, -, rfl⟩ := Option.map_eq_some_iff.1 hr
    exact ⟨trivial, rfl⟩
  | blocklist =>
    refine (readBlocklist_yields words text).map fun found hfound r hr => ?_
    obtain ⟨ws, hws, rfl⟩ := Option.map_eq_some_iff.1 hr
    exact hfound ws hws

theorem readRule_yields (words : List String) (text : List Char) :
    (readRule words text).Yields fun found => ∀ r ∈ found, r.Stated words := by
  dsimp only [readRule]
  split
  · exact .stopped
  · split
    · exact .stopped
    · split
      · split
        · exact .noting (.ok (by simp))
        · exact readValue_yields words _ _
      · exact .stopped

theorem Round.stated {words : List String} {text next : List Char} {fs : List Finding}
    {rule : Option Rule} (h : Round words text fs rule next) :
    ∀ r ∈ rule.toList, r.Stated words := by
  obtain ⟨-, rest, hread, -⟩ := h
  intro r hr
  exact readRule_yields words text rule rest (by rw [hread]) r (Option.mem_toList.1 hr)

theorem Drafts.stated {words : List String} {text : List Char} {d : Draft}
    (h : Drafts words text d) : ∀ r ∈ d.rules, r.Stated words := by
  induction h with
  | nothing | noName | stop | abandon => exact List.forall_mem_nil _
  | last hround => exact hround.stated
  | unseparated hround => exact hround.stated
  | next hround _ ih => exact List.forall_mem_append.2 ⟨hround.stated, ih⟩

/-- **Every rule of a document** can be written, and is written as it was read. -/
theorem stated_of_mem_readDocument (words : List String) (text : List Char) :
    ∀ r ∈ (readDocument words text).rules, r.Stated words :=
  (drafts_readRules words _).stated

theorem policyOf_eq {words : List String} {minified : Bool} {rules : List Rule} {text : String}
    (h : (readDocument words text.toList).rules? = some rules) :
    policyOf words minified text = merge minified rules := by
  show (readDocument words text.toList).rules?.elim [] (merge minified) = merge minified rules
  rw [h]
  rfl

theorem stated_of_mem_rules? {words : List String} {rules : List Rule} {text : List Char}
    (h : (readDocument words text).rules? = some rules) :
    ∀ r ∈ rules, r.Stated words := by
  unfold Draft.rules? at h
  split at h
  · cases h
  · cases h
    exact stated_of_mem_readDocument words text

end PasswordPolicy
