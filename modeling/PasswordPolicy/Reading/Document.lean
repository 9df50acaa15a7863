import PasswordPolicy.Reading.ClassList

/-!
# Reading documents

**A rule** is a name, a colon and a value. A rule whose value is missing or of no use is dropped; an
unknown name or a missing colon ends the document, and what was read before stands.

**A draft** is what a document states, rule by rule, before the rules are merged.

Main results: `suffix_of_mem_readDocument`, every finding is at a tail of the document, so it can be
located there.
-/

namespace PasswordPolicy

open Text

/-! ## One rule -/

/-- Read the value of a rule. -/
def readValue (words : List String) (name : RuleName) (text : List Char) : Reading (Option Rule) :=
  match name with
  | .classes role =>
    (readClassList text).map fun cs => if cs = [] then none else some (.classes role cs)
  | .limit l => (readNumber text).map fun n => n.map (.limit l)
  | .blocklist => (readBlocklist words text).map fun ws => ws.map .blocklist

/-- Read a rule up to the end of its value. -/
def readRule (words : List String) (text : List Char) : Reading (Option Rule) :=
  if identifierOf text = [] then
    .stopped (.expected [.identifier]) text
  else
    match RuleName.ofName? (identifierOf text) with
    | none => .stopped (.unknownRule (String.ofList (identifierOf text))) text
    | some name =>
      match skipSpacing (afterIdentifier text) with
      | ':' :: rest =>
        let value := skipSpacing rest
        if atRuleEnd value then (Reading.ok none value).noting (.emptyValue name) text
        else readValue words name value
      | rest => .stopped (.expected [.char ':']) rest

theorem readValue_within (words : List String) (name : RuleName) (text : List Char) :
    (readValue words name text).Within text := by
  cases name with
  | classes role => exact .map (readClassList_within text)
  | limit l => exact .map (readNumber_within text)
  | blocklist => exact .map (readBlocklist_within words text)

theorem readRule_within (words : List String) (text : List Char) :
    (readRule words text).Within text := by
  have hs := (skipSpacing_suffix (afterIdentifier text)).trans (afterIdentifier_suffix text)
  dsimp only [readRule]
  split
  · exact .stopped List.suffix_rfl
  · split
    · exact .stopped List.suffix_rfl
    · split
      · next rest h =>
        rw [h] at hs
        have hv := (skipSpacing_suffix rest).trans ((List.suffix_cons ':' rest).trans hs)
        split
        · exact .noting List.suffix_rfl (.ok hv)
        · exact (readValue_within words _ _).trans hv
      · exact .stopped hs

/-! ## Documents -/

/-- How a document came to an end. -/
inductive Ending where
  /-- Everything was read. -/
  | complete
  /-- The rest was not read, and what was read before stands. -/
  | stopped
  /-- The document is not to be used. -/
  | abandoned
  deriving DecidableEq

structure Draft where
  findings : List Finding
  rules : List Rule
  ending : Ending

/-- The draft with the findings and rules of an earlier part of the document in front. -/
def Draft.after (findings : List Finding) (rules : List Rule) (d : Draft) : Draft :=
  ⟨findings ++ d.findings, rules ++ d.rules, d.ending⟩

/-- The rules that the draft states, unless it was abandoned. -/
def Draft.rules? (d : Draft) : Option (List Rule) :=
  if d.ending = .abandoned then none else some d.rules

/-- Read rules up to the end of the document, from the name of the first one on. -/
def readRules (words : List String) (text : List Char) : Draft :=
  match text.head? with
  | none => ⟨[], [], .complete⟩
  | some c =>
    if !isIdentifierChar c then
      ⟨[⟨.expected [.ruleName], text⟩], [], .stopped⟩
    else
      let first := readRule words text
      match _h : first.outcome with
      | .stop => ⟨first.findings, [], .stopped⟩
      | .abandon => ⟨first.findings, [], .abandoned⟩
      | .read rule rest =>
        match hr : skipSpacing rest with
        | [] => ⟨first.findings, rule.toList, .complete⟩
        | c :: more =>
          if c = ';' then
            (readRules words (skipSpacing more)).after first.findings rule.toList
          else
            ⟨first.findings ++ [⟨.expected [.char ';', .endOfText], c :: more⟩], rule.toList,
              .abandoned⟩
termination_by text.length
decreasing_by
  have h₁ := ((readRule_within words _).rest _ _ _h).length_le
  have h₂ := (skipSpacing_suffix rest).length_le
  have h₃ := (skipSpacing_suffix more).length_le
  simp only [hr, List.length_cons] at h₂
  omega

/-- The draft of a text that is not empty by its first rule and by what comes behind it. -/
theorem readRules_of_head {words : List String} {text : List Char} {c : Char}
    (h : text.head? = some c) (hc : isIdentifierChar c = true) :
    readRules words text =
      match (readRule words text).outcome with
      | .stop => ⟨(readRule words text).findings, [], .stopped⟩
      | .abandon => ⟨(readRule words text).findings, [], .abandoned⟩
      | .read rule rest =>
        match skipSpacing rest with
        | [] => ⟨(readRule words text).findings, rule.toList, .complete⟩
        | c :: more =>
          if c = ';' then
            (readRules words (skipSpacing more)).after (readRule words text).findings rule.toList
          else
            ⟨(readRule words text).findings ++ [⟨.expected [.char ';', .endOfText], c :: more⟩],
              rule.toList, .abandoned⟩ := by
  rw [readRules]
  simp only [h, hc, Bool.not_true, Bool.false_eq_true, if_false]
  cases hr : readRule words text with
  | mk fs o =>
    cases o with
    | stop => rfl
    | abandon => rfl
    | read rule rest =>
      dsimp only
      cases skipSpacing rest <;> rfl

/-- Every finding in a document is at a tail of it. -/
theorem suffix_of_mem_readRules (words : List String) (text : List Char) :
    ∀ f ∈ (readRules words text).findings, f.tail <:+ text := by
  induction text using separator_induction with
  | step text ih =>
    cases hh : text.head? with
    | none => simp [readRules, hh]
    | some c =>
      by_cases hc : isIdentifierChar c = true
      · have hw := readRule_within words text
        rw [readRules_of_head hh hc]
        split
        · exact hw.findings
        · exact hw.findings
        · next rule rest ho =>
          have hs := (skipSpacing_suffix rest).trans (hw.rest rule rest ho)
          split
          · exact hw.findings
          · next d more hm =>
            rw [hm] at hs
            have hmore := (skipSpacing_suffix more).trans ((List.suffix_cons d more).trans hs)
            split
            · intro f hf
              rcases List.mem_append.1 hf with hf | hf
              · exact hw.findings f hf
              · exact (ih rest d more (hw.rest rule rest ho) hm f hf).trans hmore
            · intro f hf
              rcases List.mem_append.1 hf with hf | hf
              · exact hw.findings f hf
              · rw [List.mem_singleton.1 hf]
                exact hs
      · simp [readRules, hh, hc]

/-- Read a document; `words` is the list that the default blocklist stands for. -/
def readDocument (words : List String) (text : List Char) : Draft :=
  readRules words (skipSpacing text)

theorem suffix_of_mem_readDocument (words : List String) (text : List Char) :
    ∀ f ∈ (readDocument words text).findings, f.tail <:+ text :=
  fun f hf => (suffix_of_mem_readRules words _ f hf).trans (skipSpacing_suffix text)

end PasswordPolicy
