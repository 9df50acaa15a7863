import PasswordPolicy.Proofs.GrammarComplete
import PasswordPolicy.Report

/-!
# Rendered rules are derivable

**What can be written.** A list of rules can be written down if each list of classes in it is not
empty, brackets hold printable characters, at least one, ranges are not zero throughout, and each
blocklist is a known source or the default one (`Rule.Writable`).

**What is written.** Inside brackets only one dash and one closing bracket are kept, so the rules
that a document states are those that were rendered with their brackets in that order
(`Rule.written`). Nothing else is lost: a rendered list of rules is derivable for what was written
(`document_renderRules`), and what is derivable is read.
-/

namespace PasswordPolicy

open Text Grammar

/-! ## What can be written, and what is written -/

def ClassBody.Writable : ClassBody → Prop
  | named _ => True
  | custom cs => cs ≠ [] ∧ ∀ c ∈ cs, isPrintable c = true

def CharClass.Writable (c : CharClass) : Prop :=
  c.body.Writable ∧ ∀ r ∈ c.range, ¬(r.least = 0 ∧ r.most = 0)

def Rule.Writable (words : List String) : Rule → Prop
  | classes _ cs => cs ≠ [] ∧ ∀ c ∈ cs, c.Writable
  | limit _ _ => True
  | blocklist ws => (∃ source ∈ blocklistSources, ws = [source]) ∨ ws = words

instance : (b : ClassBody) → Decidable b.Writable
  | .named _ => .isTrue trivial
  | .custom cs => decidable_of_iff (cs ≠ [] ∧ cs.all isPrintable = true)
      (and_congr_right fun _ => List.all_eq_true)

instance (c : CharClass) : Decidable c.Writable := by unfold CharClass.Writable; infer_instance

instance (words : List String) (r : Rule) : Decidable (r.Writable words) := by
  cases r <;> unfold Rule.Writable <;> infer_instance

def ClassBody.written : ClassBody → ClassBody
  | named n => named n
  | custom cs => custom (bracketOrder cs)

/-- The class with its members in the order in which they are written. -/
def CharClass.written (c : CharClass) : CharClass :=
  { c with body := c.body.written }

def Rule.written : Rule → Rule
  | classes role cs => classes role (cs.map CharClass.written)
  | limit l n => limit l n
  | blocklist ws => blocklist ws

/-! ## Classes -/

theorem spacing_nil : Spacing [] := by simp [Spacing]

theorem spacing_blank : Spacing [' '] := by simp [Spacing, isSpacing]

theorem numeral_digits (n : UInt32) : Numeral (digits n) n :=
  count?_eq_some_iff.1 (count?_digits n)

theorem side_digits {s : List Char} (hs : Spacing s) (n : UInt32) : Side (s ++ digits n) n := by
  have hdigits : (s ++ digits n).filter Char.isDigit = digits n := by
    have hnone : s.filter Char.isDigit = [] :=
      List.filter_eq_nil_iff.2 fun c hc => by simp [not_digit_of_spacing (hs c hc)]
    rw [List.filter_append, List.filter_eq_self.2 fun _ => isDigit_of_mem_digits, hnone,
      List.nil_append]
  refine ⟨fun c hc => ?_, by rw [hdigits]; exact numeral_digits n⟩
  rcases List.mem_append.1 hc with hc | hc
  · exact .inr (.inl (hs c hc))
  · exact .inl (isDigit_of_mem_digits hc)

theorem range_render {r : CountRange} (h : ¬(r.least = 0 ∧ r.most = 0)) :
    Grammar.Range r.render r := by
  have hl := side_digits spacing_nil r.least
  have hm := side_digits spacing_blank r.most
  have hr := Grammar.Range.mk hl hm h
  simpa [CountRange.render] using hr

theorem members_bracketOrder {cs : List Char} (h : ∀ c ∈ cs, isPrintable c = true) :
    Members (bracketOrder cs) := by
  refine .mk (by by_cases hd : '-' ∈ cs <;> simp [hd]) (fun c hc => ?_)
    (by by_cases hb : ']' ∈ cs <;> simp [hb])
  obtain ⟨hmem, hplain⟩ := List.mem_filter.1 hc
  exact ⟨h c hmem, by simpa using hplain⟩

theorem bracketOrder_ne_nil {cs : List Char} (h : cs ≠ []) : bracketOrder cs ≠ [] := by
  obtain ⟨c, u, rfl⟩ := List.exists_cons_of_ne_nil h
  have hc : c ∈ bracketOrder (c :: u) := mem_bracketOrder_iff.2 List.mem_cons_self
  exact List.ne_nil_of_mem hc

theorem body_render {b : ClassBody} (h : b.Writable) : Body b.render b.written := by
  cases b with
  | named n => exact .named n (sameIgnoringCase_self _)
  | custom cs => exact .custom (members_bracketOrder h.2) (bracketOrder_ne_nil h.1)

theorem item_render {c : CharClass} (h : c.Writable) : Item c.render c.written := by
  obtain ⟨b, range⟩ := c
  have hb : Body b.render b.written := body_render h.1
  cases range with
  | none =>
    rw [CharClass.render, Option.elim_none, List.append_nil]
    exact .plain hb
  | some r =>
    have hi := Item.ranged hb spacing_nil (range_render (h.2 r rfl))
    rw [List.append_nil] at hi
    exact hi

theorem items_render {cs : List CharClass} (hne : cs ≠ []) (h : ∀ c ∈ cs, c.Writable) :
    Items ([',', ' '].intercalate (cs.map CharClass.render)) (cs.map CharClass.written) := by
  induction cs with
  | nil => exact absurd rfl hne
  | cons c cs ih =>
    have hc := item_render (h c List.mem_cons_self)
    cases cs with
    | nil => simpa using Items.one hc
    | cons d cs =>
      have hcs := ih (List.cons_ne_nil d cs) fun e he => h e (List.mem_cons_of_mem c he)
      have hall := Items.cons hc spacing_nil spacing_blank hcs
      simpa using hall

/-! ## Rules -/

theorem value_render {words : List String} {r : Rule} (h : r.Writable words) :
    Value words r.name r.renderValue r.written := by
  cases r with
  | classes role cs => exact .classes role (items_render h.1 h.2)
  | limit l n => exact .limit l (numeral_digits n)
  | blocklist ws =>
    -- A blocklist that is written as a source holds nothing else, even if it is the default one.
    by_cases hs : ∃ source ∈ blocklistSources, ws = [source]
    · obtain ⟨source, hsource, rfl⟩ := hs
      have hname : blocklistName [source] = source := by simp [blocklistName, hsource]
      exact .source hsource (by rw [Rule.renderValue, hname]; exact sameIgnoringCase_self _)
    · have hwords : ws = words := h.resolve_left hs
      have hname : blocklistName ws = defaultBlocklist := by
        unfold blocklistName
        split
        · next source => exact if_neg fun hsource => hs ⟨source, hsource, rfl⟩
        · rfl
      subst hwords
      rw [Rule.renderValue, hname]
      exact .defaultList (sameIgnoringCase_self _)

theorem statement_render {words : List String} {r : Rule} (h : r.Writable words) :
    Statement words r.render r.written := by
  have hs := Statement.mk spacing_nil spacing_blank (value_render h)
  simpa [Rule.render] using hs

theorem statements_renderRules {words : List String} {rules : List Rule} (hne : rules ≠ [])
    (h : ∀ r ∈ rules, r.Writable words) :
    Statements words (renderRules rules) (rules.map Rule.written) := by
  induction rules with
  | nil => exact absurd rfl hne
  | cons r rules ih =>
    have hr := statement_render (h r List.mem_cons_self)
    cases rules with
    | nil =>
      have hend := Statements.ended hr spacing_nil spacing_nil
      simpa [renderRules] using hend
    | cons q rules =>
      have hrest := ih (List.cons_ne_nil q rules) fun p hp => h p (List.mem_cons_of_mem r hp)
      have hall := Statements.cons hr spacing_nil spacing_blank hrest
      simpa [renderRules] using hall

theorem document_renderRules {words : List String} {rules : List Rule}
    (h : ∀ r ∈ rules, r.Writable words) :
    Document words (renderRules rules) (rules.map Rule.written) := by
  cases rules with
  | nil => exact .empty spacing_nil
  | cons r rules =>
    exact .rules spacing_nil (statements_renderRules (List.cons_ne_nil r rules) h)

/-! ## Reading back -/

/-- **Rendered rules are read back**: a document that states the rules gives them again in their
order, as they were written, and nothing is found in it. -/
theorem rendered_rules_read_back (words : List String) (rules : List Rule)
    (h : ∀ r ∈ rules, r.Writable words) :
    (readDocument words (documentOf rules).toList).rules? = some (rules.map Rule.written) ∧
      diagnosticsOf (documentOf rules).toList (readDocument words (documentOf rules).toList) =
        [] := by
  rw [documentOf, String.toList_ofList, (document_renderRules h).read]
  exact ⟨rfl, rfl⟩

/-- Brackets full of marks of the language, a range, and both kinds of blocklist. -/
def markedRules : List Rule :=
  [.classes .required [⟨.custom [']', ';', 'a', '-', '(', ',', '-', 'a', ']', '['], some ⟨0, 3⟩⟩,
      .named .asciiPrintable],
    .blocklist ["hibp"], .limit .maxLength 4294967295, .blocklist ["secret", "letmein"],
    .classes .allowed [.custom ['-'], .custom [']']]]

theorem markedRules_read_back :
    (∀ r ∈ markedRules, r.Writable ["secret", "letmein"]) ∧
      (readDocument ["secret", "letmein"] (documentOf markedRules).toList).rules? = some
        [.classes .required [⟨.custom ['-', ';', 'a', '(', ',', 'a', '[', ']'], some ⟨0, 3⟩⟩,
            .named .asciiPrintable],
          .blocklist ["hibp"], .limit .maxLength 4294967295, .blocklist ["secret", "letmein"],
          .classes .allowed [.custom ['-'], .custom [']']]] := by
  have hw : ∀ r ∈ markedRules, r.Writable ["secret", "letmein"] := by decide
  refine ⟨hw, (rendered_rules_read_back _ _ hw).1.trans ?_⟩
  decide

end PasswordPolicy
