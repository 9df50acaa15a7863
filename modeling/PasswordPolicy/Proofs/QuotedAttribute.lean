import Mathlib.Data.List.Infix
import PasswordPolicy.CharClass

/-!
# Classes inside quoted attributes

**Escaping.** In a quoted attribute every quote of a written class is a reference, `&quot;`, and all
else stands as it is. So the attribute does not end early. An ampersand is not escaped.

**Reading back** (`decodeQuotes`) turns every reference into a quote, also one that the class was
written with. Escaping and reading back undo each other up to that: what is read back is the text
with its own references read as quotes (`decodeQuotes_escaped`), and it never holds a reference
itself (`not_reference_infix_decodeQuotes`).

Main result: `attribute_reads_back_iff`, the texts that read back are those without a reference.
-/

namespace PasswordPolicy

/-- What a quote is written as. -/
def quoteReference : List Char := ['&', 'q', 'u', 'o', 't', ';']

/-- The text with every reference to a quote read as the quote, from left to right. -/
def decodeQuotes : List Char → List Char
  | '&' :: 'q' :: 'u' :: 'o' :: 't' :: ';' :: text => '\x22' :: decodeQuotes text
  | c :: text => c :: decodeQuotes text
  | [] => []

/-- The text as it stands in a quoted attribute. -/
def escapeQuotes (text : List Char) : List Char :=
  text.flatMap CharClass.attributeChar

theorem CharClass.renderAttribute_eq (c : CharClass) :
    c.renderAttribute = escapeQuotes c.render :=
  rfl

theorem escapeQuotes_quote (text : List Char) :
    escapeQuotes ('\x22' :: text) = quoteReference ++ escapeQuotes text :=
  rfl

theorem escapeQuotes_cons {c : Char} (hc : c ≠ '\x22') (text : List Char) :
    escapeQuotes (c :: text) = c :: escapeQuotes text := by
  simp [escapeQuotes, CharClass.attributeChar, hc]

theorem escapeQuotes_reference (text : List Char) :
    escapeQuotes (quoteReference ++ text) = quoteReference ++ escapeQuotes text :=
  rfl

theorem decodeQuotes_reference (text : List Char) :
    decodeQuotes (quoteReference ++ text) = '\x22' :: decodeQuotes text :=
  rfl

theorem decodeQuotes_cons {c : Char} {text : List Char} (h : ¬quoteReference <+: c :: text) :
    decodeQuotes (c :: text) = c :: decodeQuotes text := by
  rw [decodeQuotes]
  rintro rest rfl rfl
  exact h (List.prefix_append quoteReference rest)

/-- A text begins with a reference, or its first character is read as it stands. -/
theorem reference_induction {motive : List Char → Prop} (nil : motive [])
    (reference : ∀ text, motive text → motive (quoteReference ++ text))
    (other : ∀ c text, ¬quoteReference <+: c :: text → motive text → motive (c :: text))
    (text : List Char) : motive text := by
  fun_induction decodeQuotes text with
  | case1 text ih => exact reference text ih
  | case2 c text hnot ih =>
    refine other c text (fun h => ?_) ih
    obtain ⟨rest, hrest⟩ := h
    obtain ⟨rfl, rfl⟩ := List.cons.inj hrest
    exact hnot rest rfl rfl
  | case3 => exact nil

/-! ## References -/

/-- What is escaped begins with a text without ampersands only if it began so before. -/
theorem prefix_of_escaped {front text : List Char} (hfront : '&' ∉ front)
    (h : front <+: escapeQuotes text) : front <+: text := by
  induction front generalizing text with
  | nil => exact List.nil_prefix
  | cons d front ih =>
    cases text with
    | nil => exact absurd (List.prefix_nil.1 h) (List.cons_ne_nil d front)
    | cons c text =>
      by_cases hc : c = '\x22'
      · subst hc
        obtain ⟨rfl, -⟩ := List.cons_prefix_cons.1 h
        exact absurd List.mem_cons_self hfront
      · rw [escapeQuotes_cons hc] at h
        obtain ⟨rfl, hrest⟩ := List.cons_prefix_cons.1 h
        exact List.cons_prefix_cons.2 ⟨rfl, ih (List.not_mem_of_not_mem_cons hfront) hrest⟩

/-- What is read back begins with a text without quotes only if it began so before. -/
theorem prefix_of_decoded {front text : List Char} (hfront : '\x22' ∉ front)
    (h : front <+: decodeQuotes text) : front <+: text := by
  induction text using reference_induction generalizing front with
  | nil => exact h
  | reference text ih =>
    cases front with
    | nil => exact List.nil_prefix
    | cons d front =>
      obtain ⟨rfl, -⟩ := List.cons_prefix_cons.1 h
      exact absurd List.mem_cons_self hfront
  | other c text hnot ih =>
    cases front with
    | nil => exact List.nil_prefix
    | cons d front =>
      rw [decodeQuotes_cons hnot] at h
      obtain ⟨rfl, hrest⟩ := List.cons_prefix_cons.1 h
      exact List.cons_prefix_cons.2 ⟨rfl, ih (List.not_mem_of_not_mem_cons hfront) hrest⟩

/-- A reference in what was escaped is a quote, or it was there before. -/
theorem not_reference_prefix_escaped {c : Char} {text : List Char}
    (h : ¬quoteReference <+: c :: text) : ¬quoteReference <+: c :: escapeQuotes text := by
  intro hescaped
  obtain ⟨rfl, hrest⟩ := List.cons_prefix_cons.1 hescaped
  exact h (List.cons_prefix_cons.2 ⟨rfl, prefix_of_escaped (by decide) hrest⟩)

/-- No text is read back as one with a reference. -/
theorem not_reference_infix_decodeQuotes (text : List Char) :
    ¬quoteReference <:+: decodeQuotes text := by
  induction text using reference_induction with
  | nil => decide
  | reference text ih =>
    rw [decodeQuotes_reference, List.infix_cons_iff]
    rintro (h | h)
    · exact absurd (List.cons_prefix_cons.1 h).1 (by decide)
    · exact ih h
  | other c text hnot ih =>
    rw [decodeQuotes_cons hnot, List.infix_cons_iff]
    rintro (h | h)
    · obtain ⟨rfl, hrest⟩ := List.cons_prefix_cons.1 h
      exact hnot (List.cons_prefix_cons.2 ⟨rfl, prefix_of_decoded (by decide) hrest⟩)
    · exact ih h

theorem decodeQuotes_eq_self_iff {text : List Char} :
    decodeQuotes text = text ↔ ¬quoteReference <:+: text := by
  constructor
  · intro h
    rw [← h]
    exact not_reference_infix_decodeQuotes text
  · intro h
    induction text using reference_induction with
    | nil => rfl
    | reference text ih => exact absurd (List.prefix_append _ text).isInfix h
    | other c text hnot ih =>
      rw [decodeQuotes_cons hnot, ih fun hinfix => h (List.infix_cons hinfix)]

/-! ## Escaping and reading back -/

/-- What is read back is the text, with its own references read as quotes. -/
theorem decodeQuotes_escaped (text : List Char) :
    decodeQuotes (escapeQuotes text) = decodeQuotes text := by
  induction text using reference_induction with
  | nil => rfl
  | reference text ih =>
    rw [escapeQuotes_reference, decodeQuotes_reference, decodeQuotes_reference, ih]
  | other c text hnot ih =>
    rw [decodeQuotes_cons hnot]
    by_cases hc : c = '\x22'
    · subst hc
      rw [escapeQuotes_quote, decodeQuotes_reference, ih]
    · rw [escapeQuotes_cons hc, decodeQuotes_cons (not_reference_prefix_escaped hnot), ih]

/-- Once references are read as quotes, escaping gives the same text as before. -/
theorem escapeQuotes_decoded (text : List Char) :
    escapeQuotes (decodeQuotes text) = escapeQuotes text := by
  induction text using reference_induction with
  | nil => rfl
  | reference text ih =>
    rw [decodeQuotes_reference, escapeQuotes_quote, escapeQuotes_reference, ih]
  | other c text hnot ih =>
    rw [decodeQuotes_cons hnot]
    exact congrArg (CharClass.attributeChar c ++ ·) ih

theorem escapeQuotes_eq_iff {first second : List Char} :
    escapeQuotes first = escapeQuotes second ↔ decodeQuotes first = decodeQuotes second := by
  constructor
  · intro h
    rw [← decodeQuotes_escaped, h, decodeQuotes_escaped]
  · intro h
    rw [← escapeQuotes_decoded, h, escapeQuotes_decoded]

/-- **What reads back from an attribute.** The attribute text of a class reads back as the written
class exactly if the written class holds no reference to a quote. Two classes have the same
attribute text exactly if they are written the same up to references and quotes, so two classes that
are written differently, neither of them with a reference, never have the same. -/
theorem attribute_reads_back_iff (c d : CharClass) :
    (decodeQuotes c.renderAttribute = c.render ↔ ¬quoteReference <:+: c.render) ∧
      (c.renderAttribute = d.renderAttribute ↔ decodeQuotes c.render = decodeQuotes d.render) ∧
      (¬quoteReference <:+: c.render → ¬quoteReference <:+: d.render →
        c.render ≠ d.render → c.renderAttribute ≠ d.renderAttribute) := by
  rw [c.renderAttribute_eq, d.renderAttribute_eq, decodeQuotes_escaped]
  refine ⟨decodeQuotes_eq_self_iff, escapeQuotes_eq_iff, fun hc hd hne heq => hne ?_⟩
  rw [← decodeQuotes_eq_self_iff.2 hc, escapeQuotes_eq_iff.1 heq, decodeQuotes_eq_self_iff.2 hd]

/-- The class of the six characters of a reference, in their order. -/
def spelledReference : CharClass :=
  .custom quoteReference

/-- **A spelled reference reads back as a quote.** The class of its characters has the attribute
text of the class of the quote, though the two are written differently, and there is no attribute
text at all that reads back as the spelled reference. -/
theorem spelledReference_reads_as_quote :
    decodeQuotes spelledReference.renderAttribute ≠ spelledReference.render ∧
      spelledReference.render ≠ (CharClass.custom ['\x22']).render ∧
      spelledReference.renderAttribute = (CharClass.custom ['\x22']).renderAttribute ∧
      ∀ text, decodeQuotes text ≠ spelledReference.render := by
  refine ⟨by decide, by decide, by decide, fun text h => ?_⟩
  refine not_reference_infix_decodeQuotes text ?_
  rw [h]
  exact ⟨['['], [']'], by decide⟩

end PasswordPolicy
