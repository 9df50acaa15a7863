import Mathlib.Data.List.Forall2
import Mathlib.Data.List.TakeWhile
import PasswordPolicy.Blocklist
import PasswordPolicy.Proofs.SmallLetters

/-!
# Blocklists that grow

**A run** starts from the lines of a text and takes in one batch of words after another. What it
holds in the end depends on the words alone, in their order: how they were spread over the text and
the batches does not matter, since adding two batches is adding one (`words_afterAppends`).

**Lines and trimming.** The break between two lines of a text is a break between two batches, and a
carriage return in front of it makes no difference: taking the line off it and taking the white
space off the word come to the same, and an empty line is left out like a blank word
(`kept_linesOf`). So only the places of the line feeds count.

**Finding.** Lowercasing leaves the kept form of a word as it is, and a word that is not blank is
never lowercased away. So a password is found exactly if some word that is not blank has, without
the white space around it, the same lowercase form (`contains_afterAppends_iff`).

Main result: what a run holds and finds (`blocklist_after_appends`).
-/

namespace PasswordPolicy

open Text

/-! ## White space around a word -/

namespace Text

variable {line : List Char}

theorem trim_eq_nil_iff : trim line = [] ↔ ∀ c ∈ line, isWhiteSpace c := by
  rw [trim, List.reverse_eq_nil_iff, List.dropWhile_eq_nil_iff]
  simp only [List.mem_reverse]
  constructor
  · intro h c hc
    rw [← List.takeWhile_append_dropWhile (p := isWhiteSpace) (l := line), List.mem_append] at hc
    rcases hc with hc | hc
    · exact List.mem_takeWhile_imp hc
    · exact h c hc
  · exact fun h c hc => h c ((List.dropWhile_sublist _).mem hc)

theorem trim_concat {c : Char} (hc : isWhiteSpace c) : trim (line ++ [c]) = trim line := by
  rw [trim, trim, List.dropWhile_append]
  split
  next h => simp [List.isEmpty_iff.1 h, hc]
  next => simp [hc]

theorem trim_dropReturn : trim (dropReturn line) = trim line := by
  unfold dropReturn
  split
  next h =>
    obtain ⟨before, rfl⟩ := List.getLast?_eq_some_iff.1 h
    rw [List.dropLast_concat, trim_concat (by decide)]
  next => rfl

end Text

/-! ## The words that a batch adds -/

/-- A word of white space only. -/
def Blank (word : String) : Prop :=
  ∀ c ∈ word.toList, isWhiteSpace c

/-- The words of a batch as they are kept, without the blank ones. -/
def kept (words : List String) : List String :=
  (words.map listedForm).filter (· ≠ "")

theorem kept_append (a b : List String) : kept (a ++ b) = kept a ++ kept b := by
  simp [kept]

theorem listedForm_eq_empty_iff {word : String} : listedForm word = "" ↔ Blank word := by
  rw [listedForm, String.ofList_eq_empty_iff, lowercase_eq_nil_iff, trim_eq_nil_iff, Blank]

theorem mem_kept {words : List String} {entry : String} :
    entry ∈ kept words ↔ ∃ word ∈ words, ¬Blank word ∧ listedForm word = entry := by
  simp only [kept, List.mem_filter, List.mem_map, decide_eq_true_eq]
  constructor
  · rintro ⟨⟨word, hmem, rfl⟩, hne⟩
    exact ⟨word, hmem, fun hb => hne (listedForm_eq_empty_iff.2 hb), rfl⟩
  · rintro ⟨word, hmem, hb, rfl⟩
    exact ⟨⟨word, hmem, rfl⟩, fun h => hb (listedForm_eq_empty_iff.1 h)⟩

/-- Two batches that are the same word by word, but for white space around the words. -/
theorem kept_congr {a b : List (List Char)} (h : a.map trim = b.map trim) :
    kept (a.map String.ofList) = kept (b.map String.ofList) := by
  have hforms : ∀ l : List (List Char),
      (l.map String.ofList).map listedForm = (l.map trim).map (String.ofList <| lowercase ·) := by
    intro l
    simp [listedForm]
  rw [kept, kept, hforms, hforms, h]

/-! ## The lines of a text -/

/-- The lines of a text as a batch of words. -/
def linesOf (text : String) : List String :=
  (lines text.toList).map String.ofList

/-- What stands between the line feeds of a text. -/
def piecesOf (text : List Char) : List String :=
  (text.splitOn '\n').map String.ofList

/-- A line loses its carriage return and an empty last one is left out, and neither shows in the
words that are kept. -/
theorem kept_linesOf (text : String) : kept (linesOf text) = kept (piecesOf text.toList) := by
  obtain ⟨init, last, hpieces⟩ : ∃ init last, text.toList.splitOn '\n' = init ++ [last] :=
    ⟨_, _, (List.dropLast_concat_getLast (List.splitOn_ne_nil '\n' text.toList)).symm⟩
  have hlines : lines text.toList = init.map dropReturn ++ [last].filter (· ≠ []) := by
    simp [lines, hpieces]
  have hinit : kept ((init.map dropReturn).map String.ofList) = kept (init.map String.ofList) :=
    kept_congr (by simp [Function.comp_def, trim_dropReturn])
  have hlast : kept (([last].filter (· ≠ [])).map String.ofList) =
      kept ([last].map String.ofList) := by
    by_cases h : last = []
    · subst h; decide
    · simp [h]
  rw [linesOf, piecesOf, hlines, hpieces, List.map_append, List.map_append, kept_append,
    kept_append, hinit, hlast]

theorem piecesOf_append (a b : List Char) :
    piecesOf (a ++ '\n' :: b) = piecesOf a ++ piecesOf b := by
  rw [piecesOf, List.splitOn_append_cons_self, List.map_append]
  rfl

/-- The text with a carriage return before each line feed. -/
def withReturns (text : List Char) : List Char :=
  text.flatMap fun c => if c = '\n' then ['\r', '\n'] else [c]

theorem forall₂_modifyHead {α β : Type} {R : α → β → Prop} {f : α → α} {g : β → β}
    (h : ∀ a b, R a b → R (f a) (g b)) {as : List α} {bs : List β} :
    List.Forall₂ R as bs → List.Forall₂ R (as.modifyHead f) (bs.modifyHead g)
  | .nil => .nil
  | .cons hhead htail => .cons (h _ _ hhead) htail

/-- Each piece of the longer text is the piece of the other, with a carriage return at most behind
it. -/
theorem splitOn_withReturns (text : List Char) :
    List.Forall₂ (fun piece longer => longer = piece ∨ longer = piece ++ ['\r'])
      (text.splitOn '\n') ((withReturns text).splitOn '\n') := by
  induction text with
  | nil => simp [withReturns]
  | cons c text ih =>
    rw [withReturns, List.flatMap_cons, ← withReturns]
    by_cases hc : c = '\n'
    · subst hc
      have hlonger : ('\r' :: '\n' :: withReturns text).splitOn '\n' =
          ['\r'] :: (withReturns text).splitOn '\n' := by
        simp [List.splitOn_cons_eq_if_modifyHead]
      simpa [hlonger, List.splitOn_cons_eq_if_modifyHead] using ih
    · simp only [hc, if_false, List.singleton_append, List.splitOn_cons_eq_if_modifyHead,
        beq_iff_eq]
      exact forall₂_modifyHead (by simp) ih

theorem kept_withReturns (text : List Char) :
    kept (piecesOf (withReturns text)) = kept (piecesOf text) := by
  refine (kept_congr ?_).symm
  rw [← List.forall₂_eq_eq_eq, List.forall₂_map_left_iff, List.forall₂_map_right_iff]
  refine (splitOn_withReturns text).imp fun piece longer h => ?_
  rcases h with rfl | rfl
  · rfl
  · exact (trim_concat (by decide)).symm

/-! ## Runs -/

namespace Blocklist

/-- The list that starts from the lines of a text and takes in one batch of words after another. -/
def afterAppends (text : String) (batches : List (List String)) : Blocklist :=
  batches.foldl append (ofLines text)

theorem ofLines_eq (text : String) : ofLines text = ⟨kept (linesOf text)⟩ := rfl

theorem append_eq (list : Blocklist) (words : List String) :
    list.append words = ⟨list.words ++ kept words⟩ := rfl

/-- Adding batches one by one is adding their words at once. -/
theorem foldl_append (list : Blocklist) (batches : List (List String)) :
    batches.foldl append list = list.append batches.flatten := by
  induction batches generalizing list with
  | nil => simp [append]
  | cons words batches ih => rw [List.foldl_cons, ih, append_append, List.flatten_cons]

theorem words_afterAppends (text : String) (batches : List (List String)) :
    (afterAppends text batches).words = kept (linesOf text ++ batches.flatten) := by
  rw [afterAppends, foldl_append, append_eq, ofLines_eq, kept_append]

/-- Words are added behind those of every earlier moment of the run. -/
theorem words_afterAppends_prefix (text : String) (batches later : List (List String)) :
    (afterAppends text batches).words <+: (afterAppends text (batches ++ later)).words := by
  rw [afterAppends, afterAppends, List.foldl_append, foldl_append _ later, words_append]
  exact List.prefix_append ..

theorem contains_iff_mem {list : Blocklist} {password : String} :
    list.contains password ↔ String.ofList (lowercase password.toList) ∈ list.words := by
  simp [contains]

theorem contains_afterAppends_iff {text : String} {batches : List (List String)}
    {password : String} :
    (afterAppends text batches).contains password ↔
      ∃ word ∈ linesOf text ++ batches.flatten,
        ¬Blank word ∧ lowercase (trim word.toList) = lowercase password.toList := by
  simp only [contains_iff_mem, words_afterAppends, mem_kept, listedForm, String.ofList_inj]

/-- A kept word is its own lowercase form. -/
theorem contains_of_mem_afterAppends {text : String} {batches : List (List String)}
    {entry : String} (h : entry ∈ (afterAppends text batches).words) :
    (afterAppends text batches).contains entry := by
  have hlower : String.ofList (lowercase entry.toList) = entry := by
    rw [words_afterAppends, mem_kept] at h
    obtain ⟨word, -, -, rfl⟩ := h
    rw [listedForm, String.toList_ofList, lowercase_lowercase]
  rwa [contains_iff_mem, hlower]

/-- The break between two lines is a break between two batches. -/
theorem ofLines_break (a b : String) :
    ofLines (a ++ "\n" ++ b) = (ofLines a).append (linesOf b) := by
  have hpieces : piecesOf (a ++ "\n" ++ b).toList = piecesOf a.toList ++ piecesOf b.toList := by
    rw [← piecesOf_append]
    simp
  rw [append_eq, ofLines_eq, ofLines_eq, kept_linesOf, hpieces, kept_append, ← kept_linesOf,
    ← kept_linesOf]

theorem ofLines_withReturns (text : String) :
    ofLines (String.ofList (withReturns text.toList)) = ofLines text := by
  rw [ofLines_eq, ofLines_eq, kept_linesOf, kept_linesOf, String.toList_ofList, kept_withReturns]

/-- **A list that grows** holds the lines of the text and the words of the batches in their order,
without white space around them, in lowercase, and without the blank ones; so it only ever gets
longer at its end. It finds exactly the passwords that have the lowercase form of one of these
words, every word that it holds among them. Where a text is cut at a line feed, its second part can
as well be added later, and carriage returns before the line feeds change nothing. -/
theorem blocklist_after_appends (text : String) (batches : List (List String)) :
    (afterAppends text batches).words =
        ((linesOf text ++ batches.flatten).map listedForm).filter (· ≠ "") ∧
      (∀ later, (afterAppends text batches).words <+:
        (afterAppends text (batches ++ later)).words) ∧
      (∀ password, (afterAppends text batches).contains password ↔
        ∃ word ∈ linesOf text ++ batches.flatten,
          ¬Blank word ∧ lowercase (trim word.toList) = lowercase password.toList) ∧
      (∀ entry ∈ (afterAppends text batches).words,
        (afterAppends text batches).contains entry) ∧
      (∀ a b, ofLines (a ++ "\n" ++ b) = (ofLines a).append (linesOf b)) ∧
      ofLines (String.ofList (withReturns text.toList)) = ofLines text :=
  ⟨words_afterAppends text batches, words_afterAppends_prefix text batches,
    fun _ => contains_afterAppends_iff, fun _ => contains_of_mem_afterAppends, ofLines_break,
    ofLines_withReturns text⟩

example : (afterAppends "alpha\r\n\n  beta  \n" [["Gamma", " "], [" ΟΔΟΣ"]]).words =
    ["alpha", "beta", "gamma", "οδος"] := by decide +kernel

end Blocklist

end PasswordPolicy
