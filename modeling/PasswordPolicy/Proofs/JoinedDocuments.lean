import PasswordPolicy.Proofs.DocumentRun
import PasswordPolicy.Proofs.MovedPlaces
import PasswordPolicy.Report

/-!
# Documents joined by a semicolon

**Behind a rule** a semicolon is no different from the end of the text, for no reader looks past the
end of its rule. So every reader of a value, and that of a rule, carries over to a text that goes on
behind a semicolon.

Main result: `readDocument_joined`, a document that ends with a rule keeps what it states and what
was found in it, and a document behind a semicolon adds its own.
-/

namespace PasswordPolicy

open Text Grammar

/-! ## Up to a semicolon -/

section Semicolon

variable (text u : List Char)

theorem behind_semicolon : Behind [',', ';'] (';' :: u) :=
  behind_cons rfl (by decide)

theorem takeWhile_semicolon {p : Char → Bool} (hp : p ';' = false) :
    (text ++ ';' :: u).takeWhile p = text.takeWhile p :=
  takeWhile_append_of_ends (fun c more hc => by cases hc; exact hp) text

theorem dropWhile_semicolon {p : Char → Bool} (hp : p ';' = false) :
    (text ++ ';' :: u).dropWhile p = text.dropWhile p ++ ';' :: u :=
  dropWhile_append_of_ends (fun c more hc => by cases hc; exact hp) text

theorem skipSpacing_semicolon : skipSpacing (text ++ ';' :: u) = skipSpacing text ++ ';' :: u :=
  dropWhile_semicolon text u rfl

theorem identifierOf_semicolon : identifierOf (text ++ ';' :: u) = identifierOf text :=
  takeWhile_semicolon text u rfl

theorem afterIdentifier_semicolon :
    afterIdentifier (text ++ ';' :: u) = afterIdentifier text ++ ';' :: u :=
  dropWhile_semicolon text u rfl

/-- A rule may end in front of a semicolon as well as at the end of the text. -/
theorem atRuleEnd_semicolon : atRuleEnd (text ++ ';' :: u) = atRuleEnd text := by
  cases text <;> rfl

end Semicolon

/-! ## Every reader -/

section Readers

variable (u text : List Char)

theorem readClassList_carriesOver :
    (readClassList text).CarriesOver (';' :: u) (readClassList (text ++ ';' :: u)) := by
  induction text using separator_induction with
  | step text ih =>
    rw [readClassList_eq, readClassList_eq (text ++ ';' :: u)]
    refine .bind (readClass_carriesOver (behind_semicolon u) text) fun found rest hread => ?_
    rw [skipSpacing_semicolon]
    cases hmore : skipSpacing rest with
    | nil => exact .ok
    | cons c more =>
      dsimp only [List.cons_append]
      split
      · exact .ok
      · split
        · rw [skipSpacing_semicolon]
          exact .map (ih rest c more ((readClass_within text).rest _ _ hread) hmore)
        · exact .abandoned

theorem readNumber_carriesOver :
    (readNumber text).CarriesOver (';' :: u) (readNumber (text ++ ';' :: u)) := by
  dsimp only [readNumber]
  rw [takeWhile_semicolon _ _ rfl, dropWhile_semicolon _ _ rfl, skipSpacing_semicolon,
    atRuleEnd_semicolon]
  split
  · split
    · exact .ok
    · exact .noting .ok
  · split
    · exact .noting .ok
    · exact .noting .ok

theorem readBlocklist_carriesOver (words : List String) :
    (readBlocklist words text).CarriesOver (';' :: u) (readBlocklist words (text ++ ';' :: u)) := by
  dsimp only [readBlocklist]
  rw [identifierOf_semicolon, afterIdentifier_semicolon]
  split
  · exact .abandoned
  · split
    · exact .ok
    · split
      · exact .ok
      · exact .noting .ok

theorem readValue_carriesOver (words : List String) (name : RuleName) :
    (readValue words name text).CarriesOver (';' :: u)
      (readValue words name (text ++ ';' :: u)) := by
  cases name with
  | classes role => exact .map (readClassList_carriesOver u text)
  | limit l => exact .map (readNumber_carriesOver u text)
  | blocklist => exact .map (readBlocklist_carriesOver u text words)

theorem readRule_carriesOver (words : List String) :
    (readRule words text).CarriesOver (';' :: u) (readRule words (text ++ ';' :: u)) := by
  dsimp only [readRule]
  rw [identifierOf_semicolon, afterIdentifier_semicolon, skipSpacing_semicolon]
  split
  · exact .stopped
  · split
    · exact .stopped
    · split
      · next rest hrest =>
        simp only [hrest, List.cons_append, skipSpacing_semicolon, atRuleEnd_semicolon]
        split
        · exact .noting .ok
        · exact readValue_carriesOver u _ words _
      · exact .stopped

end Readers

/-! ## Rounds and documents -/

section Joining

variable {words : List String} {text : List Char} (u : List Char)

theorem AtName.append (h : AtName text) : AtName (text ++ u) := by
  obtain ⟨c, hhead, hc⟩ := h
  exact ⟨c, by rw [List.head?_append, hhead, Option.some_or], hc⟩

/-- A round is the same in front of a semicolon, but does not end the document there. -/
theorem Round.append {fs : List Finding} {rule : Option Rule} {next : List Char}
    (h : Round words text fs rule next) :
    Round words (text ++ ';' :: u) (fs.map (·.extend (';' :: u))) rule (next ++ ';' :: u) := by
  obtain ⟨hname, rest, hread, hnext⟩ := h
  refine ⟨hname.append _, rest ++ ';' :: u, ?_, ?_⟩
  · rw [readRule_carriesOver u text words rule rest (by rw [hread]) (.inl ⟨u, rfl⟩), hread]
  · rw [skipSpacing_semicolon, hnext]

theorem Draft.after_after (fs gs : List Finding) (rules more : List Rule) (d : Draft) :
    (d.after gs more).after fs rules = d.after (fs ++ gs) (rules ++ more) := by
  simp only [Draft.after, List.append_assoc]

/-- Behind a rule that ends a text, the semicolon leads on to the rest of the document. -/
theorem readRules_joined (h : EndsWithRule words text) :
    readRules words (text ++ ';' :: u) = (readRules words (skipSpacing u)).after
      ((readRules words text).findings.map (·.extend (';' :: u))) (readRules words text).rules := by
  obtain ⟨place, fs, rule, hreaches, hlast⟩ := h
  induction hreaches with
  | here text => rw [(hlast.append u).readRules_next, hlast.readRules_last]
  | @next text more _ gs first hround _ ih =>
    have hextended : Round words (text ++ ';' :: u) (gs.map (·.extend (';' :: u))) first
        (';' :: (more ++ ';' :: u)) := hround.append u
    rw [hextended.readRules_next, skipSpacing_semicolon, ih hlast, hround.readRules_next,
      Draft.after_after]
    simp only [Draft.after, List.map_append]

end Joining

/-! ## Places in a joined document -/

/-- The findings of a document behind a semicolon have moved by what stands in front of it. -/
theorem Finding.locate_behind (first : List Char) {text : List Char} {f : Finding}
    (h : f.tail <:+ text) : f.locate (first ++ ';' :: text) =
      (f.locate text).moved (byteLength first + 1) (first.count '\n') (columnAfter first) := by
  have hbytes : byteLength (first ++ [';']) = byteLength first + 1 := by
    rw [byteLength_append]
    rfl
  have hplace : placeAfter (first ++ [';']) =
      (first.count '\n', (first.reverse.takeWhile (· ≠ '\n')).length + 1) := by
    simp [placeAfter]
  calc f.locate (first ++ ';' :: text)
      = f.locate (first ++ [';'] ++ text) := by rw [List.append_assoc, List.singleton_append]
    _ = (f.locate text).behind (first ++ [';']) := locate_append _ h
    _ = _ := by rw [Diagnostic.behind, hbytes, hplace, columnAfter, ordinal, Diagnostic.moved_min]

/-! ## Joining documents -/

/-- A document that ends with a rule keeps what it states, and what was found in it, in front of a
semicolon and any other document. The other document adds what it states and what was found in it,
or spoils the joined document by itself. -/
theorem readDocument_joined (words : List String) (first second : List Char)
    (h : EndsWithRule words (skipSpacing first)) :
    (∃ rules, (readDocument words first).rules? = some rules ∧
      (readDocument words (first ++ ';' :: second)).rules? =
        (readDocument words second).rules?.map (rules ++ ·)) ∧
    diagnosticsOf (first ++ ';' :: second) (readDocument words (first ++ ';' :: second)) =
      diagnosticsOf first (readDocument words first) ++
        (diagnosticsOf second (readDocument words second)).map
          (·.moved (byteLength first + 1) (first.count '\n') (columnAfter first)) := by
  have hcomplete : (readDocument words first).ending = .complete :=
    (ending_eq_complete_iff words _).2 (.inr h)
  have hjoined : readDocument words (first ++ ';' :: second) =
      (readDocument words second).after
        ((readDocument words first).findings.map (·.extend (';' :: second)))
        (readDocument words first).rules := by
    rw [readDocument, skipSpacing_semicolon, readRules_joined second h]
    rfl
  constructor
  · refine ⟨(readDocument words first).rules, ?_, ?_⟩
    · rw [Draft.rules?, if_neg (by rw [hcomplete]; decide)]
    · rw [hjoined, Draft.rules?, Draft.rules?, Draft.after]
      split
      · rfl
      · rfl
  · rw [hjoined]
    simp only [diagnosticsOf, Draft.after, List.map_append, List.map_map]
    congr 1
    · exact List.map_congr_left fun f _ => f.locate_extend first (';' :: second)
    · exact List.map_congr_left fun f hf =>
        Finding.locate_behind first (suffix_of_mem_readDocument words second f hf)

/-- A document with a rule that has no value, and with a range that its end cuts off. -/
def cutOff : List Char := "minlength:; required: upper(1".toList

/-- A document that ends early, at a rule of an unknown name. -/
def endedEarly : List Char := "maxlength: 8; length".toList

theorem cutOff_first : Round [] (skipSpacing cutOff) [⟨.emptyValue (.limit .minLength), cutOff⟩]
    none (';' :: " required: upper(1".toList) :=
  ⟨⟨'m', rfl, rfl⟩, "; required: upper(1".toList, rfl, rfl⟩

theorem cutOff_last : Round [] (skipSpacing " required: upper(1".toList)
    [⟨.unterminatedRange, "(1".toList⟩]
    (some (.classes .required [⟨.named (.basic .upper), none⟩])) [] := by
  have hrule : readRule [] (skipSpacing " required: upper(1".toList) =
      readValue [] (.classes .required) "upper(1".toList := rfl
  have hlist : readClassList "upper(1".toList =
      ⟨[⟨.unterminatedRange, "(1".toList⟩], .read [⟨.named (.basic .upper), none⟩] []⟩ := by
    rw [readClassList_eq]
    rfl
  refine ⟨⟨'r', rfl, rfl⟩, [], ?_, rfl⟩
  rw [hrule, readValue, hlist]
  rfl

theorem cutOff_endsWithRule : EndsWithRule [] (skipSpacing cutOff) :=
  ⟨_, _, _, .next cutOff_first (.here _), cutOff_last⟩

theorem cutOff_read : readDocument [] cutOff =
    ⟨[⟨.emptyValue (.limit .minLength), cutOff⟩, ⟨.unterminatedRange, "(1".toList⟩],
      [.classes .required [⟨.named (.basic .upper), none⟩]], .complete⟩ := by
  rw [readDocument, cutOff_first.readRules_next, cutOff_last.readRules_last]
  rfl

theorem endedEarly_read : readDocument [] endedEarly =
    ⟨[⟨.unknownRule "length", "length".toList⟩], [.limit .maxLength 8], .stopped⟩ := by
  have hfirst : Round [] (skipSpacing endedEarly) [] (some (.limit .maxLength 8))
      (';' :: " length".toList) :=
    ⟨⟨'m', rfl, rfl⟩, "; length".toList, rfl, rfl⟩
  have hrest : readRules [] (skipSpacing " length".toList) =
      ⟨[⟨.unknownRule "length", "length".toList⟩], [], .stopped⟩ :=
    readRules_of_head rfl rfl
  rw [readDocument, hfirst.readRules_next, hrest]
  rfl

/-- The semicolon cuts the range off at the same place. -/
theorem cutOff_joined :
    EndsWithRule [] (skipSpacing cutOff) ∧
    (readDocument [] (cutOff ++ ';' :: endedEarly)).rules? =
      some [.classes .required [⟨.named (.basic .upper), none⟩], .limit .maxLength 8] ∧
    diagnosticsOf (cutOff ++ ';' :: endedEarly) (readDocument [] (cutOff ++ ';' :: endedEarly)) =
      [⟨0, 1, 1, .warning, .emptyValue (.limit .minLength)⟩,
        ⟨27, 1, 28, .warning, .unterminatedRange⟩, ⟨44, 1, 45, .error, .unknownRule "length"⟩] := by
  obtain ⟨⟨rules, hfirst, hjoined⟩, hdiagnostics⟩ :=
    readDocument_joined [] cutOff endedEarly cutOff_endsWithRule
  rw [cutOff_read] at hfirst hdiagnostics
  rw [endedEarly_read] at hjoined hdiagnostics
  cases hfirst
  exact ⟨cutOff_endsWithRule, hjoined, hdiagnostics.trans (by decide)⟩

end PasswordPolicy
