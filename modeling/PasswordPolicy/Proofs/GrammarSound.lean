import PasswordPolicy.Proofs.DocumentRun
import PasswordPolicy.Proofs.GrammarComplete
import PasswordPolicy.Report

/-!
# What is read without findings is derived

**One lemma a reader.** Where a reader gives a value and has nothing to report, the text it was
given is a written form of the value and what was left to read. Any finding, and any way of not
going on, makes the reading unclean, so nothing malformed slips through.

Main results: `document_of_readDocument`, by which a document without findings is derivable, and
`readDocument_clean_iff`, the reader accepts without complaint exactly what the grammar derives.
-/

namespace PasswordPolicy.Grammar

open Text Reading

/-! ## Spacing -/

theorem spacing_takeWhile (text : List Char) : Spacing (text.takeWhile isSpacing) :=
  fun _ hc => List.all_eq_true.1 List.all_takeWhile _ hc

/-- A text is spacing and what is left when that is skipped. -/
theorem exists_spacing_append (text : List Char) :
    ∃ s, Spacing s ∧ text = s ++ skipSpacing text :=
  ⟨_, spacing_takeWhile text, List.takeWhile_append_dropWhile.symm⟩

theorem identifierOf_append_afterIdentifier (text : List Char) :
    identifierOf text ++ afterIdentifier text = text :=
  List.takeWhile_append_dropWhile

/-! ## Numbers -/

theorem numeral_of_readNumber {text rest : List Char} {n : Option UInt32}
    (h : readNumber text = .ok n rest) :
    ∃ m ds, n = some m ∧ text = ds ++ rest ∧ Numeral ds m := by
  dsimp only [readNumber] at h
  split at h
  · next m hm =>
    split at h
    · obtain ⟨rfl, rfl⟩ := ok_inj.1 h
      exact ⟨m, _, rfl, List.takeWhile_append_dropWhile.symm, count?_eq_some_iff.1 hm⟩
    · exact absurd h noting_ne_ok
  · exact absurd h noting_ne_ok

/-! ## Ranges -/

theorem side_of_rangeDigits {side ds : List Char} {n : UInt32} (h : rangeDigits side = ds)
    (hn : Numeral ds n) : Side side n := by
  have honly : ∀ c ∈ side, c.isDigit = true ∨ isSpacing c = true ∨ c = '(' := by
    intro c hc
    by_cases hp : c = '('
    · exact .inr (.inr hp)
    · by_cases hs : isSpacing c = true
      · exact .inr (.inl hs)
      · refine .inl (hn.digits c ?_)
        rw [← h]
        simp [rangeDigits, hc, hp, hs]
  exact ⟨honly, rangeDigits_of_only honly ▸ h ▸ hn⟩

theorem range_of_rangeOf? {inside : List Char} {r : CountRange}
    (h : rangeOf? ('(' :: inside) = some r) : Range ('(' :: inside ++ [')']) r := by
  unfold rangeOf? at h
  split at h
  · next least most hsplit =>
    obtain ⟨l, hl, h⟩ := Option.bind_eq_some_iff.1 h
    obtain ⟨m, hm, h⟩ := Option.bind_eq_some_iff.1 h
    -- The pieces between commas, joined again, are what counts of the text.
    have hjoin : rangeDigits inside = least ++ ',' :: most := by
      have : [','].intercalate ((rangeDigits ('(' :: inside)).splitOn ',') =
        rangeDigits ('(' :: inside) := List.intercalate_splitOn ','
      rw [hsplit] at this
      simpa [rangeDigits] using this.symm
    obtain ⟨left, rest, rfl, hleft, hrest⟩ := List.filter_eq_append_iff.1 hjoin
    obtain ⟨skipped, right, rfl, hskip, -, hright⟩ := List.filter_eq_cons_iff.1 hrest
    have hleft' : rangeDigits (left ++ skipped) = least := by
      rw [rangeDigits, List.filter_append, List.filter_eq_nil_iff.2 hskip, List.append_nil, hleft]
    have hne : ¬(l = 0 ∧ m = 0) := by
      rintro ⟨rfl, rfl⟩
      cases h
    have hr : r = ⟨l, m⟩ := by
      rw [CountRange.of?, if_neg hne] at h
      exact (Option.some.inj h).symm
    rw [hr, ← List.append_assoc]
    exact .mk (side_of_rangeDigits hleft' (count?_eq_some_iff.1 hl))
      (side_of_rangeDigits hright (count?_eq_some_iff.1 hm)) hne
  · cases h

theorem range_of_readRange {text rest : List Char} {r : Option CountRange}
    (h : readRange ('(' :: text) = .ok r rest) :
    ∃ m t, r = some m ∧ '(' :: text = t ++ rest ∧ Range t m := by
  unfold readRange at h
  split at h
  · next more hdrop =>
    split at h
    · next m hm =>
      obtain ⟨rfl, rfl⟩ := ok_inj.1 h
      refine ⟨m, '(' :: text.takeWhile isRangeInside ++ [')'], rfl, ?_, range_of_rangeOf? hm⟩
      have hsplit : ('(' :: text).takeWhile isRangeInside ++ ('(' :: text).dropWhile isRangeInside =
          '(' :: text := List.takeWhile_append_dropWhile
      rw [hdrop] at hsplit
      rw [← hsplit]
      simp
      rfl
    · exact absurd h noting_ne_ok
  · exact absurd h noting_ne_ok

theorem range_of_readOptionalRange {text rest : List Char} {r : Option CountRange}
    (h : readOptionalRange text = .ok r rest) :
    (r = none ∧ rest = text) ∨
      ∃ m s t, r = some m ∧ text = s ++ t ++ rest ∧ Spacing s ∧ Range t m := by
  unfold readOptionalRange at h
  split at h
  · next more hm =>
    obtain ⟨m, t, rfl, ht, hr⟩ := range_of_readRange h
    obtain ⟨s, hs, hsplit⟩ := exists_spacing_append text
    refine .inr ⟨m, s, t, rfl, ?_, hs, hr⟩
    rw [hsplit, hm, ht, List.append_assoc]
  · obtain ⟨rfl, rfl⟩ := ok_inj.1 h
    exact .inl ⟨rfl, rfl⟩

/-! ## Classes -/

theorem members_of_readMembers (opening inside : List Char) {rest : List Char} :
    ∀ {cs : List Char}, readMembers opening inside = .ok cs rest →
      ∃ inner close, cs = inner ++ close ∧ inside = cs ++ ']' :: rest ∧ (∀ c ∈ inner, Plain c) ∧
        (close = [] ∨ close = [']']) := by
  fun_induction readMembers opening inside with
  | case1 => exact fun h => absurd h abandoned_ne_ok
  | case2 more =>
    intro cs h
    obtain ⟨rfl, rfl⟩ := ok_inj.1 h
    exact ⟨[], [']'], rfl, rfl, by simp, .inr rfl⟩
  | case3 more =>
    intro cs h
    obtain ⟨rfl, rfl⟩ := ok_inj.1 h
    exact ⟨[], [], rfl, rfl, by simp, .inl rfl⟩
  | case4 => exact fun h => absurd h noting_ne_ok
  | case5 c more _ hbracket _ hdash hp =>
    rename_i ih
    intro cs h
    obtain ⟨cs, hr, rfl⟩ := map_eq_ok h
    obtain ⟨inner, close, rfl, rfl, hinner, hclose⟩ := ih hr
    refine ⟨c :: inner, close, rfl, rfl, ?_, hclose⟩
    intro d hd
    rcases List.mem_cons.1 hd with rfl | hd
    · exact ⟨hp, hdash, hbracket⟩
    · exact hinner d hd
  | case6 => exact fun h => absurd h noting_ne_ok

theorem members_of_readBrackets {opening inside cs rest : List Char}
    (h : readBrackets opening inside = .ok cs rest) : inside = cs ++ ']' :: rest ∧ Members cs := by
  unfold readBrackets at h
  split at h
  · next more =>
    obtain ⟨cs, hr, rfl⟩ := map_eq_ok h
    obtain ⟨inner, close, rfl, rfl, hinner, hclose⟩ := members_of_readMembers _ _ hr
    exact ⟨rfl, .mk (.inr rfl) hinner hclose⟩
  · obtain ⟨inner, close, rfl, rfl, hinner, hclose⟩ := members_of_readMembers _ _ h
    exact ⟨rfl, .mk (.inl rfl) hinner hclose⟩

/-- A class that was read with or without a range, from the text of the class and the range. -/
theorem item_of_body {t tail rest : List Char} {b : ClassBody} {range : Option CountRange}
    (hb : Body t b) (h : readOptionalRange tail = .ok range rest) :
    ∃ u, t ++ tail = u ++ rest ∧ Item u ⟨b, range⟩ := by
  rcases range_of_readOptionalRange h with ⟨rfl, rfl⟩ | ⟨m, s, u, rfl, rfl, hs, hr⟩
  · exact ⟨t, rfl, .plain hb⟩
  · exact ⟨t ++ s ++ u, by simp, .ranged hb hs hr⟩

theorem item_of_readClass {text rest : List Char} {found : Option CharClass}
    (h : readClass text = .ok found rest) :
    ∃ c t, found = some c ∧ text = t ++ rest ∧ Item t c := by
  unfold readClass at h
  split at h
  · exact absurd h abandoned_ne_ok
  · next c hc =>
    split at h
    · obtain ⟨range, mid, hr, h⟩ := bind_eq_ok h
      split at h
      · next name hname =>
        obtain ⟨rfl, rfl⟩ := ok_inj.1 h
        have hb := Body.named name (ClassName.ofIdentifier?_eq_some_iff.1 hname)
        obtain ⟨t, ht, hi⟩ := item_of_body hb hr
        rw [identifierOf_append_afterIdentifier] at ht
        exact ⟨_, t, rfl, ht, hi⟩
      · exact absurd h noting_ne_ok
    · split at h
      · next hopen =>
        obtain ⟨cs, mid, hbr, h⟩ := bind_eq_ok h
        obtain ⟨range, mid', hr, h⟩ := bind_eq_ok h
        split at h
        · exact absurd h noting_ne_ok
        · next hne =>
          obtain ⟨rfl, rfl⟩ := ok_inj.1 h
          obtain ⟨hinside, hcs⟩ := members_of_readBrackets hbr
          obtain ⟨t, ht, hi⟩ := item_of_body (.custom hcs hne) hr
          obtain ⟨u, rfl⟩ := List.head?_eq_some_iff.1 hc
          subst hopen
          rw [List.tail_cons] at hinside
          refine ⟨_, t, rfl, ?_, hi⟩
          rw [hinside, ← ht]
          simp
      · exact absurd h abandoned_ne_ok

/-! ## Lists of classes -/

theorem items_of_readClassList {text rest : List Char} {cs : List CharClass}
    (h : readClassList text = .ok cs rest) :
    ∃ t s, text = t ++ s ++ rest ∧ Items t cs ∧ Spacing s := by
  induction text using separator_induction generalizing cs with
  | step text ih =>
    rw [readClassList_eq] at h
    obtain ⟨found, mid, hc, hmore⟩ := bind_eq_ok h
    have hmid := (readClass_within text).rest found mid (by rw [hc]; rfl)
    obtain ⟨c, t, rfl, rfl, hi⟩ := item_of_readClass hc
    obtain ⟨s, hs, hsplit⟩ := exists_spacing_append mid
    split at hmore
    · next hm =>
      obtain ⟨rfl, rfl⟩ := ok_inj.1 hmore
      refine ⟨t, s, ?_, .one hi, hs⟩
      rw [hsplit, hm, List.append_assoc]
    · next d more hm =>
      split at hmore
      · obtain ⟨rfl, rfl⟩ := ok_inj.1 hmore
        refine ⟨t, s, ?_, .one hi, hs⟩
        rw [hsplit, hm, List.append_assoc]
      · split at hmore
        · next hd =>
          obtain ⟨others, hr, rfl⟩ := map_eq_ok hmore
          obtain ⟨u, s'', hu, hus, hs''⟩ := ih mid d more hmid hm hr
          obtain ⟨s', hs', hsplit'⟩ := exists_spacing_append more
          refine ⟨t ++ s ++ ',' :: (s' ++ u), s'', ?_, .cons hi hs hs' hus, hs''⟩
          rw [hsplit, hm, hd, hsplit', hu]
          simp
        · exact absurd hmore abandoned_ne_ok

/-! ## Values -/

theorem value_of_readBlocklist {words : List String} {text rest : List Char}
    {found : Option (List String)} (h : readBlocklist words text = .ok found rest) :
    ∃ ws t, found = some ws ∧ text = t ++ rest ∧ Value words .blocklist t (.blocklist ws) := by
  have hsplit := (identifierOf_append_afterIdentifier text).symm
  dsimp only [readBlocklist] at h
  split at h
  · exact absurd h abandoned_ne_ok
  · split at h
    · next hdefault =>
      obtain ⟨rfl, rfl⟩ := ok_inj.1 h
      exact ⟨words, _, rfl, hsplit, .defaultList hdefault⟩
    · split at h
      · next source hsource =>
        obtain ⟨rfl, rfl⟩ := ok_inj.1 h
        have hsame := List.find?_some (p := fun s : String => sameIgnoringCase s.toList _) hsource
        exact ⟨[source], _, rfl, hsplit, .source (List.mem_of_find?_eq_some hsource) hsame⟩
      · exact absurd h noting_ne_ok

theorem value_of_readValue {words : List String} {name : RuleName} {text rest : List Char}
    {found : Option Rule} (h : readValue words name text = .ok found rest) :
    ∃ r t s, found = some r ∧ text = t ++ s ++ rest ∧ Value words name t r ∧ Spacing s := by
  cases name with
  | classes role =>
    obtain ⟨cs, hcs, hfound⟩ := map_eq_ok h
    obtain ⟨t, s, rfl, hi, hs⟩ := items_of_readClassList hcs
    have hne : cs ≠ [] := by cases hi <;> simp
    rw [if_neg hne] at hfound
    exact ⟨_, t, s, hfound.symm, rfl, .classes role hi, hs⟩
  | limit l =>
    obtain ⟨n, hn, hfound⟩ := map_eq_ok h
    obtain ⟨m, ds, rfl, rfl, hm⟩ := numeral_of_readNumber hn
    exact ⟨_, ds, [], hfound.symm, by simp, .limit l hm, by simp [Spacing]⟩
  | blocklist =>
    obtain ⟨ws, hws, hfound⟩ := map_eq_ok h
    obtain ⟨words', t, rfl, rfl, hv⟩ := value_of_readBlocklist hws
    exact ⟨_, t, [], hfound.symm, by simp, hv, by simp [Spacing]⟩

/-! ## Rules and documents -/

theorem statement_of_readRule {words : List String} {text rest : List Char} {found : Option Rule}
    (h : readRule words text = .ok found rest) :
    ∃ r t s, found = some r ∧ text = t ++ s ++ rest ∧ Statement words t r ∧ Spacing s := by
  unfold readRule at h
  split at h
  · exact absurd h stopped_ne_ok
  · split at h
    · exact absurd h stopped_ne_ok
    · next name hname =>
      obtain ⟨s, hs, hsplit⟩ := exists_spacing_append (afterIdentifier text)
      split at h
      · next more hm =>
        dsimp only at h
        split at h
        · exact absurd h noting_ne_ok
        · obtain ⟨s', hs', hsplit'⟩ := exists_spacing_append more
          obtain ⟨r, t, s'', rfl, ht, hv, hs''⟩ := value_of_readValue h
          refine ⟨r, name.name.toList ++ s ++ ':' :: (s' ++ t), s'', rfl, ?_, .mk hs hs' hv, hs''⟩
          rw [← identifierOf_append_afterIdentifier text, RuleName.eq_of_ofName? hname, hsplit, hm,
            hsplit', ht]
          simp
      · exact absurd h stopped_ne_ok

theorem spacing_append {s s' : List Char} (hs : Spacing s) (hs' : Spacing s') :
    Spacing (s ++ s') :=
  List.forall_mem_append.2 ⟨hs, hs'⟩

theorem Statements.cons_of {words : List String} {t s s' u : List Char} {r : Rule} {rs : List Rule}
    (hr : Statement words t r) (hs : Spacing s) (hs' : Spacing s')
    (hu : u = [] ∧ rs = [] ∨ Statements words u rs) :
    Statements words (t ++ s ++ ';' :: (s' ++ u)) (r :: rs) := by
  rcases hu with ⟨rfl, rfl⟩ | hu
  · rw [List.append_nil]
    exact .ended hr hs hs'
  · exact .cons hr hs hs' hu

/-- A round without findings goes over a statement and the spacing behind it. -/
theorem statement_of_round {words : List String} {text next : List Char} {rule : Option Rule}
    (h : Round words text [] rule next) :
    ∃ r t s, rule = some r ∧ text = t ++ s ++ next ∧ Statement words t r ∧ Spacing s := by
  obtain ⟨-, rest, hread, hnext⟩ := h
  obtain ⟨r, t, s, hrule, htext, hr, hs⟩ := statement_of_readRule hread
  obtain ⟨s', hs', hsplit⟩ := exists_spacing_append rest
  refine ⟨r, t, s ++ s', hrule, ?_, hr, spacing_append hs hs'⟩
  rw [htext, hsplit, hnext]
  simp

/-- Reading on from the name of a rule, or at the end of the document. -/
theorem statements_of_drafts {words : List String} {text : List Char} {d : Draft}
    (h : Drafts words text d) (hclean : d.findings = []) :
    text = [] ∧ d.rules = [] ∨ Statements words text d.rules := by
  induction h with
  | nothing => exact .inl ⟨rfl, rfl⟩
  | noName => exact absurd hclean (List.cons_ne_nil _ _)
  | @stop text _ _ hread | @abandon text _ _ hread =>
    -- Without findings the rule was read, and the document was not left here.
    obtain ⟨found, rest, hok⟩ := readRule_accounted words text (by rw [hread]; exact hclean)
    rw [hread] at hok
    cases hok
  | @last _ fs _ hround =>
    obtain rfl : fs = [] := hclean
    obtain ⟨r, t, s, rfl, rfl, hr, hs⟩ := statement_of_round hround
    rw [List.append_nil]
    exact .inr (.last hr hs)
  | unseparated => exact absurd hclean (by simp)
  | @next _ more _ _ _ hround _ ih =>
    obtain ⟨hfirst, hrest⟩ := List.append_eq_nil_iff.1 hclean
    rw [hfirst] at hround
    obtain ⟨r, t, s, rfl, rfl, hr, hs⟩ := statement_of_round hround
    obtain ⟨s', hs', hsplit⟩ := exists_spacing_append more
    rw [hsplit]
    exact .inr (.cons_of hr hs hs' (ih hrest))

/-- **A document without findings is derivable for the rules that are read.** -/
theorem document_of_readDocument {words : List String} {text : List Char}
    (h : (readDocument words text).findings = []) :
    Document words text (readDocument words text).rules := by
  obtain ⟨s, hs, hsplit⟩ := exists_spacing_append text
  rcases statements_of_drafts (drafts_readRules words _) h with ⟨hnil, hrules⟩ | hst
  · rw [hnil, List.append_nil] at hsplit
    rw [readDocument, hrules, hsplit]
    exact .empty hs
  · have hdoc := Document.rules hs hst
    rw [← hsplit] at hdoc
    exact hdoc

/-- **The reader accepts without complaint exactly what the grammar derives**, and then the draft
states exactly the rules of the derivation, in their order. -/
theorem readDocument_clean_iff (words : List String) (text : List Char) :
    (diagnosticsOf text (readDocument words text) = [] ↔ ∃ rs, Document words text rs) ∧
      ∀ rs, Document words text rs → (readDocument words text).rules? = some rs := by
  refine ⟨⟨fun h => ?_, ?_⟩, fun rs hrs => ?_⟩
  · exact ⟨_, document_of_readDocument (List.map_eq_nil_iff.1 h)⟩
  · rintro ⟨rs, hrs⟩
    rw [hrs.read]
    rfl
  · rw [hrs.read]
    rfl

end PasswordPolicy.Grammar
