import SqlCanvas.Proofs.Structure.Membership
import SqlCanvas.Proofs.Structure.Tree
import SqlCanvas.Proofs.Text.Ahead

/-!
# Ranges

A column with `BETWEEN` or `NOT BETWEEN` and two ends behind it, among other conditions. Reading
keeps the two ends as one text in which the first `AND` is put between single spaces. That is the
`AND` between the ends unless the lower end is a string with an `AND` between blanks in it: quotes
do not matter there.
-/

namespace SqlCanvas

open Text Nesting Pattern

namespace Filter

theorem refuses_andWord {b : Option Char} {t : Text} (h : ¬ KeywordAhead "AND" t) :
    andWord.Refuses b t := by
  refine refuses_of_not_covers fun u v huv hu => h ?_
  obtain ⟨g, _, hg, ⟨w, _, hw, ⟨g', _, hg', rfl, rfl⟩, rfl⟩, rfl⟩ := hu
  exact ⟨g, w, g', v, by simpa using huv, covers_many1.mp hg, covers_word.mp hw,
    covers_many1.mp hg'⟩

theorem takes_andWord {b : Option Char} {g w g' r : Text} (hg : IsGap g)
    (hw : Spells "AND".toList w) (hg' : IsGap g') (hr : Halts isBlank r) :
    andWord.Takes b (g ++ (w ++ g')) r [] := by
  have name : IsName w := hw.isName isKeyword_and
  have gap {b : Option Char} : (all [blank]).Takes b g' r [] := (takes_blank hg' hr).all_last
  have word {b : Option Char} : (all [Pattern.word "AND", blank]).Takes b (w ++ g') r [] :=
    .all_pass (takes_word hw) gap
  exact .all_pass (takes_blank hg (by simpa using name.halts_isBlank (g' ++ r))) word

/-- Only the first `AND` between blanks, and the blanks around it, are written anew. -/
theorem normaliseFirstAnd_append {x g w g' r : Text}
    (hx : ClearOfKeyword "AND" x (g ++ (w ++ (g' ++ r)))) (hg : IsGap g)
    (hw : Spells "AND".toList w) (hg' : IsGap g') (hr : Halts isBlank r) :
    normaliseFirstAnd (x ++ (g ++ (w ++ (g' ++ r)))) = x ++ (" AND ".toList ++ r) := by
  have taken := takes_andWord (b := lastChar none x) hg hw hg' hr
  have whole : x ++ (g ++ (w ++ (g' ++ r))) = x ++ ((g ++ (w ++ g')) ++ r) := by simp
  have ahead : g ++ (w ++ (g' ++ r)) = (g ++ (w ++ g')) ++ r := by simp
  rw [ahead] at hx
  obtain ⟨o, hfound, hstart, hstop⟩ := exists_first_occurrence
    (fun y z hyz hz => refuses_andWord (hx y z hyz hz)) (by simp [hg.1]) taken 0
  have front : (x ++ ((g ++ (w ++ g')) ++ r)).take o.start = x := by
    rw [hstart, Nat.zero_add, List.take_left]
  have back : (x ++ ((g ++ (w ++ g')) ++ r)).drop o.stop = r := by
    rw [hstop, Nat.zero_add, ← List.drop_drop, List.drop_left, List.drop_left]
  obtain ⟨later, hfound⟩ := List.head?_eq_some_iff.mp hfound
  rw [whole, normaliseFirstAnd, occurrences, hfound]
  simp only [front, back]
  rw [List.append_assoc]

end Filter

theorem IsClockChar.not_isBlank {c : Char} (h : IsClockChar c) : isBlank c = false := by
  rcases h with (h | rfl | rfl | rfl | rfl) | rfl | rfl
  · exact not_isBlank_of_isWord (WrittenLiteral.isWord_of_isDigit h)
  all_goals decide

theorem IsNumericText.not_isBlank {t : Text} (h : IsNumericText t) : ∀ c ∈ t, isBlank c = false :=
  fun c hc => IsClockChar.not_isBlank (.inl (h.2 c hc))

theorem Scalar.not_isBlank_sql {v : Scalar} (hv : ∀ s, v ≠ .string s) :
    ∀ c ∈ v.sql, isBlank c = false := by
  have literal {t : Text} (ht : ∀ k, ¬ IsClockChar k → k ∉ t) : ∀ c ∈ plainLiteral t, isBlank c =
      false := by
    refine List.forall_mem_append.mpr ⟨List.forall_mem_cons.mpr ⟨by decide, fun c hc => ?_⟩,
      by decide⟩
    by_contra hblank
    exact ht c (fun hclock => hblank hclock.not_isBlank) hc
  cases v with
  | null => decide
  | bool b => cases b <;> decide
  | int n => exact (Numeral.isNumericText_ofInt n).not_isBlank
  | float x =>
    cases x with
    | nan => decide
    | infinite negative => cases negative <;> decide
    | finite negative significand exponent h =>
      exact (Binary64.isNumericText_text negative significand exponent h).not_isBlank
  | string s => exact absurd rfl (hv s)
  | date d => exact literal fun k hk => d.not_mem_iso hk
  | moment m => exact literal fun k hk => m.not_mem_iso hk
  | clock c => exact literal fun k hk => c.not_mem_iso hk

def rangeEnds (low high : Scalar) : Text :=
  low.sql ++ (" AND ".toList ++ high.sql)

theorem exists_rangeEnds (low high : Scalar) : ∃ ts, textOf ts = rangeEnds low high ∧ Solid ts := by
  obtain ⟨us, hlow, hus⟩ := low.isQuiet_sql
  obtain ⟨vs, hhigh, hvs⟩ := high.isQuiet_sql
  refine ⟨_, ?_, FilterPart.andGap.solid hus.solid hvs.solid⟩
  simp [FilterPart.andGap, WordGap.textOf_capital, hlow, hhigh, rangeEnds]

theorem Scalar.halts_isBlank_sql (v : Scalar) : Halts isBlank v.sql := by
  obtain ⟨ts, hts, hquiet⟩ := v.isQuiet_sql
  simpa [hts] using hquiet.solid.halts_isBlank []

/-- The first `AND` between blanks, if the text has one, is in capitals and has one space on either
side. -/
def FirstAndPlain (s : Text) : Prop :=
  ∀ x g w g' r, s = x ++ (g ++ (w ++ (g' ++ r))) → ClearOfKeyword "AND" x (g ++ (w ++ (g' ++ r))) →
    IsGap g → Spells "AND".toList w → IsGap g' → Halts isBlank r → g ++ (w ++ g') = " AND ".toList

theorem normaliseFirstAnd_of_clear {low high : Scalar}
    (h : ClearOfKeyword "AND" low.sql (" AND ".toList ++ high.sql)) :
    Filter.normaliseFirstAnd (rangeEnds low high) = rangeEnds low high := by
  have space : IsGap [' '] := ⟨by decide, by decide⟩
  have word : Spells "AND".toList "AND".toList := spells_self
  have behind : ClearOfKeyword "AND" low.sql ([' '] ++ ("AND".toList ++ ([' '] ++ high.sql))) := h
  exact Filter.normaliseFirstAnd_append behind space word space high.halts_isBlank_sql

section Quoted

variable {s : Text} {high : Scalar}

theorem not_blank_quote : isBlank '\'' = false ∧ isWord '\'' = false := by
  decide

theorem not_keywordAhead_quotedLiteral (r : Text) : ¬ KeywordAhead "AND" ('\'' :: r) :=
  not_keywordAhead_quote (by decide) r

theorem clear_quotedLiteral (h : ¬ HoldsKeyword "AND" s) (r : Text) :
    ClearOfKeyword "AND" (quotedLiteral s) r := by
  refine clearOfKeyword_cons.mpr ⟨not_keywordAhead_quotedLiteral _, ?_⟩
  have doubled : ¬ HoldsKeyword "AND" (doubleQuotes '\'' s) :=
    mt (holdsKeyword_doubleQuotes isKeyword_and (by decide)).mp h
  refine ClearOfKeyword.append (clearOfKeyword_of_not_holds isKeyword_and not_blank_quote doubled)
    ?_
  exact clearOfKeyword_of_not_isBlank (by decide) r

/-- In a string with an `AND` between blanks it is that one that is written anew. -/
theorem normaliseFirstAnd_quotedLiteral {x g w g' r : Text} (hs : s = x ++ (g ++ (w ++ (g' ++ r))))
    (hx : ClearOfKeyword "AND" x (g ++ (w ++ (g' ++ r)))) (hg : IsGap g)
    (hw : Spells "AND".toList w) (hg' : IsGap g') (hr : Halts isBlank r) (t : Text) :
    ∃ front back, quotedLiteral s ++ t = front ++ (g ++ (w ++ g') ++ back) ∧
      Filter.normaliseFirstAnd (quotedLiteral s ++ t) = front ++ (" AND ".toList ++ back) := by
  -- Doubling quotes changes neither the keyword nor the gaps around it.
  have between :=
    doubleQuotes_of_not_mem
      (KeywordAhead.quote_not_mem (q := '\'') isKeyword_and (by decide) hg hw hg')
  have behind : doubleQuotes '\'' (g ++ (w ++ (g' ++ r))) =
      g ++ (w ++ (g' ++ doubleQuotes '\'' r)) := by
    have flat : g ++ (w ++ (g' ++ r)) = (g ++ (w ++ g')) ++ r := by simp
    rw [flat, doubleQuotes_append, between]
    simp
  have text : quotedLiteral s ++ t =
      '\'' :: doubleQuotes '\'' x ++ (g ++ (w ++ (g' ++ (doubleQuotes '\'' r ++ '\'' :: t)))) := by
    rw [hs, quotedLiteral, doubleQuotes_append, behind]
    simp
  have clear : ClearOfKeyword "AND" ('\'' :: doubleQuotes '\'' x)
      (g ++ (w ++ (g' ++ (doubleQuotes '\'' r ++ '\'' :: t)))) := by
    refine clearOfKeyword_cons.mpr ⟨not_keywordAhead_quotedLiteral _, ?_⟩
    have := (clearOfKeyword_doubleQuotes isKeyword_and (by decide : isQuote '\'' = true)).mpr hx
    rw [behind] at this
    have := this.append_right (r := t) isKeyword_and not_blank_quote
    simpa using this
  have halts : Halts isBlank (doubleQuotes '\'' r ++ '\'' :: t) := by
    cases r with
    | nil => exact halts_cons.mpr not_blank_quote.1
    | cons c r =>
      rw [doubleQuotes]
      split
      · exact halts_cons.mpr not_blank_quote.1
      · exact halts_cons.mpr (halts_cons.mp hr)
  refine ⟨'\'' :: doubleQuotes '\'' x, doubleQuotes '\'' r ++ '\'' :: t, by simp [text], ?_⟩
  rw [text]
  exact Filter.normaliseFirstAnd_append clear hg hw hg' halts

end Quoted

theorem normaliseFirstAnd_rangeEnds_iff (low high : Scalar) :
    Filter.normaliseFirstAnd (rangeEnds low high) = rangeEnds low high ↔
      ∀ s, low = .string s → FirstAndPlain s.toList := by
  by_cases hstring : ∃ s, low = .string s
  · obtain ⟨s, rfl⟩ := hstring
    have literal : (Scalar.string s).sql = quotedLiteral s.toList := rfl
    have plain : (∀ s', Scalar.string s = .string s' → FirstAndPlain s'.toList) ↔
        FirstAndPlain s.toList :=
      ⟨fun h => h s rfl, fun h s' hs' => Scalar.string.inj hs' ▸ h⟩
    rw [plain]
    constructor
    · intro hkept x g w g' r hs hx hg hw hg' hr
      obtain ⟨front, back, htext, hnormalised⟩ := normaliseFirstAnd_quotedLiteral hs hx hg hw hg' hr
        (" AND ".toList ++ high.sql)
      rw [rangeEnds, literal, hnormalised, htext] at hkept
      exact (List.append_cancel_right (List.append_cancel_left hkept)).symm
    · intro hplain
      by_cases hholds : HoldsKeyword "AND" s.toList
      · obtain ⟨x, y, hs, hahead, hx⟩ := exists_first_keyword hholds
        obtain ⟨g, w, g', r, rfl, hg, hw, hg', hr⟩ := hahead.exists_split
        obtain ⟨front, back, htext, hnormalised⟩ :=
          normaliseFirstAnd_quotedLiteral hs hx hg hw hg' hr (" AND ".toList ++ high.sql)
        rw [rangeEnds, literal, hnormalised, htext, hplain x g w g' r hs hx hg hw hg' hr]
      · exact normaliseFirstAnd_of_clear (clear_quotedLiteral hholds _)
  · have other : ∀ s, low ≠ .string s := fun s hs => hstring ⟨s, hs⟩
    refine iff_of_true (normaliseFirstAnd_of_clear ?_) fun s hs => absurd hs (other s)
    exact clearOfKeyword_of_not_isBlank (Scalar.not_isBlank_sql other) _

/-- A part of a filter whose text is read as the condition. -/
structure FilterPart.States (p : FilterPart) (scope : Scope) (t : Text) (c : FilterCondition) :
    Prop where
  text : p.text = t
  head : p.text.head? ≠ some '('
  reads : Filter.readCondition scope t = .ok (some c)

/-- Texts that state conditions, with `AND` between them, are read as these conditions in order. -/
theorem Filter.read_stated {scope : Scope} {entries : List (Text × FilterCondition)}
    (hne : entries ≠ []) (h : ∀ e ∈ entries, ∃ p : FilterPart, p.States scope e.1 e.2) :
    read scope (" AND ".toList.intercalate (entries.map (·.1))) =
      .ok ⟨.and, entries.map fun e => .condition e.2⟩ := by
  obtain ⟨ps, hps⟩ := exists_forall₂ h
  have psne : ps ≠ [] := by
    rintro rfl
    exact hne (List.forall₂_nil_right_iff.mp hps)
  have texts : entries.map (·.1) = ps.map FilterPart.text :=
    map_eq_map_of_forall₂ hps fun _ _ hp => hp.text.symm
  have bare : ∀ p ∈ ps, p.text.stripParens = p.text := by
    intro p hp
    obtain ⟨e, -, he⟩ := exists_of_forall₂_right hps p hp
    exact p.solid.stripParens he.head
  have outer : (joined .and ps).stripParens = joined .and ps := by
    match ps, psne, bare with
    | [p], _, bare => rw [joined_singleton, bare p List.mem_cons_self]
    | p :: q :: ps, _, _ => exact stripParens_joined .and
  have stripped : (ps.map FilterPart.text).map stripParens = ps.map FilterPart.text := by
    rw [List.map_map]
    exact List.map_congr_left bare
  have atomic : (ps.map FilterPart.text).filter isAtomic = ps.map FilterPart.text :=
    List.filter_eq_self.mpr (List.forall_mem_map.mpr fun p _ => p.isAtomic_text)
  have conditions : (ps.map FilterPart.text).mapM (readCondition scope) =
      .ok (entries.map fun e => some e.2) := by
    rw [List.mapM_map]
    exact mapM_of_forall₂ hps fun e p hp => (congrArg (readCondition scope) hp.text).trans hp.reads
  have whole : " AND ".toList.intercalate (entries.map (·.1)) = joined .and ps := by
    rw [texts]
    rfl
  rw [whole, read, outer, splitOr_joined_and psne]
  simp only [List.length_singleton, lt_irrefl, if_false]
  rw [splitConjuncts_joined psne, readConditions, stripped, atomic, conditions]
  change Except.ok (FilterGroup.mk _ _) = _
  simp [List.filterMap_map]

def rangeWords : Bool → List String
  | false => ["BETWEEN"]
  | true => ["NOT", "BETWEEN"]

def rangeOperator (negated : Bool) : FilterOperator :=
  if negated then .notBetween else .between

/-- A range of a column that cannot be taken for the start of an existence test, between two values
that can be written. -/
structure WrittenRange where
  column : Ref
  plain : (Operand.column column).Plain
  negated : Bool
  low : Scalar
  high : Scalar
  writable : ∀ n ∈ low.numerals ++ high.numerals, Numeral.IsWritable n

namespace WrittenRange

variable (r : WrittenRange)

def text : Text :=
  (predicateSql (String.ofList r.column.text) (Vocabulary.spelling (rangeOperator r.negated))
    (.scalar r.low) (.scalar r.high)).toList

theorem shape_rangeOperator (negated : Bool) : (rangeOperator negated).shape = .range := by
  cases negated <;> rfl

theorem write_eq :
    predicateWrite (String.ofList r.column.text) (Vocabulary.spelling (rangeOperator r.negated))
    (.scalar r.low) (.scalar r.high) = .ok (String.ofList r.text) := by
  rw [text, String.ofList_toList, predicateWrite, operatorShape_spelling, shape_rangeOperator]
  exact writing_of_forall r.writable

def phrase : Phrase (rangeWords r.negated) :=
  .capital _ (by cases r.negated <;> decide)

theorem text_eq :
    r.text = (Operand.column r.column).text ++ (Gap.space.text ++ (textOf r.phrase.tokens ++
    (Gap.space.text ++ rangeEnds r.low r.high))) := by
  have words : (" ".intercalate (rangeWords r.negated)).toList =
      (Vocabulary.spelling (rangeOperator r.negated)).toList := by
    cases r.negated <;> decide
  rw [text, predicateSql, String.toList_ofList, operatorShape_spelling, shape_rangeOperator, phrase,
    Phrase.textOf_capital, words]
  simp [writePredicate, Datum.sql, rangeEnds, Gap.space, Operand.text, Operand.tokens, Ref.text]

def condition (scope : Scope) : FilterCondition where
  tableId := r.column.tableIn scope
  column := String.ofList r.column.column.text
  operator := rangeOperator r.negated
  value := .scalar (.string (String.ofList (Filter.normaliseFirstAnd (rangeEnds r.low r.high))))
  value2 := .null

theorem readCondition_eq (scope : Scope) :
    Filter.readCondition scope r.text = .ok (some (r.condition scope)) := by
  obtain ⟨ts, hts, solid⟩ := exists_rangeEnds r.low r.high
  have trimmed : (rangeEnds r.low r.high).trim = rangeEnds r.low r.high := hts ▸ solid.trim_self
  have value : Filter.readValue (some (rangeOperator r.negated)) (some (rangeEnds r.low r.high)) =
      .ok (.string (String.ofList (Filter.normaliseFirstAnd (rangeEnds r.low r.high)))) := by
    cases r.negated <;> simp [Filter.readValue, rangeOperator, trimmed]
  have operator : Filter.operator? (" ".intercalate (rangeWords r.negated)) =
      some (rangeOperator r.negated) := by
    cases r.negated <;> decide +kernel
  have halts : Halts isBlank (rangeEnds r.low r.high) := by
    simpa [hts] using solid.halts_isBlank []
  rw [text_eq]
  exact r.plain.readCondition_words .space (by cases r.negated <;> decide) r.phrase
    Gap.space.isGap.2
    (Gap.space.isGap.halts_isWord _) halts (hts ▸ solid.textOf_ne_nil) operator value scope

theorem exists_part (scope : Scope) :
    ∃ p : FilterPart, p.States scope r.text (r.condition scope) := by
  have quiet : IsQuiet r.column.text :=
    ⟨r.column.tokens, rfl, r.column.solid,
      fun a ha => ((Operand.column r.column).avoids a ha).mono (by decide)⟩
  have existence : rangeOperator r.negated ≠ .exists ∧ rangeOperator r.negated ≠ .notExists := by
    cases r.negated <;> decide
  obtain ⟨p, hp⟩ :=
    FilterCondition.exists_predicate quiet (.scalar r.low) r.high existence (.inl ⟨_, rfl⟩)
  have text : p.text = r.text := by
    rw [hp, WrittenRange.text, predicateSql, operatorShape_spelling, String.toList_ofList,
      String.toList_ofList]
    rfl
  refine ⟨p, text, ?_, r.readCondition_eq scope⟩
  rw [hp,
    FilterCondition.head?_writePredicate (FilterOperator.shape_ne_existence existence)
      r.column.isName_ne_nil]
  exact r.column.head_ne (by decide)

end WrittenRange

theorem WrittenCondition.exists_part (c : WrittenCondition) (scope : Scope) :
    ∃ p : FilterPart, p.States scope c.conjunct.text (c.condition scope) := by
  refine ⟨.whole c.conjunct.tokens ⟨c.conjunct.solid, fun a ha => ?_⟩, rfl, c.conjunct.unwrapped,
    c.readCondition_eq scope⟩
  exact ((c.conjunct.avoids a ha).mono (by decide)).misses

/-- A range is written, and among conditions it is read as one condition at its place, on its column
and with its operator. Its ends are kept as they were written unless the lower one is a string in
which the first `AND` between blanks is written otherwise. -/
theorem WrittenRange.read_among (r : WrittenRange) (before after : List WrittenCondition)
    (scope : Scope) :
    predicateWrite (String.ofList r.column.text) (Vocabulary.spelling (rangeOperator r.negated))
      (.scalar r.low) (.scalar r.high) = .ok (String.ofList r.text) ∧
    ∃ kept : String,
      Filter.read scope (" AND ".toList.intercalate
          (before.map (·.conjunct.text) ++ r.text :: after.map (·.conjunct.text))) =
        .ok ⟨.and,
          (before.map (·.condition scope) ++
            ⟨r.column.tableIn scope, String.ofList r.column.column.text,
          rangeOperator r.negated, .scalar (.string kept), .null⟩ :: after.map
            (·.condition scope)).map .condition⟩ ∧
      (kept.toList = r.low.sql ++ (" AND ".toList ++ r.high.sql) ↔ ∀ s, r.low = .string s →
        FirstAndPlain s.toList) := by
  refine ⟨r.write_eq, String.ofList (Filter.normaliseFirstAnd (rangeEnds r.low r.high)), ?_, ?_⟩
  · have entry (c : WrittenCondition) := c.exists_part scope
    have entries : ∀ e ∈ before.map (fun c => (c.conjunct.text, c.condition scope)) ++
        (r.text, r.condition scope) :: after.map (fun c => (c.conjunct.text, c.condition scope)),
        ∃ p : FilterPart, p.States scope e.1 e.2 :=
      List.forall_mem_append.mpr ⟨List.forall_mem_map.mpr fun c _ => entry c,
        List.forall_mem_cons.mpr ⟨r.exists_part scope, List.forall_mem_map.mpr fun c _ => entry c⟩⟩
    have := Filter.read_stated (by simp) entries
    simp only [List.map_append, List.map_cons, List.map_map] at this ⊢
    exact this
  · rw [String.toList_ofList]
    exact normaliseFirstAnd_rangeEnds_iff r.low r.high

theorem not_firstAndPlain_small : ¬ FirstAndPlain "x and y".toList := by
  intro h
  have clear : ClearOfKeyword "AND" ['x'] " and y".toList :=
    clearOfKeyword_of_not_isBlank (by decide) _
  have :=
    h ['x'] [' '] "and".toList [' '] ['y'] rfl clear ⟨by decide, by decide⟩ (by decide) ⟨by decide,
      by decide⟩
    (halts_cons.mpr (by decide))
  exact absurd this (by decide)

/-- The range of a column between `x and y` and `z`, which has an `and` in its lower end. -/
def smallAndRange : WrittenRange where
  column := ⟨none, (by decide : IsPlain "a").ident⟩
  plain := ⟨IsPlain.plain_ident _, by decide⟩
  negated := false
  low := .string "x and y"
  high := .string "z"
  writable := List.forall_mem_nil _

theorem small_and_rewritten : ∃ kept : String,
    Filter.read .empty "a BETWEEN 'x and y' AND 'z'".toList =
        .ok ⟨.and, [.condition ⟨none, "a", .between, .scalar (.string kept), .null⟩]⟩ ∧
      kept ≠ "'x and y' AND 'z'" := by
  obtain ⟨-, kept, hread, hkept⟩ := smallAndRange.read_among [] [] .empty
  have text : smallAndRange.text = "a BETWEEN 'x and y' AND 'z'".toList := by
    decide +kernel
  simp only [List.map_nil, List.nil_append, List.intercalate_singleton, text] at hread
  refine ⟨kept, hread, ?_⟩
  rintro rfl
  exact not_firstAndPlain_small (hkept.mp (by decide) _ rfl)

end SqlCanvas
