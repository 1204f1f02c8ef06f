import SqlCanvas.Proofs.Grammar.Operand
import SqlCanvas.Proofs.Pattern.Stop
import SqlCanvas.Proofs.Statement.Vocabulary

/-!
# Where keywords are found in conditions

The pattern for predicates asks for the end of a word behind a keyword and for nothing in front of
it, so the last letters of a word can be taken for the keyword when no operator stands behind the
whole word. The pattern for existence tests stands at the start of the text and asks for nothing
behind its keyword.
-/

namespace SqlCanvas

open Text Nesting Pattern

namespace Filter

/-- An operator stands at the start of the text: a sign, or a keyword up to the end of a word. -/
def OperatorAt (k r : Text) : Prop :=
  (∃ s ∈ signs, k = s.toList) ∨ ∃ ks ∈ wordPhrases, (phrase ks).Covers k ∧ Halts isWord r

/-- What stands behind an operator. -/
def valuePart : Pattern :=
  .all [blanks, .maybe (.capture 3 (.many1 anything)), .textEnd]

theorem operatorAt_of_mem_ends {c d : Cursor} {u : Text} (h : d ∈ operators.ends c)
    (hpasses : c.Passes u d) : OperatorAt u d.rest := by
  obtain ⟨p, hp, hd⟩ := exists_mem_of_mem_oneOf h
  have same {v : Text} (hv : c.Passes v d) : v = u :=
    List.append_cancel_right (hv.rest.symm.trans hpasses.rest)
  rcases List.mem_append.mp hp with hp | hp
  · obtain ⟨ks, hks, rfl⟩ := List.mem_map.mp hp
    obtain ⟨e, he, hd⟩ := exists_mem_of_mem_seq hd
    obtain ⟨rfl, hedge⟩ := mem_ends_boundary.mp hd
    obtain ⟨v, new, stops⟩ := exists_stops he
    obtain rfl := same stops.passes
    obtain ⟨l, hlast, hl⟩ :=
      last_of_covers_phrase (b := c.before) (isPhrase_of_mem_wordPhrases ks hks) stops.covers
    refine .inr ⟨ks, hks, stops.covers, ?_⟩
    rw [Cursor.atBoundary, stops.passes.before, hlast] at hedge
    intro x hx
    simpa [hl, Option.mem_def.mp hx] using hedge
  · obtain ⟨s, hs, rfl⟩ := List.mem_map.mp hp
    obtain ⟨v, new, stops⟩ := exists_stops hd
    exact .inl ⟨s, hs, same stops.passes ▸ covers_sign stops.covers⟩

/-- A match of a predicate cuts its text into an operand, blanks and an operator with the rest
behind it. -/
theorem exists_cut {t : Text} {m : Match} (hm : predicate.match? t = some m) : ∃ g r : Text,
    t = m.captured 1 ++ (g ++ (m.captured 2 ++ r)) ∧ (∀ c ∈ g, isBlank c = true) ∧
      operand.Covers (m.captured 1) ∧ OperatorAt (m.captured 2) r := by
  have parts : predicate =
      textStart.seq ((operand.capture 1).seq (blanks.seq ((operators.capture 2).seq valuePart))) :=
    rfl
  rw [parts, match?_textStart] at hm
  obtain ⟨d, hd, rfl⟩ := Option.map_eq_some_iff.mp hm
  obtain ⟨c₁, h₁, hd⟩ := exists_mem_of_mem_seq (mem_ends_of_run hd)
  obtain ⟨c₂, h₂, hd⟩ := exists_mem_of_mem_seq hd
  obtain ⟨c₃, h₃, hd⟩ := exists_mem_of_mem_seq hd
  obtain ⟨x, -, -, hx, -, first, captures₁⟩ := exists_mark rfl h₁
  obtain ⟨g, hg, gap, captures₂⟩ := exists_passes rfl h₂
  obtain ⟨k, e, he, -, second, third, captures₃⟩ := exists_mark rfl h₃
  -- The value part sets slot 3 only, so the first two slots are read off the cursor in front of it.
  have marked : Marking.of c₃.captures = [(2, k), (1, x)] := by
    rw [captures₃, captures₂, captures₁]
    rfl
  have found (slot : Nat) (hslot : slot ≠ 3) : Match.capture? ⟨d.index, d.captures⟩ slot =
      Marking.find? [(2, k), (1, x)] slot := by
    have marks : valuePart.marks = [(3, many1 anything)] := rfl
    rw [Match.capture?, findCapture?_eq, find?_of_mem_ends hd (by simpa [marks] using hslot.symm),
      marked]
  have one : Match.captured ⟨d.index, d.captures⟩ 1 = x := by
    rw [Match.captured, found 1 (by decide)]
    rfl
  have two : Match.captured ⟨d.index, d.captures⟩ 2 = k := by
    rw [Match.captured, found 2 (by decide)]
    rfl
  rw [one, two]
  refine ⟨g, c₃.rest, ?_, hg, hx, ?_⟩
  · rw [← third.rest, ← gap.rest, ← first.rest]
    rfl
  · have : e.rest = c₃.rest := List.append_cancel_left (second.rest.symm.trans third.rest)
    rw [← this]
    exact operatorAt_of_mem_ends he second

theorem exists_blanks (r : Text) :
    ∃ g v : Text, r = g ++ v ∧ (∀ c ∈ g, isBlank c = true) ∧ Halts isBlank v := by
  refine ⟨r.takeWhile isBlank, r.dropWhile isBlank, List.takeWhile_append_dropWhile.symm,
    fun c hc => ?_, fun c hc => ?_⟩
  · exact List.all_eq_true.mp List.all_takeWhile c hc
  · have := List.head?_dropWhile_not isBlank r
    rw [Option.mem_def.mp hc] at this
    simpa using this

theorem exists_takes_valuePart (b : Option Char) (r : Text) : ∃ m, valuePart.Takes b r [] m := by
  obtain ⟨g, v, rfl, hg, hv⟩ := exists_blanks r
  obtain ⟨m, hvalue⟩ : ∃ m,
      (Pattern.maybe (.capture 3 (.many1 anything))).Takes (lastChar b g) v [] m := by
    by_cases h : v = []
    · subst h
      exact ⟨_, takes_maybe_nothing ((refuses_many1 (halts_nil _)).capture 3)⟩
    · exact ⟨_, ((takes_many1 h (fun _ _ => rfl) (halts_nil _)).capture 3).maybe⟩
  exact ⟨_, Takes.all_cons (takes_blanks hg (by simpa using hv))
    ((Takes.all_cons (v := []) hvalue (.all_cons (v := []) takes_textEnd takes_all_nil)).congr
      (by simp) rfl)⟩

theorem OperatorAt.exists_takes {k r : Text} (h : OperatorAt k r) (b : Option Char) :
    ∃ p ∈ wordOperators ++ signs.map sign, p.Takes b k r [] := by
  rcases h with ⟨s, hs, rfl⟩ | ⟨ks, hks, hk, hr⟩
  · exact ⟨sign s, List.mem_append_right _ (List.mem_map_of_mem hs), takes_sign s b r⟩
  · have isPhrase := isPhrase_of_mem_wordPhrases ks hks
    refine ⟨.seq (phrase ks) .boundary, List.mem_append_left _ ?_, ?_⟩
    · exact List.mem_map_of_mem (f := fun words => Pattern.seq (phrase words) .boundary) hks
    · have := (takes_phrase (b := b) (r := [] ++ r) isPhrase hk).seq
        (takes_boundary_end (last_of_covers_phrase isPhrase hk) hr)
      simpa using this

theorem OperatorAt.halts_isBlank {k r : Text} (h : OperatorAt k r) : Halts isBlank (k ++ r) := by
  rcases h with ⟨s, hs, rfl⟩ | ⟨ks, hks, hk, -⟩
  · obtain ⟨hne, marks⟩ := isMark_of_mem_signs s hs
    exact (halts_append (by simpa using hne) r).mpr (halts_of_forall fun c hc => (marks c hc).2.1)
  · exact halts_isBlank_of_covers_phrase (isPhrase_of_mem_wordPhrases ks hks) hk r

theorem ends_ne_nil_of_operatorAt {g k r : Text} (hg : ∀ c ∈ g, isBlank c = true)
    (hk : OperatorAt k r) (b : Option Char) (i : Nat) (captures : List (Nat × Capture)) :
    (blanks.seq ((operators.capture 2).seq valuePart)).ends ⟨b, g ++ (k ++ r), i, captures⟩ ≠
      [] := by
  obtain ⟨p, hp, htakes⟩ := hk.exists_takes (lastChar b g)
  obtain ⟨captures₁, gap⟩ := (takes_blanks hg hk.halts_isBlank).exists_mem (b := b) i captures
  obtain ⟨captures₂, operator⟩ := htakes.exists_mem (i + g.length) captures₁
  obtain ⟨m, hvalue⟩ := exists_takes_valuePart (lastChar (lastChar b g) k) r
  have marked :=
    List.mem_map_of_mem (f := Cursor.mark 2 ⟨lastChar b g, k ++ r, i + g.length, captures₁⟩)
      (mem_ends_oneOf hp operator)
  obtain ⟨captures₃, value⟩ := hvalue.exists_mem (i + g.length + k.length)
    ((2, ⟨k ++ r, i + g.length + k.length - (i + g.length)⟩) :: captures₂)
  rw [List.append_nil] at value
  exact List.ne_nil_of_mem (List.mem_flatMap.mpr ⟨_, gap, List.mem_flatMap.mpr ⟨_, marked, value⟩⟩)

/-- Where an operator stands behind a complete operand, the operand is taken whole. -/
theorem captured_of_complete {x g k r : Text} {m : Match} (hx : operand.Covers x)
    (hg : ∀ c ∈ g, isBlank c = true) (hk : OperatorAt k r) (hcomplete : Complete x (g ++ (k ++ r)))
    (hm : predicate.match? (x ++ (g ++ (k ++ r))) = some m) : m.captured 1 = x := by
  have parts : predicate =
      textStart.seq ((operand.capture 1).seq (blanks.seq ((operators.capture 2).seq valuePart))) :=
    rfl
  rw [parts, match?_textStart] at hm
  refine captured_of_takes (takes_complete hx hcomplete) (ends_ne_nil_of_operatorAt hg hk) ?_ rfl hm
  have marks : (blanks.seq ((operators.capture 2).seq valuePart)).marks =
      [(2, operators), (3, many1 anything)] :=
    rfl
  simp [marks]

end Filter

/-- The words of an operator that conditions are read with, unless it is a sign. -/
def FilterOperator.keyword? : FilterOperator → Option (List String)
  | .like => some ["LIKE"]
  | .notLike => some ["NOT", "LIKE"]
  | .isIn => some ["IN"]
  | .notIn => some ["NOT", "IN"]
  | .between => some ["BETWEEN"]
  | .notBetween => some ["NOT", "BETWEEN"]
  | .isNull => some ["IS", "NULL"]
  | .isNotNull => some ["IS", "NOT", "NULL"]
  | .exists => some ["EXISTS"]
  | .notExists => some ["NOT", "EXISTS"]
  | _ => none

namespace Filter

def existencePhrases : List (List String) :=
  [["NOT", "EXISTS"], ["EXISTS"]]

theorem isPhrase_of_mem_existencePhrases : ∀ ks ∈ existencePhrases, IsPhrase ks := by
  decide

theorem keyword?_of_mem_existencePhrases : ∀ ks ∈ existencePhrases,
    ((Vocabulary.read? (" ".intercalate ks) : Option FilterOperator).bind FilterOperator.keyword?) =
      some ks := by
  decide

theorem isAscii_spelling (o : FilterOperator) : IsAscii (Vocabulary.spelling o).toList := by
  cases o with
  | compare c => cases c <;> decide
  | _ => decide

theorem isTame_of_operator? {u : Text} {o : FilterOperator}
    (h : operator? (canonicalKeyword u) = some o) : IsTame u := by
  have spelled := spelling_of_operator? h
  refine isTame_of_canonicalKeyword ?_
  rw [vocabularySign] at spelled
  split at spelled
  · rw [‹canonicalKeyword u = _›]
    decide
  · rw [← spelled]
    exact isAscii_spelling o

theorem covers_of_operator? {k r : Text} {o : FilterOperator} {ks : List String}
    (hk : OperatorAt k r) (ho : operator? (canonicalKeyword k) = some o)
    (hks : o.keyword? = some ks) :
    ks ∈ wordPhrases ∧ (phrase ks).Covers k ∧ Halts isWord r := by
  have signed : ∀ s ∈ signs, (operator? (canonicalKeyword s.toList)).bind FilterOperator.keyword? =
      none := by
    decide
  have worded : ∀ ks ∈ wordPhrases, (operator? (" ".intercalate ks)).bind FilterOperator.keyword? =
      some ks := by
    decide
  rcases hk with ⟨s, hs, rfl⟩ | ⟨ks', hks', hcovers, hr⟩
  · have := signed s hs
    rw [ho, Option.bind_some, hks] at this
    cases this
  · obtain ⟨hne, hwords⟩ := isPhrase_of_mem_wordPhrases ks' hks'
    have := worded ks' hks'
    rw [← canonicalKeyword_of_covers_phrase hne hwords (isTame_of_operator? ho) hcovers, ho,
      Option.bind_some, hks] at this
    cases this
    exact ⟨hks', hcovers, hr⟩

theorem covers_of_readKeyword {k : Text} {o : FilterOperator} {ks : List String}
    (hk : (oneOf (existencePhrases.map phrase)).Covers k)
    (ho : readKeyword "FilterCondition" "operator" k = .ok o)
    (hks : o.keyword? = some ks) : ks ∈ existencePhrases ∧ (phrase ks).Covers k := by
  have hread : Vocabulary.read? (canonicalKeyword k) = some o := by
    rw [readKeyword] at ho
    cases h : Vocabulary.read? (α := FilterOperator) (canonicalKeyword k) with
    | none =>
      rw [h] at ho
      cases ho
    | some o' =>
      rw [h] at ho
      cases ho
      rfl
  have tame : IsTame k :=
    isTame_of_canonicalKeyword (Vocabulary.spelling_of_read? hread ▸ isAscii_spelling o)
  obtain ⟨p, hp, hcovers⟩ := covers_oneOf.mp hk
  obtain ⟨ks', hks', rfl⟩ := List.mem_map.mp hp
  obtain ⟨hne, hwords⟩ := isPhrase_of_mem_existencePhrases ks' hks'
  have := keyword?_of_mem_existencePhrases ks' hks'
  rw [← canonicalKeyword_of_covers_phrase hne hwords tame hcovers, hread, Option.bind_some,
    hks] at this
  cases this
  exact ⟨hks', hcovers⟩

/-- What stands behind the keyword of an existence test. -/
def queryPart : Pattern :=
  .all [blanks, .capture 2 (.many1 anything), .textEnd]

theorem exists_keyword {t : Text} {m : Match} (hm : existence.match? t = some m) :
    ∃ r, t = m.captured 1 ++ r ∧ r ≠ [] ∧ (oneOf (existencePhrases.map phrase)).Covers
      (m.captured 1) := by
  have parts : existence =
      textStart.seq (((oneOf (existencePhrases.map phrase)).capture 1).seq queryPart) := rfl
  rw [parts, match?_textStart] at hm
  obtain ⟨d, hd, rfl⟩ := Option.map_eq_some_iff.mp hm
  obtain ⟨c₁, h₁, hd⟩ := exists_mem_of_mem_seq (mem_ends_of_run hd)
  obtain ⟨k, -, -, hk, -, first, captures₁⟩ := exists_mark rfl h₁
  obtain ⟨u, new, stops⟩ := exists_stops hd
  have captured : Match.captured ⟨d.index, d.captures⟩ 1 = k := by
    have marks : queryPart.marks = [(2, many1 anything)] := rfl
    rw [Match.captured, Match.capture?, findCapture?_eq, find?_of_mem_ends hd (by simp [marks]),
      captures₁]
    rfl
  refine ⟨c₁.rest, ?_, ?_, captured ▸ hk⟩
  · rw [captured, ← first.rest]
    rfl
  · obtain ⟨g, _, -, ⟨v, _, hv, -, rfl⟩, rfl⟩ := stops.covers
    rw [stops.passes.rest]
    simp [(covers_many1.mp hv).1]

/-- Whatever stands behind the letters of `EXISTS`, the text is an existence test. -/
theorem match?_existence {ks : List String} (hks : ks ∈ existencePhrases) {k g v : Text}
    (hk : (phrase ks).Covers k) (hg : ∀ c ∈ g, isBlank c = true) (hv : Halts isBlank v)
    (hne : v ≠ []) :
    ∃ m, existence.match? (k ++ (g ++ v)) = some m ∧ m.captured 1 = k ∧ m.captured 2 = v := by
  have isPhrase := isPhrase_of_mem_existencePhrases ks hks
  have first : (oneOf (existencePhrases.map phrase)).Takes none k (g ++ v) [] := by
    rcases List.mem_cons.mp hks with rfl | hks
    · exact takes_oneOf_head (takes_phrase isPhrase hk)
    · obtain rfl := List.mem_singleton.mp hks
      have other : (phrase ["NOT", "EXISTS"]).Refuses none (k ++ (g ++ v)) :=
        refuses_phrase (by decide) isPhrase (by decide) hk
      exact .alt_right other (takes_phrase isPhrase hk)
  have behind : queryPart.Takes (lastChar none k) (g ++ v) [] [(2, v)] := by
    have value :=
      (takes_many1 (b := lastChar (lastChar none k) g) hne (fun _ _ => rfl)
        (halts_nil anything)).capture 2
    exact Takes.all_cons (takes_blanks hg (by simpa using hv))
      ((Takes.all_cons (v := []) value (.all_cons (v := []) takes_textEnd takes_all_nil)).congr
        (by simp) rfl)
  have taken := (Takes.capture 1 (r := g ++ v ++ []) (by simpa using first)).seq behind
  obtain ⟨m, found, -, hcapture⟩ :=
    match?_start_of_takes (w := existence) rfl (List.append_nil _).symm taken
  exact ⟨m, found, by simp [Match.captured, hcapture], by simp [Match.captured, hcapture]⟩

theorem readCondition_existence (scope : Scope) {ks : List String} (hks : ks ∈ existencePhrases)
    {k g v : Text} (hk : (phrase ks).Covers k) (tame : IsTame k) (hg : ∀ c ∈ g, isBlank c = true)
    (hv : Halts isBlank v) (hne : v ≠ []) :
    ∃ o : FilterOperator, o.keyword? = some ks ∧ readCondition scope (k ++ (g ++ v)) =
      .ok (some ⟨none, "", o, .string (String.ofList v.trim), .null⟩) := by
  have isPhrase := isPhrase_of_mem_existencePhrases ks hks
  obtain ⟨m, found, one, two⟩ := match?_existence hks hk hg hv hne
  obtain ⟨o, hread, hkeyword⟩ :=
    Option.bind_eq_some_iff.mp (keyword?_of_mem_existencePhrases ks hks)
  refine ⟨o, hkeyword, ?_⟩
  rw [readCondition, found]
  simp only [one, two, readKeyword, canonicalKeyword_of_covers_phrase isPhrase.1 isPhrase.2 tame hk,
    hread]
  rfl

theorem column_of_existence {scope : Scope} {t : Text} {m : Match}
    (hm : existence.match? t = some m) {found : Option FilterCondition}
    (h : readCondition scope t = .ok found) : ∃ c, found = some c ∧ c.column = "" := by
  rw [readCondition, hm] at h
  obtain ⟨o, -, h⟩ := exists_of_bind_eq_ok h
  cases h
  exact ⟨_, rfl, rfl⟩

/-- Behind the operand that goes on as far as it can stands no operator. -/
def Unreadable (t : Text) : Prop :=
  ∀ x g k r : Text, t = x ++ (g ++ (k ++ r)) → operand.Covers x → Complete x (g ++ (k ++ r)) →
    (∀ c ∈ g, isBlank c = true) → ¬ OperatorAt k r

end Filter

/-- A place where a keyword is written in a text, with the blanks in front of it. -/
structure KeywordPlace (t : Text) (ks : List String) where
  front : Text
  gap : Text
  keyword : Text
  rest : Text
  whole : t = front ++ (gap ++ (keyword ++ rest))
  blank : ∀ c ∈ gap, isBlank c = true
  written : (phrase ks).Covers keyword

namespace KeywordPlace

variable {t : Text} {ks : List String} (place : KeywordPlace t ks)

/-- A word character stands directly in front of the keyword. -/
def Follows : Prop :=
  ∃ c, lastChar none (place.front ++ place.gap) = some c ∧ isWord c = true

/-- A word character stands directly behind the keyword. -/
def GoesOn : Prop :=
  ¬ Halts isWord place.rest

/-- The condition is an existence test whose keyword stands at the start of the text. -/
structure OfExistence (c : FilterCondition) : Prop where
  front : place.front = []
  gap : place.gap = []
  rest : place.rest ≠ []
  column : c.tableId = none ∧ c.column = ""

/-- The condition is a predicate on the operand in front of the keyword. The keyword ends where its
word ends, and it is only preceded by a word character when that character belongs to the operand,
cut short because no operator stands behind the whole of it. -/
structure OfPredicate (scope : Scope) (c : FilterCondition) : Prop where
  operand : Filter.operand.Covers place.front
  column : (c.tableId, c.column.toList) = scope.resolve [] place.front
  ends : ¬ place.GoesOn
  follows : place.Follows ↔
    ¬ Filter.Complete place.front (place.gap ++ (place.keyword ++ place.rest))
  forced : place.Follows → Filter.Unreadable t

end KeywordPlace

namespace Filter

/-- An operand in front of a keyword ends in a word character just when it could go on. -/
theorem follows_iff {ks : List String} {x g k r : Text} (hks : IsPhrase ks) (hx : operand.Covers x)
    (hg : ∀ c ∈ g, isBlank c = true) (hk : (phrase ks).Covers k) :
    (∃ c, lastChar none (x ++ g) = some c ∧ isWord c = true) ↔ ¬ Complete x (g ++ (k ++ r)) := by
  have nonblank : Halts isBlank (k ++ r) := halts_isBlank_of_covers_phrase hks hk r
  obtain ⟨l, k₀, rfl, hl⟩ : ∃ l k₀, k = l :: k₀ ∧ isWord l = true := by
    obtain ⟨first, ks, rfl⟩ := List.exists_cons_of_ne_nil hks.1
    obtain ⟨w, v, hw, rfl, -⟩ := exists_of_covers_phrase hk
    have hname := hw.isName (hks.2 first List.mem_cons_self)
    obtain ⟨l, w, rfl⟩ := List.exists_cons_of_ne_nil hname.1
    exact ⟨l, w ++ v, rfl, hname.2 l List.mem_cons_self⟩
  rw [lastChar_append]
  by_cases hgap : g = []
  · subst hgap
    rcases covers_operand.mp hx with hcall | hreference
    · refine iff_of_false ?_ (not_not_intro (complete_call hcall _))
      obtain ⟨w, g, inside, -, -, -, rfl⟩ := hcall
      rintro ⟨c, hc, hword⟩
      obtain rfl : ')' = c := by simpa using hc
      exact absurd hword (by decide)
    · refine iff_of_true (hreference.last none) fun h => ?_
      have := halts_cons.mp (h.halts hreference)
      rw [hl] at this
      cases this
  · have gap : IsGap g := ⟨hgap, hg⟩
    refine iff_of_false ?_ (not_not_intro ?_)
    · rintro ⟨c, hc, hword⟩
      rw [not_isWord_lastChar_gap gap c hc] at hword
      cases hword
    · rcases covers_operand.mp hx with hcall | hreference
      · exact complete_call hcall _
      · refine complete_reference hreference gap nonblank ?_
        rintro ⟨⟩
        exact absurd hl (by decide)

theorem ofPredicate {scope : Scope} {t : Text} {c : FilterCondition} {ks : List String} {m : Match}
    (hm : predicate.match? t = some m) (ho : operator? (canonicalKeyword (m.captured 2)) =
      some c.operator)
    (hks : c.operator.keyword? = some ks)
    (hcolumn : (c.tableId, c.column.toList) = scope.resolve [] (m.captured 1)) :
    ks ∉ existencePhrases ∧ ∃ place : KeywordPlace t ks, place.OfPredicate scope c := by
  obtain ⟨g, r, ht, hg, hx, hk⟩ := exists_cut hm
  obtain ⟨hmem, hcovers, hr⟩ := covers_of_operator? hk ho hks
  have follows := follows_iff (r := r) (isPhrase_of_mem_wordPhrases ks hmem) hx hg hcovers
  have disjoint : ∀ ks ∈ wordPhrases, ks ∉ existencePhrases := by decide
  refine ⟨disjoint ks hmem, ⟨_, g, _, r, ht, hg, hcovers⟩, hx, hcolumn, not_not_intro hr, follows,
    fun hfollows => ?_⟩
  intro x g' k' r' ht' hx' hcomplete hg' hk'
  have whole : m.captured 1 = x := captured_of_complete hx' hg' hk' hcomplete (ht' ▸ hm)
  refine follows.mp hfollows ?_
  rw [whole] at ht ⊢
  rwa [List.append_cancel_left (ht.symm.trans ht')]

theorem ofExistence {t : Text} {c : FilterCondition} {ks : List String} {m : Match}
    (hm : existence.match? t = some m)
    (ho : readKeyword "FilterCondition" "operator" (m.captured 1) = .ok c.operator)
    (hks : c.operator.keyword? = some ks) (hcolumn : c.tableId = none ∧ c.column = "") :
    ks ∈ existencePhrases ∧ ∃ place : KeywordPlace t ks, place.OfExistence c := by
  obtain ⟨r, ht, hne, hk⟩ := exists_keyword hm
  obtain ⟨hmem, hcovers⟩ := covers_of_readKeyword hk ho hks
  exact ⟨hmem, ⟨[], [], _, r, ht, by simp, hcovers⟩, rfl, rfl, hne, hcolumn⟩

theorem exists_place (scope : Scope) {t : Text} {c : FilterCondition} {ks : List String}
    (h : readCondition scope t = .ok (some c)) (hks : c.operator.keyword? = some ks) :
    ∃ place : KeywordPlace t ks,
      ks ∈ existencePhrases ∧ place.OfExistence c ∨ ks ∉ existencePhrases ∧
      place.OfPredicate scope c := by
  rw [readCondition] at h
  cases hm : existence.match? t with
  | some m =>
    rw [hm] at h
    obtain ⟨o, ho, h⟩ := exists_of_bind_eq_ok h
    cases h
    obtain ⟨hmem, place, hplace⟩ := ofExistence hm ho hks ⟨rfl, rfl⟩
    exact ⟨place, .inl ⟨hmem, hplace⟩⟩
  | none =>
    rw [hm] at h
    cases hm : predicate.match? t with
    | none =>
      rw [hm] at h
      cases h
    | some m =>
      rw [hm] at h
      obtain ⟨⟨table, column⟩, hcolumn⟩ : ∃ found, scope.resolve [] (m.captured 1) = found :=
        ⟨_, rfl⟩
      simp only [hcolumn] at h
      obtain ⟨value, -, h⟩ := exists_of_bind_eq_ok h
      cases ho : operator? (canonicalKeyword (m.captured 2)) with
      | none =>
        rw [ho] at h
        cases h
      | some o =>
        rw [ho] at h
        cases h
        obtain ⟨hmem, place, hplace⟩ := ofPredicate hm ho hks (by simpa using hcolumn.symm)
        exact ⟨place, .inr ⟨hmem, hplace⟩⟩

/-- Where the keywords of conditions are found. Behind the keyword of a predicate a word ends, and
in front of it stands no word character unless the operand had to be cut short. `EXISTS` is found at
the start of a text alone, and there whatever the word goes on with. -/
theorem keyword_places (scope : Scope) :
    (∀ t c ks, readCondition scope t = .ok (some c) → c.operator.keyword? = some ks →
      ∃ place : KeywordPlace t ks,
        ks ∈ existencePhrases ∧ place.OfExistence c ∨ ks ∉ existencePhrases ∧
          place.OfPredicate scope c) ∧
    ∀ ks ∈ existencePhrases, ∀ k g v, (phrase ks).Covers k → IsTame k →
    (∀ c ∈ g, isBlank c = true) →
      Halts isBlank v → v ≠ [] → ∃ o : FilterOperator, o.keyword? = some ks ∧
        readCondition scope (k ++ (g ++ v)) =
          .ok (some ⟨none, "", o, .string (String.ofList v.trim), .null⟩) :=
  ⟨fun _ _ _ h hks => exists_place scope h hks,
    fun _ hks _ _ _ => readCondition_existence scope hks⟩

/-- The last letters of `main` and the first of `exists_flag` are taken for keywords. -/
theorem keyword_places_inside_words :
    (∃ (c : FilterCondition) (place : KeywordPlace "main (1)".toList ["IN"]),
      readCondition .empty "main (1)".toList = .ok (some c) ∧ c.column = "ma" ∧
        place.OfPredicate .empty c) ∧
    ∃ o : FilterOperator, o.keyword? = some ["EXISTS"] ∧
    readCondition .empty "exists_flag = 1".toList =
      .ok (some ⟨none, "", o, .string "_flag = 1", .null⟩) := by
  constructor
  · have read : readCondition .empty "main (1)".toList =
        .ok (some ⟨none, "ma", .isIn, .string "1", .null⟩) :=
      eq_ok_of_toOption (by decide +kernel)
    obtain ⟨place, ⟨hmem, -⟩ | ⟨-, hplace⟩⟩ := (keyword_places .empty).1 _ _ ["IN"] read rfl
    · exact absurd hmem (by decide)
    · exact ⟨_, place, read, rfl, hplace⟩
  · have spelled : (phrase ["EXISTS"]).Covers "exists".toList := covers_word.mpr (by decide)
    exact (keyword_places .empty).2 ["EXISTS"] (by decide) _ [] "_flag = 1".toList spelled
      (by decide) (by simp) (halts_cons.mpr (by decide)) (by decide)

end Filter

end SqlCanvas
