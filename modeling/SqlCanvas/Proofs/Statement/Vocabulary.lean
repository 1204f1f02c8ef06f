import SqlCanvas.Proofs.Statement.Legible

/-!
# Keywords of readable texts

Every keyword that a pattern marks in a readable text is spelled like a member of the vocabulary
that it is read into, once it is put in capital letters with single blanks. So no reader has to
refuse a keyword, and none leaves out a piece that its pattern recognises.
-/

namespace SqlCanvas

open Text Pattern

/-- The keyword is spelled as one of the vocabulary. -/
def Vocabulary.Has (α : Type) [Vocabulary α] (keyword : String) : Prop :=
  ∃ a : α, Vocabulary.spelling a = keyword

def vocabularySign (s : String) : String :=
  if s = "<>" then "!=" else s

theorem has_of_readKeyword {α : Type} [Vocabulary α] {model field : String} {t : Text}
    (h : ∃ a : α, readKeyword model field t = .ok a) : Vocabulary.Has α (canonicalKeyword t) := by
  obtain ⟨a, h⟩ := h
  rw [readKeyword] at h
  cases hread : Vocabulary.read? (α := α) (canonicalKeyword t) with
  | none =>
    rw [hread] at h
    cases h
  | some b => exact ⟨b, Vocabulary.spelling_of_read? hread⟩

theorem has_of_readKind {keyword : Text} (h : ∃ kind, Statement.readKind keyword = .ok kind) :
    Vocabulary.Has StatementKind (String.ofList keyword) := by
  obtain ⟨kind, h⟩ := h
  rw [Statement.readKind] at h
  cases hread : Vocabulary.read? (α := StatementKind) (String.ofList keyword) with
  | none =>
    rw [hread] at h
    cases h
  | some b => exact ⟨b, Vocabulary.spelling_of_read? hread⟩

theorem Filter.spelling_of_comparison? {s : String} {c : Comparison} (h : comparison? s = some c) :
    Vocabulary.spelling c = vocabularySign s := by
  rw [comparison?] at h
  rw [vocabularySign]
  split at h
  · cases h
    rw [if_pos ‹_›]
    rfl
  · rw [if_neg ‹_›]
    exact Vocabulary.spelling_of_read? h

theorem Filter.spelling_of_operator? {keyword : String} {operator : FilterOperator}
    (h : operator? keyword = some operator) :
    Vocabulary.spelling operator = vocabularySign keyword := by
  rw [operator?] at h
  cases hc : comparison? keyword with
  | some c =>
    rw [hc] at h
    cases h
    exact spelling_of_comparison? hc
  | none =>
    rw [hc] at h
    have plain : keyword ≠ "<>" := by
      rintro rfl
      cases hc
    rw [vocabularySign, if_neg plain]
    exact Vocabulary.spelling_of_read? h

namespace Select

theorem exists_joinSign {t : Text} {m : Match} (hm : joinPredicate.match? t = some m) :
    ∃ c, Filter.comparison? (String.ofList (m.captured 3)) = some c := by
  have known : ∀ s ∈ Filter.signs, (Filter.comparison? s).isSome := by decide
  obtain ⟨-, body, hbody, hcovers⟩ := captured_of_match? 3 hm rfl
  have marks : joinPredicate.marks =
    [(1, name), (2, name), (3, oneOf (Filter.signs.map Filter.sign)),
      (4, name), (5, name)] := rfl
  simp only [marks, List.mem_cons, Prod.mk.injEq, List.not_mem_nil, or_false, true_and] at hbody
  obtain rfl : body = oneOf (Filter.signs.map Filter.sign) := by simpa using hbody
  obtain ⟨p, hp, hcovers⟩ := covers_oneOf.mp hcovers
  obtain ⟨s, hs, rfl⟩ := List.mem_map.mp hp
  rw [Filter.covers_sign hcovers, String.ofList_toList]
  exact Option.isSome_iff_exists.mp (known s hs)

theorem exists_direction {t keyword : Text} {m : Match} (h : Tractable t)
    (hm : orderItem.match? t = some m) (hk : m.capture? 2 = some keyword) :
    ∃ direction : Direction, readKeyword "OrderByClause" "direction" keyword = .ok direction := by
  obtain ⟨hin, body, hbody, hcovers⟩ := marks_of_match? hm hk
  have marks : orderItem.marks = [(1, .few1 fun c => !isBlank c),
      (2, oneOf ([["ASC"], ["DESC"]].map phrase))] := rfl
  simp only [marks, List.mem_cons, Prod.mk.injEq, List.not_mem_nil, or_false, true_and] at hbody
  obtain rfl : body = oneOf ([["ASC"], ["DESC"]].map phrase) := by simpa using hbody
  refine readKeyword_of_covers _ _ ?_ (h.tame.of_isInfix hin) hcovers
  decide

theorem OnPredicate.isSome_read? (lookup : Lookup) (t : Text) :
    (read? lookup t).isSome = (joinPredicate.match? t.stripParens).isSome := by
  rw [read?]
  cases hm : joinPredicate.match? t.stripParens with
  | none => rfl
  | some m =>
    obtain ⟨c, hc⟩ := exists_joinSign hm
    simp only [Option.bind_eq_bind, Option.bind_some, hc]
    rfl

theorem isSome_readOrderItem? (scope : Scope) (aliases : List Text) {t : Text} (h : Tractable t) :
    (readOrderItem? scope aliases t).isSome = (orderItem.match? t).isSome := by
  rw [readOrderItem?]
  cases hm : orderItem.match? t with
  | none => rfl
  | some m =>
    simp only [Option.bind_eq_bind, Option.bind_some]
    cases hk : m.capture? 2 with
    | none => rfl
    | some keyword =>
      obtain ⟨direction, hread⟩ := has_of_readKeyword (exists_direction h hm hk)
      simp only [← hread, Direction.read?_spelling]
      rfl

end Select

/-- Each keyword that a pattern marks in the text lies in the vocabulary it is read into, and
nothing that its pattern recognises is left out. -/
structure KeywordsKnown (t : Text) : Prop where
  statement : ∀ keyword ∈ firstKeyword? t, Vocabulary.Has StatementKind (String.ofList keyword)
  operation : ∀ o ∈ t.topLevelOccurrences setOperation,
    Vocabulary.Has SetOperation (canonicalKeyword (o.captured 1))
  join : ∀ start stop, ∀ o ∈ t.topLevelIn Select.joinTable start stop, ∀ keyword ∈ o.capture? 1,
    Vocabulary.Has JoinKind (canonicalKeyword keyword)
  sign : ∀ m ∈ Select.joinPredicate.match? t,
    Vocabulary.Has Comparison (vocabularySign (String.ofList (m.captured 3)))
  operator : ∀ m ∈ Filter.predicate.match? t,
    Vocabulary.Has FilterOperator (vocabularySign (canonicalKeyword (m.captured 2)))
  existence : ∀ m ∈ Filter.existence.match? t,
    Vocabulary.Has FilterOperator (canonicalKeyword (m.captured 1))
  aggregate : ∀ m ∈ Select.aggregateItem.match? t,
    Vocabulary.Has Aggregate (canonicalKeyword (m.captured 1))
  direction : ∀ m ∈ Select.orderItem.match? t, ∀ keyword ∈ m.capture? 2,
    Vocabulary.Has Direction (canonicalKeyword keyword)
  predicatesKept : ∀ lookup, (Select.OnPredicate.read? lookup t).isSome =
    (Select.joinPredicate.match? t.stripParens).isSome
  conditionsKept : ∀ scope, ∃ c, Filter.readCondition scope t = .ok c ∧
    c.isSome = ((Filter.existence.match? t).isSome || (Filter.predicate.match? t).isSome)
  orderKept : ∀ scope aliases, (Select.readOrderItem? scope aliases t).isSome =
    (Select.orderItem.match? t).isSome

theorem Readable.keywordsKnown {t : Text} (h : Readable t) : KeywordsKnown t where
  statement _ hk := has_of_readKind (exists_readKind_of_firstKeyword? h.tractable.tame hk)
  operation _ ho := has_of_readKeyword (exists_setOperation h.tractable.tame ho)
  join _ _ _ ho _ hk := has_of_readKeyword (Select.exists_joinKind h.tractable ho hk)
  sign _ hm := (Select.exists_joinSign hm).imp fun _ => Filter.spelling_of_comparison?
  operator _ hm :=
    (Filter.exists_predicateOperator h.tractable hm).imp fun _ => Filter.spelling_of_operator?
  existence _ hm := has_of_readKeyword (Filter.exists_existenceOperator h.tractable hm)
  aggregate _ hm := has_of_readKeyword (Select.exists_aggregateFunction h.tractable hm)
  direction _ hm _ hk := has_of_readKeyword (Select.exists_direction h.tractable hm hk)
  predicatesKept lookup := Select.OnPredicate.isSome_read? lookup t
  conditionsKept scope := Filter.exists_readCondition scope h.tractable
  orderKept scope aliases := Select.isSome_readOrderItem? scope aliases h.tractable

/-- Reading is total on readable texts: with every source of ids, in every state, a statement comes
out, with the queries inside it at every depth. Whatever is cut out of the text on the way is
readable again, so each keyword met there lies in its vocabulary, and no piece with a form that is
known is left out. -/
theorem Statement.read_total {sql : Text} (h : Readable sql) :
    (∀ {σ : Type} (ids : IdSource σ) (s : σ), ∃ statement s', (read ids sql).run s =
      (.ok statement, s')) ∧ (∀ t, t <:+: sql → KeywordsKnown t) ∧
      ∀ t, t <:+: sql → ∀ conjunct ∈ Filter.splitConjuncts t, KeywordsKnown conjunct := by
  refine ⟨fun ids s => ?_, fun t ht => (h.of_isInfix ht).keywordsKnown, fun t ht conjunct hc => ?_⟩
  · obtain ⟨statement, s', hread, -⟩ := yields_read ids h s
    exact ⟨statement, s', hread⟩
  · exact (Filter.readable_splitConjuncts (h.of_isInfix ht) conjunct hc).keywordsKnown

/-- Text that is no statement at all is read as well, and a keyword is found in any letter case. -/
theorem Statement.read_total_garbage :
    Readable ")(' with SELECT ;; jOiN".toList ∧
      (∃ statement s', (read .sequential ")(' with SELECT ;; jOiN".toList).run (.fresh 1) =
        (.ok statement, s')) ∧
      Vocabulary.Has StatementKind (String.ofList (upper "sElEcT".toList)) := by
  have garbage : Readable ")(' with SELECT ;; jOiN".toList := .of_short (by decide) (by decide)
  have select : Readable "sElEcT a".toList := .of_short (by decide) (by decide)
  refine ⟨garbage, (read_total garbage).1 .sequential (.fresh 1), ?_⟩
  exact ((read_total select).2.1 _ List.infix_rfl).statement _ (by decide +kernel)

end SqlCanvas
