import SqlCanvas.Proofs.Layout.Print
import SqlCanvas.Proofs.Nesting.Unbroken

/-!
# Parts in any layout

Names, literals, conditions, filters and joins of tidy queries. In whatever letter case their
keywords stand and whatever blanks are between them, they come apart into parts that mean the same.
-/

namespace SqlCanvas

open Text Nesting Pattern

/-- A name that can start a condition without a table in front of it. -/
def IsBare (s : String) : Prop :=
  ∃ i : Ident, i.Plain ∧ ¬ Spells "NOT".toList i.text ∧ i.text = s.toList

/-- Comparisons and `LIKE` go with literals. Null tests go with anything, as no value is written. -/
inductive FilterOperator.Fits : FilterOperator → FilterValue → Prop
  | compare (c : Comparison) {v : Scalar} (h : v.IsLiteral) : Fits (.compare c) (.scalar v)
  | like {v : Scalar} (h : v.IsLiteral) : Fits .like (.scalar v)
  | notLike {v : Scalar} (h : v.IsLiteral) : Fits .notLike (.scalar v)
  | isNull (v : FilterValue) : Fits .isNull v
  | isNotNull (v : FilterValue) : Fits .isNotNull v

/-- A condition on a column of a table, known or not, on a call, or on a column alone. -/
structure FilterCondition.Tidy (c : FilterCondition) : Prop where
  place : (∃ id, c.tableId = some id ∧ IsIdentifier c.column) ∨
    (c.tableId = none ∧ (IsCall c.column ∨ IsBare c.column))
  fits : c.operator.Fits c.value

inductive FilterNode.IsAlternative : FilterNode → Prop
  | condition {c : FilterCondition} (h : c.Tidy) : IsAlternative (.condition c)
  | group {cs : List FilterCondition} (h : ∀ c ∈ cs, c.Tidy) :
    IsAlternative (.group .and (cs.map .condition))

/-- One alternative, or several in a group. -/
inductive FilterNode.TwoLevel : FilterNode → Prop
  | one {n : FilterNode} (h : n.IsAlternative) : TwoLevel n
  | any {nodes : List FilterNode} (h : ∀ n ∈ nodes, n.IsAlternative) : TwoLevel (.group .or nodes)

structure SelectedColumn.Tidy (c : SelectedColumn) : Prop where
  name : IsIdentifier c.columnName
  aliasName : ∀ a ∈ c.aliasName, IsIdentifier a
  expression : c.expression = none

/-- All names in the query by itself are identifiers, and its filters are of two levels. Ids may be
unknown: what refers to no table is left out of the text, or stands there without a table. -/
structure Query.Tidy (q : Query) : Prop where
  some_table : q.tables ≠ []
  tables : ∀ t ∈ q.tables, t.Nameable
  joins : ∀ j ∈ q.joins, ∀ c ∈ j.conditions, IsIdentifier c.fromColumn ∧ IsIdentifier c.toColumn
  columns : ∀ c ∈ q.selectedColumns, c.Tidy
  filters : ∀ f ∈ q.filters, f.toNode.TwoLevel
  groups : ∀ g ∈ q.groupBy, ∀ c ∈ g.columns, IsIdentifier c.columnName
  having : ∀ g ∈ q.groupBy, ∀ n ∈ g.having, n.TwoLevel
  orders : ∀ os ∈ q.orderBy, ∀ o ∈ os, IsIdentifier o.columnName
  limit : ∀ n ∈ q.limit, IsReadable n
  offset : ∀ n ∈ q.offset, IsReadable n
  ctes : ∀ cs ∈ q.ctes, ∀ c ∈ cs, IsIdentifier c.name

theorem FilterOperator.Fits.isWritable {o : FilterOperator} {v : FilterValue} (h : o.Fits v)
    (value2 : Datum) : ∀ n ∈ predicateNumerals o.shape v.toDatum value2, Numeral.IsWritable n := by
  cases h with
  | compare _ hv | like hv | notLike hv => exact hv.isWritable
  | isNull | isNotNull => exact List.forall_mem_nil _

theorem FilterCondition.Tidy.isWritable {c : FilterCondition} (h : c.Tidy)
    (tables : List TableRef) : ∀ n ∈ c.numerals tables, Numeral.IsWritable n := by
  rw [numerals]
  split
  · exact h.fits.isWritable _
  · exact List.forall_mem_nil _

theorem FilterNode.IsAlternative.tidy {n : FilterNode} (h : n.IsAlternative) :
    ∀ c ∈ n.conditions, c.Tidy := by
  cases h with
  | condition h =>
    rw [conditions]
    exact List.forall_mem_singleton.mpr h
  | group h =>
    rw [conditions, Filter.conditionsAll_map]
    exact h

theorem FilterNode.TwoLevel.tidy {n : FilterNode} (h : n.TwoLevel) :
    ∀ c ∈ n.conditions, c.Tidy := by
  cases h with
  | one h => exact h.tidy
  | any h =>
    intro c hc
    obtain ⟨m, hm, hc⟩ := exists_of_mem_conditionsAll hc
    exact (h m hm).tidy c hc

namespace Query

variable {q : Query}

theorem Tidy.tidy_condition (h : q.Tidy) (clause : FilterClause) :
    ∀ c ∈ q.conditions clause, c.Tidy := by
  cases clause with
  | «where» =>
    rw [conditions]
    cases hf : q.filters with
    | none => exact List.forall_mem_nil _
    | some g => exact (h.filters g hf).tidy
  | having =>
    rw [conditions]
    cases hg : q.groupBy with
    | none => exact List.forall_mem_nil _
    | some g =>
      rw [Option.bind_some]
      cases hn : g.having with
      | none => exact List.forall_mem_nil _
      | some n => exact (h.having g hg n hn).tidy

theorem Tidy.isWritable (h : q.Tidy) (d : Dialect) : ∀ n ∈ q.numerals d, Numeral.IsWritable n :=
  q.isWritable_of_mem_numerals (fun clause c hc => (h.tidy_condition clause c hc).isWritable _)
    ⟨h.limit, h.offset⟩ d

end Query

theorem Relaid.exists_word {k : String} {hk : IsKeyword k.toList} {t : Text}
    (h : Relaid (wordLexemes k hk) t) : ∃ s : WordGap k, textOf s.tokens = t := by
  obtain ⟨g, t, rfl, h₁⟩ := h.exists_of_blank
  obtain ⟨s, t, rfl, h₂⟩ := h₁.exists_of_keyword
  obtain ⟨g', t, rfl, h₃⟩ := h₂.exists_of_blank
  exact ⟨⟨g, s, g'⟩, by simp [WordGap.tokens, h₃.eq_nil]⟩

theorem Relaid.exists_comma {t : Text} (h : Relaid [.fixed ",", .space] t) :
    ∃ s : CommaGap, textOf s.tokens = t := by
  obtain ⟨t, rfl, h₁⟩ := h.exists_of_fixed
  obtain ⟨g, t, rfl, h₂⟩ := h₁.exists_of_blank
  exact ⟨⟨none, some g⟩, by simp [CommaGap.tokens, blankTokens, h₂.eq_nil]⟩

theorem mem_of_findTable? {tables : List TableRef} {id : String} {t : TableRef}
    (h : findTable? tables id = some t) : t ∈ tables :=
  List.mem_reverse.mp (List.mem_of_find?_eq_some h)

theorem TableRef.Nameable.exists_member {t : TableRef} (h : t.Nameable) {column : String}
    (hc : IsIdentifier column) : ∃ x : Member, x.Stands t column := by
  obtain ⟨q, hplain, hq⟩ := h.isLabel_reference
  obtain ⟨i, hi⟩ := hc
  exact ⟨⟨q, i⟩, hq, hi, hplain⟩

section Names

variable {tables : List TableRef} (htables : ∀ t ∈ tables, t.Nameable)
include htables

theorem exists_ref (table : Option String) {column : String} (hc : IsIdentifier column) :
    ∃ x : Ref, x.text = (qualifiedColumn tables table column).toList := by
  rw [qualifiedColumn]
  cases ht : findTableOf? tables table with
  | none =>
    obtain ⟨i, hi⟩ := hc
    exact ⟨⟨none, i⟩, (Ref.text_bare i).trans hi⟩
  | some t =>
    obtain ⟨id, -, ht⟩ := Option.bind_eq_some_iff.mp ht
    obtain ⟨x, hx⟩ := (htables t (mem_of_findTable? ht)).exists_member hc
    exact ⟨x.ref, hx.textOf_tokens⟩

end Names

theorem stable_aliasLexemes {aliasName : Option String} (h : ∀ a ∈ aliasName, IsIdentifier a) :
    Stable (aliasLexemes aliasName) aliasTokens aliasText := by
  cases aliasName with
  | none =>
    refine ⟨none, fun t ht => ⟨none, ?_, rfl⟩⟩
    rw [Relaid.eq_nil ht]
    rfl
  | some a =>
    obtain ⟨i, hi⟩ := h a rfl
    rw [aliasLexemes, nonempty?_of_isIdentifier (h a rfl)]
    refine ⟨some i.text, fun t ht => ?_⟩
    obtain ⟨g, t, rfl, h₁⟩ := ht.exists_of_blank
    obtain ⟨s, t, rfl, h₂⟩ := h₁.exists_of_keyword
    obtain ⟨g', t, rfl, h₃⟩ := h₂.exists_of_blank
    rw [h₃.eq_of_fixed, ← hi]
    exact ⟨some ⟨g, some (s, g'), i⟩,
      by simp [aliasTokens, WrittenAlias.tokens, WrittenAlias.asTokens], rfl⟩

theorem Aggregate.stable_lexemes (a : Aggregate) {argument : String} {x : Ref}
    (hx : x.text = argument.toList) :
    Stable (a.lexemes argument) WrittenCall.tokens fun c => (c.aggregate, c.argument) := by
  refine ⟨(a, x), fun t ht => ?_⟩
  obtain ⟨callee, t, rfl, h₁⟩ := ht.exists_of_keyword
  obtain ⟨t, rfl, h₂⟩ := h₁.exists_of_fixed
  by_cases ha : a = .countDistinct
  · subst ha
    obtain ⟨d, t, rfl, h₃⟩ := Relaid.exists_of_keyword h₂
    obtain ⟨g, t, rfl, h₄⟩ := h₃.exists_of_blank
    obtain ⟨t, rfl, h₅⟩ := h₄.exists_of_fixed
    rw [h₅.eq_of_fixed, ← hx]
    refine ⟨⟨_, Aggregate.function_mem _, callee, none, none, some (d, g), x, none, fun _ => rfl⟩,
      ?_, rfl⟩
    simp [WrittenCall.tokens, WrittenCall.distinctTokens, blankTokens, Ref.text]
  · rw [if_neg ha] at h₂
    obtain ⟨t, rfl, h₃⟩ := h₂.exists_of_fixed
    rw [h₃.eq_of_fixed, ← hx]
    refine ⟨⟨_, Aggregate.function_mem _, callee, none, none, none, x, none,
      fun h => absurd h (by decide)⟩, ?_, ?_⟩
    · simp [WrittenCall.tokens, WrittenCall.distinctTokens, blankTokens, Ref.text]
    · cases a <;> first | rfl | exact absurd rfl ha

namespace SelectedColumn.Tidy

variable {c : SelectedColumn} (h : c.Tidy) {tables : List TableRef} (htables : ∀ t ∈ tables,
  t.Nameable)
include h htables

theorem stable_lexemes :
    Stable (c.lexemes tables) (fun w : WrittenItem => w.item.tokens) WrittenItem.selected := by
  obtain ⟨x, hx⟩ := exists_ref htables (some c.tableId) h.name
  obtain ⟨name, halias⟩ := stable_aliasLexemes h.aliasName
  have columns (hc : c.bodyLexemes tables =
    [.fixed (qualifiedColumn tables (some c.tableId) c.columnName)]) :
      Stable (c.lexemes tables) (fun w : WrittenItem => w.item.tokens) WrittenItem.selected := by
    refine ⟨fun scope => ⟨(x.tableIn scope).getD "", String.ofList x.column.text,
      Select.optionalString name, none, none⟩, fun t ht => ?_⟩
    rw [lexemes, hc] at ht
    obtain ⟨t, rfl, h₁⟩ := ht.exists_of_fixed
    obtain ⟨a, rfl, rfl⟩ := halias t h₁
    exact ⟨.column x a, by rw [← hx]; exact textOf_append _ _, rfl⟩
  have calls {a : Aggregate}
      (hc : c.bodyLexemes tables =
        a.lexemes (qualifiedColumn tables (some c.tableId) c.columnName)) :
      Stable (c.lexemes tables) (fun w : WrittenItem => w.item.tokens) WrittenItem.selected := by
    obtain ⟨m, hcall⟩ := a.stable_lexemes hx
    refine ⟨fun scope => ⟨(m.2.tableIn scope).getD "", String.ofList m.2.column.text,
      Select.optionalString name, some m.1, none⟩, fun t ht => ?_⟩
    rw [lexemes, hc] at ht
    obtain ⟨u, v, rfl, hu, hv⟩ := ht.exists_of_append
    obtain ⟨call, rfl, rfl⟩ := hcall u hu
    obtain ⟨a, rfl, rfl⟩ := halias v hv
    exact ⟨.call call a, textOf_append _ _, rfl⟩
  -- An aggregate is written only over a table that is found; otherwise the item is a plain column.
  have body := bodyLexemes.eq_1 c tables
  rw [h.expression] at body
  cases hfound : findTable? tables c.tableId with
  | none =>
    refine columns (body.trans ?_)
    simp [hfound, nonempty?, qualifiedColumn, findTableOf?]
  | some t =>
    cases ha : c.aggregate with
    | none =>
      refine columns (body.trans ?_)
      simp [hfound, ha, nonempty?, qualifiedColumn, findTableOf?]
    | some a =>
      refine calls (a := a) (body.trans ?_)
      simp [hfound, ha, nonempty?, qualifiedColumn, findTableOf?]

end SelectedColumn.Tidy

theorem Scalar.IsLiteral.stable_lexemes {v : Scalar} (h : v.IsLiteral) :
    Stable v.lexemes WrittenLiteral.tokens WrittenLiteral.value := by
  have keyword {k : String} {hk : IsKeyword k.toList} {f : Spelling k → WrittenLiteral}
      (hf : ∀ s, (f s).text = s.text ∧ (f s).value = v) :
      Stable [.keyword k hk] WrittenLiteral.tokens WrittenLiteral.value := by
    refine ⟨v, fun t ht => ?_⟩
    obtain ⟨s, t, rfl, h₁⟩ := ht.exists_of_keyword
    exact ⟨f s, by rw [h₁.eq_nil, List.append_nil]; exact (hf s).1, (hf s).2⟩
  have fixed : Stable [.fixed (String.ofList v.sql)] WrittenLiteral.tokens
      WrittenLiteral.value := by
    obtain ⟨l, hl, hv⟩ := h.exists_written
    exact ⟨v, fun t ht => ⟨l, by rw [ht.eq_of_fixed, String.toList_ofList]; exact hl, hv⟩⟩
  cases h with
  | null => exact keyword (f := .null) fun s =>
    ⟨by simp [WrittenLiteral.text, WrittenLiteral.tokens], rfl⟩
  | bool b =>
    cases b with
    | false =>
      exact keyword (f := .false) fun s =>
        ⟨by simp [WrittenLiteral.text, WrittenLiteral.tokens], rfl⟩
    | true =>
      exact keyword (f := .true) fun s =>
        ⟨by simp [WrittenLiteral.text, WrittenLiteral.tokens], rfl⟩
  | int n h => exact fixed
  | string s => exact fixed

theorem stable_likeTail {words : List String} (mem : words ∈ likePhrases) (hwords : IsPhrase words)
    {v : Scalar} (h : v.IsLiteral) :
    Stable (.space :: (Lexeme.phrase words hwords.2 ++ .space :: v.lexemes)) WrittenTail.tokens
      fun t => (t.operator, t.value) := by
  obtain ⟨value, hv⟩ := h.stable_lexemes
  refine ⟨((Filter.operator? (" ".intercalate words)).get (WrittenTail.exists_like words mem),
    value), fun t ht => ?_⟩
  obtain ⟨g, t, rfl, h₁⟩ := ht.exists_of_blank
  obtain ⟨u, v, rfl, hu, h₂⟩ := h₁.exists_of_append
  obtain ⟨p, rfl⟩ := hu.exists_phrase hwords.1
  obtain ⟨g', t, rfl, h₃⟩ := h₂.exists_of_blank
  obtain ⟨l, rfl, rfl⟩ := hv t h₃
  exact ⟨.like g words mem p (some g') l nofun, by simp [WrittenTail.tokens, blankTokens], rfl⟩

theorem stable_testTail {words : List String} (mem : words ∈ testPhrases)
    (hwords : IsPhrase words) :
    Stable (.space :: Lexeme.phrase words hwords.2) WrittenTail.tokens fun t =>
      (t.operator, t.value) := by
  refine ⟨((Filter.operator? (" ".intercalate words)).get (WrittenTail.exists_test words mem),
    .null), fun t ht => ?_⟩
  obtain ⟨g, t, rfl, h₁⟩ := ht.exists_of_blank
  obtain ⟨p, rfl⟩ := h₁.exists_phrase hwords.1
  exact ⟨.test g words mem p, by simp [WrittenTail.tokens], rfl⟩

theorem stable_signTail (c : Comparison) {v : Scalar} (h : v.IsLiteral) :
    Stable (.space :: .fixed (Vocabulary.spelling c) :: .space :: v.lexemes) WrittenTail.tokens
      fun t => (t.operator, t.value) := by
  obtain ⟨value, hv⟩ := h.stable_lexemes
  refine ⟨(.compare c, value), fun t ht => ?_⟩
  obtain ⟨g, t, rfl, h₁⟩ := ht.exists_of_blank
  obtain ⟨t, rfl, h₂⟩ := h₁.exists_of_fixed
  obtain ⟨g', t, rfl, h₃⟩ := h₂.exists_of_blank
  obtain ⟨l, rfl, rfl⟩ := hv t h₃
  refine ⟨.sign (some g) _ c.spelling_mem (some g') l, ?_, ?_⟩
  · simp [WrittenTail.tokens, textOf_sign, blankTokens]
  · simp [WrittenTail.operator, WrittenTail.value, Comparison.get_spelling]

theorem FilterOperator.Fits.exists_tail {o : FilterOperator} {v : FilterValue} (h : o.Fits v)
    (column : String) (value2 : Datum) :
    ∃ ls, predicateLexemes o column v.toDatum value2 = .fixed column :: ls ∧
      Stable ls WrittenTail.tokens fun t => (t.operator, t.value) := by
  cases h with
  | compare c h => exact ⟨_, rfl, stable_signTail c h⟩
  | like h => exact ⟨_, rfl, stable_likeTail (by decide) (by decide) h⟩
  | notLike h => exact ⟨_, rfl, stable_likeTail (by decide) (by decide) h⟩
  | isNull v => exact ⟨_, rfl, stable_testTail (by decide) (by decide)⟩
  | isNotNull v => exact ⟨_, rfl, stable_testTail (by decide) (by decide)⟩

/-- What a conjunct of a filter is read as in a scope. -/
abbrev ConjunctReading : Type :=
  Scope → Except ReadError (Option FilterCondition)

def Conjunct.reading (c : Conjunct) : ConjunctReading :=
  fun scope => Filter.readCondition scope c.text

namespace FilterCondition.Tidy

variable {c : FilterCondition} (h : c.Tidy) {tables : List TableRef} (htables : ∀ t ∈ tables,
  t.Nameable)
include h htables

theorem exists_operand {column : String} (hc : c.columnSql? tables = some column) :
    ∃ o : Operand, o.Plain ∧ o.text = column.toList := by
  rw [columnSql?] at hc
  rcases h.place with ⟨id, hid, hcolumn⟩ | ⟨hid, hcolumn⟩
  · rw [hid] at hc
    obtain ⟨t, ht, rfl⟩ := Option.map_eq_some_iff.mp hc
    obtain ⟨x, hx⟩ := (htables t (mem_of_findTable? ht)).exists_member hcolumn
    exact ⟨.column x.ref, hx.plain, hx.textOf_tokens⟩
  · rw [hid] at hc
    obtain rfl := Option.some.inj hc
    rcases hcolumn with ⟨function, inside, ⟨i, hplain, hi⟩, hinside, hcall⟩ | ⟨i, hplain, hnot, hi⟩
    · exact ⟨.call i none inside.toList hinside, hplain,
        by simp [Operand.text_call, hcall, hi, blankTokens]⟩
    · exact ⟨.column ⟨none, i⟩, ⟨hplain, hnot⟩, (Ref.text_bare i).trans hi⟩

theorem stable_lexemes {ls : List Lexeme} (hls : c.lexemes? tables = some ls) :
    Stable ls Conjunct.tokens Conjunct.reading := by
  obtain ⟨column, hcolumn, rfl⟩ := Option.map_eq_some_iff.mp hls
  obtain ⟨o, hplain, ho⟩ := h.exists_operand htables hcolumn
  obtain ⟨ls, hls, m, tail⟩ := h.fits.exists_tail column (.scalar c.value2)
  rw [hls]
  refine ⟨fun scope =>
    .ok (some ⟨o.table scope, String.ofList o.columnText, m.1, .scalar m.2, .null⟩), fun t ht => ?_⟩
  obtain ⟨t, rfl, h₁⟩ := ht.exists_of_fixed
  obtain ⟨w, rfl, rfl⟩ := tail t h₁
  refine ⟨WrittenCondition.conjunct ⟨o, hplain, w⟩, ?_, ?_⟩
  · rw [← ho]
    exact textOf_append _ _
  · funext scope
    exact WrittenCondition.readCondition_eq ⟨o, hplain, w⟩ scope

end FilterCondition.Tidy

theorem stable_conjunction {M : Type} {meaning : Conjunct → M} {lss : List (List Lexeme)}
    (hne : lss ≠ []) (h : ∀ ls ∈ lss, Stable ls Conjunct.tokens meaning) :
    Stable ((wordLexemes "AND" (by decide)).intercalate lss) Conjunction.tokens fun c =>
      c.items.map meaning :=
  .series (fun _ ht => ht.exists_word) hne h

def readingOfAll (readings : List ConjunctReading) (scope : Scope) :
    Except ReadError (List FilterCondition) :=
  (readings.mapM fun reading : ConjunctReading => reading scope).map fun found => found.filterMap id

theorem readConjuncts_eq (scope : Scope) (cs : List Conjunct) :
    readConjuncts scope cs = readingOfAll (cs.map Conjunct.reading) scope := by
  rw [readConjuncts, readingOfAll, List.mapM_map]
  rfl

/-- What an alternative among others is read as. -/
def readingOfBranch (scope : Scope) (readings : List ConjunctReading) :
    Except ReadError (List FilterNode) :=
  (readingOfAll readings scope).map fun cs =>
    if readings.length = 1 then cs.map .condition else [.group .and (cs.map .condition)]

/-- What alternatives are read as, each given by its conjuncts. -/
def readingOfAny : List (List ConjunctReading) → Scope → Except ReadError FilterGroup
  | [readings], scope => (readingOfAll readings scope).map fun cs => ⟨.and, cs.map .condition⟩
  | alternatives, scope =>
    (alternatives.mapM (readingOfBranch scope)).map fun children => ⟨.or, children.flatten⟩

def WrittenBranch.readings (b : WrittenBranch) : List ConjunctReading :=
  b.conjunction.items.map Conjunct.reading

theorem WrittenBranch.readingOfBranch_eq (scope : Scope) (b : WrittenBranch) :
    readingOfBranch scope b.readings = (readConjuncts scope b.conjunction.items).map b.nodes := by
  have one : b.readings.length = 1 ↔ b.conjunction.rest = [] := by
    simp [readings, Series.items]
  simp only [readingOfBranch, one, readConjuncts_eq]
  rfl

theorem Filter.read_conjunction (scope : Scope) (c : Conjunction) :
    Filter.read scope c.text = readingOfAny [c.items.map Conjunct.reading] scope := by
  rw [readingOfAny, ← readConjuncts_eq]
  exact WrittenFilter.read_eq scope (.all c)

/-- An alternative in parentheses that stands alone is read as if it had none. -/
theorem Filter.read_branch (scope : Scope) (b : WrittenBranch) :
    Filter.read scope (textOf b.tokens) = readingOfAny [b.readings] scope := by
  rw [WrittenBranch.readings, ← Filter.read_conjunction, Filter.read, Filter.read,
    b.stripParens_text, b.conjunction.stripParens_text]

namespace Alternatives

theorem read_eq (scope : Scope) (a : Alternatives) :
    Filter.read scope (textOf (Series.tokens WordGap.tokens WrittenBranch.tokens a)) =
      readingOfAny (a.items.map WrittenBranch.readings) scope := by
  obtain ⟨first, rest⟩ := a
  cases rest with
  | nil => simpa [Series.tokens, Series.items] using Filter.read_branch scope first
  | cons x rest =>
    have several :
        readingOfAny ((Series.items ⟨first, x :: rest⟩).map WrittenBranch.readings) scope =
          (((Series.items ⟨first, x :: rest⟩).map WrittenBranch.readings).mapM
            (readingOfBranch scope)).map fun children => ⟨.or, children.flatten⟩ := rfl
    refine (WrittenFilter.read_eq scope (.any ⟨first, x :: rest⟩ (List.cons_ne_nil _ _))).trans ?_
    rw [several, List.mapM_map, WrittenFilter.readWith]
    congr 2
    funext b
    exact (b.readingOfBranch_eq scope).symm

theorem quiet (a : Alternatives) :
    Quiet bodyKeywords (Series.tokens WordGap.tokens WrittenBranch.tokens a) := by
  refine ⟨Series.solid (fun s _ _ _ => s.solid) fun b _ => b.part.solid, fun x hx => ?_⟩
  rcases Series.mem_tokens hx with ⟨s, -, hx⟩ | ⟨b, -, hx⟩
  · exact s.avoids (by decide) x hx
  · exact (b.avoids x hx).mono (by decide)

end Alternatives

/-- Tokens without some keywords. -/
abbrev QuietTokens (keywords : List String) : Type :=
  { ts : List Token // Quiet keywords ts }

/-- No text for the lexemes holds the keywords, and all are read alike. -/
def Settled {M : Type} (ls : List Lexeme) (keywords : List String) (read : Text → M) : Prop :=
  Stable ls (fun ts : QuietTokens keywords => ts.1) fun ts => read (textOf ts.1)

theorem Stable.settled {A M N : Type} {ls : List Lexeme} {write : A → List Token} {meaning : A → M}
    (h : Stable ls write meaning) {keywords : List String} (quiet : ∀ a, Quiet keywords (write a))
    {read : Text → N} (hread : ∀ a a', meaning a = meaning a' →
      read (textOf (write a)) = read (textOf (write a'))) :
    Settled ls keywords read :=
  h.factor (fun a => ⟨write a, quiet a⟩) (fun _ => rfl) hread

namespace FilterNode

section Parts

variable {tables : List TableRef}

theorem partsLexemes_conditions (cs : List FilterCondition) :
    partsLexemes tables (cs.map .condition) = cs.filterMap (·.lexemes? tables) := by
  induction cs with
  | nil => rw [List.map_nil, partsLexemes, List.filterMap_nil]
  | cons c cs ih =>
    rw [List.map_cons, partsLexemes, ih]
    cases hc : c.lexemes? tables <;> simp [hc]

theorem exists_of_mem_partsLexemes {nodes : List FilterNode} {ls : List Lexeme}
    (h : ls ∈ partsLexemes tables nodes) : ∃ n ∈ nodes, ls ∈ partsLexemes tables [n] := by
  induction nodes with
  | nil => simp [partsLexemes] at h
  | cons n nodes ih =>
    have split : partsLexemes tables (n :: nodes) = partsLexemes tables [n] ++
        partsLexemes tables nodes := by
      cases n <;> simp [partsLexemes]
    rcases List.mem_append.mp (split ▸ h) with h | h
    · exact ⟨n, List.mem_cons_self, h⟩
    · obtain ⟨n', hn', h⟩ := ih h
      exact ⟨n', List.mem_cons_of_mem n hn', h⟩

theorem joinLexemes?_eq_some_iff {operator : Connective} {parts : List (List Lexeme)}
    {ls : List Lexeme} :
    joinLexemes? operator parts = some ls ↔
    parts ≠ [] ∧ operator.lexemes.intercalate parts = ls := by
  rw [joinLexemes?]
  split <;> simp_all

variable (htables : ∀ t ∈ tables, t.Nameable)
include htables

theorem stable_all {cs : List FilterCondition} (hcs : ∀ c ∈ cs, c.Tidy) {ls : List Lexeme}
    (hls : joinLexemes? .and (partsLexemes tables (cs.map .condition)) = some ls) :
    Stable ls Conjunction.tokens fun c => c.items.map Conjunct.reading := by
  obtain ⟨hne, rfl⟩ := joinLexemes?_eq_some_iff.mp hls
  refine stable_conjunction hne fun ls hls => ?_
  rw [partsLexemes_conditions] at hls
  obtain ⟨c, hc, hls⟩ := List.mem_filterMap.mp hls
  exact (hcs c hc).stable_lexemes htables hls

theorem stable_one {c : FilterCondition} (hc : c.Tidy) {ls : List Lexeme}
    (hls : c.lexemes? tables = some ls) :
    Stable ls Conjunction.tokens fun c => c.items.map Conjunct.reading :=
  (hc.stable_lexemes htables hls).factor (fun x => (⟨x, []⟩ : Conjunction))
    (fun x => by simp [Conjunction.tokens, Series.tokens]) fun _ _ h => congrArg (fun r => [r]) h

theorem IsAlternative.stable_parts {n : FilterNode} (h : n.IsAlternative) :
    ∀ ls ∈ partsLexemes tables [n], Stable ls WrittenBranch.tokens WrittenBranch.readings := by
  intro ls hls
  cases h with
  | @condition c h =>
    have hls : c.lexemes? tables = some ls := by simpa [partsLexemes] using hls
    exact (stable_one htables h hls).factor WrittenBranch.bare (fun _ => rfl) fun _ _ h => h
  | group h =>
    obtain ⟨inside, hinside, rfl⟩ : ∃ inside, _ = some inside ∧ parenLexemes inside = ls := by
      simpa [partsLexemes] using hls
    obtain ⟨m, conjunction⟩ := stable_all htables h hinside
    refine ⟨m, fun t ht => ?_⟩
    obtain ⟨t, rfl, h₁⟩ := ht.exists_of_fixed
    obtain ⟨u, v, rfl, hu, hv⟩ := h₁.exists_of_append
    obtain ⟨c, rfl, rfl⟩ := conjunction u hu
    rw [hv.eq_of_fixed]
    exact ⟨.wrapped none none c, by simp [WrittenBranch.tokens, WrittenBranch.inside, blankTokens],
      rfl⟩

omit htables in
theorem settled_conjunction {ls : List Lexeme}
    (h : Stable ls Conjunction.tokens fun c => c.items.map Conjunct.reading) :
    Settled ls bodyKeywords fun t scope => Filter.read scope t := by
  refine h.settled (fun c => ⟨c.solid, fun a ha => (c.avoids a ha).mono (by decide)⟩) fun c c' hc =>
    ?_
  funext scope
  refine (Filter.read_conjunction scope c).trans ?_
  rw [hc]
  exact (Filter.read_conjunction scope c').symm

/-- Alternatives of conjunctions in whatever layout are the same filter. -/
theorem TwoLevel.settled_lexemes {n : FilterNode} (h : n.TwoLevel) {ls : List Lexeme}
    (hls : n.lexemes? tables = some ls) :
    Settled ls bodyKeywords fun t scope => Filter.read scope t := by
  cases h with
  | one h =>
    cases h with
    | condition h => exact settled_conjunction (stable_one htables h (by rwa [lexemes?] at hls))
    | group h => exact settled_conjunction (stable_all htables h (by rwa [lexemes?] at hls))
  | @any nodes h =>
    rw [lexemes?] at hls
    obtain ⟨hne, rfl⟩ := joinLexemes?_eq_some_iff.mp hls
    have parts : ∀ ls ∈ partsLexemes tables nodes,
        Stable ls WrittenBranch.tokens WrittenBranch.readings := by
      intro ls hls
      obtain ⟨n, hn, hls⟩ := exists_of_mem_partsLexemes hls
      exact (h n hn).stable_parts htables ls hls
    have any : Stable (Connective.or.lexemes.intercalate (partsLexemes tables nodes))
        (Series.tokens WordGap.tokens WrittenBranch.tokens) fun a : Alternatives =>
          a.items.map WrittenBranch.readings :=
      .series (fun _ ht => ht.exists_word) hne parts
    refine any.settled Alternatives.quiet fun a a' ha => ?_
    funext scope
    rw [Alternatives.read_eq, Alternatives.read_eq, ha]

end Parts

end FilterNode

end SqlCanvas
