import SqlCanvas.Proofs.Number.Numeral
import SqlCanvas.Proofs.Query.Writing
import SqlCanvas.Proofs.Structure.Formula

/-!
# Filter trees as text

What is written for a filter tree comes apart again at every depth into the parts of its groups, and
its formula is the one that the tree has once the conditions on unknown tables, and the groups in
which nothing is left, are taken away.
-/

namespace SqlCanvas

open Text Nesting Pattern

/-- A condition on a column, with a value or a list of values, and not an existence test. -/
structure FilterCondition.Ordinary (c : FilterCondition) (tables : List TableRef) : Prop where
  column : IsReference c.column.toList
  table : ∀ t, findTableOf? tables c.tableId = some t → IsReference t.reference.toList
  operator : c.operator ≠ .exists ∧ c.operator ≠ .notExists
  value : (∃ x, c.value = .scalar x) ∨ c.operator = .isIn ∨ c.operator = .notIn

namespace FilterCondition

variable {tables : List TableRef} {c : FilterCondition}

/-- Whether the condition has no table or a known one. -/
def Resolves (c : FilterCondition) (tables : List TableRef) : Prop :=
  ∀ id, c.tableId = some id → ∃ t ∈ tables, t.id = id

theorem sql?_isSome_iff : (c.sql? tables).isSome ↔ c.Resolves tables := by
  rw [sql?, Option.isSome_map, columnSql?, Resolves]
  cases c.tableId with
  | none => simp
  | some id => simpa using findTable?_isSome_iff

theorem Ordinary.isReference (h : c.Ordinary tables) {column : String}
    (hc : c.columnSql? tables = some column) : IsReference column.toList := by
  rw [columnSql?] at hc
  split at hc
  · obtain rfl := Option.some.inj hc
    exact h.column
  · rename_i id hid
    obtain ⟨t, ht, rfl⟩ := Option.map_eq_some_iff.mp hc
    have := (h.table t (by rw [findTableOf?, hid]; exact ht)).append h.column
    simpa [TableRef.column] using this

theorem exists_range {column : Text} (hcolumn : IsQuiet column) (low high : Scalar) :
    ∃ p : FilterPart, p.text = column ++ " BETWEEN ".toList ++ low.sql ++ " AND ".toList ++
      high.sql := by
  obtain ⟨ts, rfl, hts⟩ := hcolumn
  obtain ⟨us, hlow, hus⟩ := low.isQuiet_sql
  obtain ⟨vs, hhigh, hvs⟩ := high.isQuiet_sql
  refine ⟨.range _ vs (rangeStart_between hts.clear hus.clear) hvs.clear, ?_⟩
  simp [FilterPart.text, FilterPart.tokens, FilterPart.andGap, WordGap.textOf_capital, hlow, hhigh]

theorem exists_whole {t : Text} (h : IsQuiet t) : ∃ p : FilterPart, p.text = t := by
  obtain ⟨ts, rfl, hts⟩ := h
  exact ⟨.whole ts hts.clear, rfl⟩

/-- Whatever the values hold, a predicate is written as one part. -/
theorem exists_predicate {column : Text} (hcolumn : IsQuiet column) {o : FilterOperator}
    (value : FilterValue) (value2 : Scalar) (hoperator : o ≠ .exists ∧ o ≠ .notExists)
    (hvalue : (∃ x, value = .scalar x) ∨ o = .isIn ∨ o = .notIn) :
    ∃ p : FilterPart, p.text =
      writePredicate o.shape column (Vocabulary.spelling o).toList value.toDatum
        (.scalar value2) := by
  have whole {t : Text} (h : IsQuiet t) : ∃ p : FilterPart, p.text = t := by
    obtain ⟨ts, rfl, hts⟩ := h
    exact ⟨.whole ts hts.clear, rfl⟩
  have existence := FilterOperator.shape_ne_existence hoperator
  have scalar (hshape : o.shape ≠ .membership) : ∃ x, value = .scalar x := by
    rcases hvalue with h | rfl | rfl
    · exact h
    · exact absurd rfl hshape
    · exact absurd rfl hshape
  -- A range is the one shape with `AND` at its top level; every other text is a part as a whole.
  cases hshape : o.shape with
  | bare =>
    exact whole (hcolumn.space (o.isQuiet_spelling (by simp [hshape]) existence))
  | range =>
    obtain ⟨low, rfl⟩ := scalar (by simp [hshape])
    obtain rfl | rfl : o = .between ∨ o = .notBetween := by
      cases o <;> simp_all [FilterOperator.shape]
    · obtain ⟨p, hp⟩ := exists_range hcolumn low value2
      refine ⟨p, hp.trans ?_⟩
      simp [writePredicate, Vocabulary.spelling, FilterValue.toDatum, Datum.sql]
    · obtain ⟨p, hp⟩ :=
        exists_range (hcolumn.space (.capital "NOT" (by decide) (by decide))) low value2
      refine ⟨p, hp.trans ?_⟩
      simp [writePredicate, Vocabulary.spelling, FilterValue.toDatum, Datum.sql]
  | membership =>
    have list := Sheltered.parens value.closed_alternatives
    have spelling := o.isQuiet_spelling (by simp [hshape]) existence
    obtain ⟨p, hp⟩ := whole ((hcolumn.space spelling).space (.of_sheltered list))
    exact ⟨p, by simpa [writePredicate] using hp⟩
  | existence => exact absurd hshape existence
  | binary =>
    obtain ⟨x, rfl⟩ := scalar (by simp [hshape])
    have spelling := o.isQuiet_spelling (by simp [hshape]) existence
    obtain ⟨p, hp⟩ := whole ((hcolumn.space spelling).space x.isQuiet_sql)
    exact ⟨p, by simpa [writePredicate, FilterValue.toDatum, Datum.sql] using hp⟩

theorem head?_writePredicate {shape : PredicateShape} (h : shape ≠ .existence) {column : Text}
    (hne : column ≠ []) (operator : Text) (value value2 : Datum) :
    (writePredicate shape column operator value value2).head? = column.head? := by
  obtain ⟨c, column, rfl⟩ := List.exists_cons_of_ne_nil hne
  cases shape <;> first | rfl | exact absurd rfl h

theorem Ordinary.exists_part (h : c.Ordinary tables) {s : String} (hs : c.sql? tables = some s) :
    ∃ p : FilterPart, p.text = s.toList ∧ Structured p.text (.atom p.text) := by
  obtain ⟨column, hcolumn, rfl⟩ := Option.map_eq_some_iff.mp hs
  have reference := h.isReference hcolumn
  obtain ⟨p, hp⟩ := exists_predicate reference.isQuiet c.value c.value2 h.operator h.value
  refine ⟨p, by rw [hp, String.toList_ofList], p.structured_text ?_⟩
  rw [hp, head?_writePredicate (FilterOperator.shape_ne_existence h.operator) reference.ne_nil]
  exact reference.head_ne

end FilterCondition

namespace FilterNode

variable {tables : List TableRef}

/-- What a node adds to the text of its group. -/
def part? (tables : List TableRef) : FilterNode → Option String
  | .condition c => c.sql? tables
  | .group operator children => ((group operator children).sql? tables).map fun s => "(" ++ s ++ ")"

theorem partsSql_eq_filterMap (ns : List FilterNode) :
    partsSql tables ns = ns.filterMap (part? tables) := by
  induction ns with
  | nil => rw [partsSql, List.filterMap_nil]
  | cons n ns ih =>
    cases n with
    | condition c =>
      rw [partsSql, List.filterMap_cons, part?, ih]
      cases c.sql? tables <;> rfl
    | group operator children =>
      rw [partsSql, List.filterMap_cons, part?, sql?, ih]
      cases joinParts? operator (partsSql tables children) <;> rfl

mutual

/-- The formula of what is written of a node. -/
def formula? (tables : List TableRef) : FilterNode → Option Formula
  | .condition c => (c.sql? tables).map fun s => .atom s.toList
  | .group operator children => Formula.join? operator (formulas tables children)

def formulas (tables : List TableRef) : List FilterNode → List Formula
  | [] => []
  | n :: ns => (n.formula? tables).toList ++ formulas tables ns

end

theorem partsSql_eq_nil : (ns : List FilterNode) → (∀ c ∈ conditionsAll ns, ¬ c.Resolves tables) →
    partsSql tables ns = []
  | [], _ => by rw [partsSql]
  | .condition c :: ns, h => by
    obtain ⟨hc, h⟩ := List.forall_mem_append.mp h
    have unknown : c.sql? tables = none := by
      have := mt FilterCondition.sql?_isSome_iff.mp (hc c (by simp [conditions]))
      simpa using this
    rw [partsSql, unknown, partsSql_eq_nil ns h]
    rfl
  | .group operator children :: ns, h => by
    obtain ⟨hchildren, h⟩ := List.forall_mem_append.mp h
    rw [partsSql, partsSql_eq_nil children hchildren, partsSql_eq_nil ns h]
    rfl

theorem sql?_group_eq_none_iff {operator : Connective} {children : List FilterNode} :
    (group operator children).sql? tables = none ↔
      ∀ c ∈ (group operator children).conditions, ¬ c.Resolves tables := by
  constructor
  · intro h c hc hresolves
    obtain ⟨s, hs⟩ := Option.isSome_iff_exists.mp (FilterCondition.sql?_isSome_iff.mpr hresolves)
    have spread := spreadOver_sql? tables (group operator children)
    rw [h] at spread
    have written : s ∈ (group operator children).parts tables := List.mem_filterMap.mpr ⟨c, hc, hs⟩
    rw [spread.eq_nil] at written
    cases written
  · intro h
    rw [sql?, partsSql_eq_nil children h]
    rfl

theorem exists_joined (operator : Connective) {parts : List String} {ps : List FilterPart}
    (hne : ps ≠ []) (h : ps.map FilterPart.text = parts.map String.toList) :
    ∃ s, joinParts? operator parts = some s ∧ s.toList = Filter.joined operator ps := by
  have ne_nil : parts ≠ [] := by
    rintro rfl
    exact hne (List.map_eq_nil_iff.mp h)
  refine ⟨_, joinParts?_of_ne_nil operator ne_nil, ?_⟩
  rw [String.toList_intercalate, Filter.joined, h]

theorem exists_parts : (ns : List FilterNode) → (∀ c ∈ conditionsAll ns, c.Ordinary tables) →
    ∃ ps : List FilterPart, ps.map FilterPart.text = (partsSql tables ns).map String.toList ∧
      StructuredAll (ps.map FilterPart.text) (formulas tables ns)
  | [], _ => ⟨[], by rw [partsSql]; rfl, by rw [formulas]; exact .nil⟩
  | .condition c :: ns, h => by
    obtain ⟨hc, h⟩ := List.forall_mem_append.mp h
    obtain ⟨ps, htexts, hstructured⟩ := exists_parts ns h
    rw [partsSql, formulas, formula?]
    cases hs : c.sql? tables with
    | none => exact ⟨ps, htexts, hstructured⟩
    | some s =>
      obtain ⟨p, hp, hatom⟩ := (hc c (by simp [conditions])).exists_part hs
      refine ⟨p :: ps, ?_, ?_⟩
      · rw [List.map_cons, hp, htexts]
        rfl
      · rw [hp] at hatom
        rw [List.map_cons, hp]
        exact .cons hatom hstructured
  -- A group with nothing to write leaves no part, and no formula either; any other group is one
  -- sheltered part.
  | .group operator children :: ns, h => by
    obtain ⟨hchildren, h⟩ := List.forall_mem_append.mp h
    obtain ⟨qs, hqtexts, hqstructured⟩ := exists_parts children hchildren
    obtain ⟨ps, htexts, hstructured⟩ := exists_parts ns h
    rw [partsSql, formulas, formula?]
    by_cases hne : qs = []
    · subst hne
      have none_written : partsSql tables children = [] := List.map_eq_nil_iff.mp hqtexts.symm
      have none_structured : formulas tables children = [] := hqstructured.unique .nil
      rw [none_written, none_structured]
      exact ⟨ps, htexts, hstructured⟩
    · obtain ⟨s, hs, htext⟩ := exists_joined operator hne hqtexts
      obtain ⟨f, hf, hstructured'⟩ := structured_joined operator hne hqstructured
      have closed := Filter.closed_joined operator hne
      have wrapped : IsQuiet ('(' :: (Filter.joined operator qs ++ [')'])) :=
        .of_sheltered (.parens closed)
      obtain ⟨ts, htext', hts⟩ := wrapped
      refine ⟨.whole ts hts.clear :: ps, ?_, ?_⟩
      · rw [List.map_cons, htexts, hs]
        simp [FilterPart.text, FilterPart.tokens, htext', htext]
      · have text : (FilterPart.whole ts hts.clear).text =
            '(' :: (Filter.joined operator qs ++ [')']) :=
          htext'
        rw [List.map_cons, hf, text]
        exact .cons (hstructured'.wrapped closed) hstructured

end FilterNode

namespace FilterGroup

variable {tables : List TableRef}

def writtenParts (g : FilterGroup) (tables : List TableRef) : List String :=
  g.children.filterMap (FilterNode.part? tables)

/-- Where a text is taken apart by the connective of a group, these are the parts. -/
def ComesApart (g : FilterGroup) (tables : List TableRef) (t : Text) : Prop :=
  match g.operator with
  | .or => Filter.splitOr t = (g.writtenParts tables).map String.toList
  | .and => Filter.splitConjuncts t = (g.writtenParts tables).map String.toList ∧
      t.topLevelOccurrences Filter.orWord = []

/-- The text of a filter, if there is one: it comes apart into the texts of the children, and its
one formula is that of the filter. -/
theorem comesApart_sql? (g : FilterGroup) (tables : List TableRef)
    (h : ∀ c ∈ g.toNode.conditions, c.Ordinary tables) :
    ((g.sql? tables).getD "" = "" ↔ ∀ c ∈ g.toNode.conditions, ¬ c.Resolves tables) ∧
      (g.writtenParts tables ≠ [] → ∃ s, g.sql? tables = some s ∧ g.ComesApart tables s.toList ∧
        ∀ f, Structured s.toList f ↔ g.toNode.formula? tables = some f) := by
  obtain ⟨operator, children⟩ := g
  obtain ⟨ps, htexts, hstructured⟩ := FilterNode.exists_parts children h
  have written : ps ≠ [] → ∃ s, FilterGroup.sql? ⟨operator, children⟩ tables = some s ∧
      s.toList = Filter.joined operator ps := by
    intro hne
    rw [sql?, toNode, FilterNode.sql?]
    exact FilterNode.exists_joined operator hne htexts
  constructor
  · refine Iff.trans ?_ FilterNode.sql?_group_eq_none_iff
    by_cases hne : ps = []
    · subst hne
      have : FilterNode.partsSql tables children = [] := List.map_eq_nil_iff.mp htexts.symm
      simp [sql?, toNode, FilterNode.sql?, this, joinParts?]
    · obtain ⟨s, hs, htext⟩ := written hne
      have ne_empty : s ≠ "" := by
        rintro rfl
        rw [← Filter.textOf_joinedTokens operator hne] at htext
        exact (Filter.solid_joinedTokens operator hne).textOf_ne_nil htext.symm
      have group : FilterNode.sql? tables (.group operator children) = some s := hs
      simp [hs, group, ne_empty]
  · intro hparts
    rw [writtenParts, ← FilterNode.partsSql_eq_filterMap] at hparts
    have hne : ps ≠ [] := by
      rintro rfl
      exact hparts (List.map_eq_nil_iff.mp htexts.symm)
    obtain ⟨s, hs, htext⟩ := written hne
    refine ⟨s, hs, ?_, fun f => ?_⟩
    · rw [ComesApart, writtenParts, ← FilterNode.partsSql_eq_filterMap, htext, ← htexts]
      cases operator with
      | or => exact Filter.splitOr_joined hne
      | and => exact ⟨Filter.splitConjuncts_joined hne, Filter.topLevelOccurrences_joined_and hne⟩
    · obtain ⟨f', hf', hstructured'⟩ := structured_joined operator hne hstructured
      rw [toNode, FilterNode.formula?, hf', htext]
      constructor
      · exact fun hf => congrArg some (hstructured'.unique hf)
      · rintro ⟨⟩
        exact hstructured'

/-- A filter is written exactly if no number in it is too long, and as nothing exactly when each of
its conditions names an unknown table. Otherwise its text comes apart into the texts of its
children, and its one formula is that of the filter. -/
theorem unambiguous (g : FilterGroup) (tables : List TableRef)
    (h : ∀ c ∈ g.toNode.conditions, c.Ordinary tables) :
    ((∃ e, g.write tables = .error e) ↔ ∃ n ∈ g.toNode.numerals tables, ¬ Numeral.IsWritable n) ∧
      ∀ text, g.write tables = .ok text →
        (text.getD "" = "" ↔ ∀ c ∈ g.toNode.conditions, ¬ c.Resolves tables) ∧
        (g.writtenParts tables ≠ [] → ∃ s, text = some s ∧ g.ComesApart tables s.toList ∧
          ∀ f, Structured s.toList f ↔ g.toNode.formula? tables = some f) := by
  constructor
  · simp only [write, writing_eq_error_iff, exists_and_left, exists_eq', and_true]
  · intro text htext
    obtain ⟨-, rfl⟩ := writing_eq_ok_iff.mp htext
    exact g.comesApart_sql? tables h

/-- An `OR` of a text with a quote and connectives in it, a range, a list and a condition on no
known table, where the range and the list are in a group of their own. -/
def branching : FilterGroup where
  operator := .or
  children := [
    .condition ⟨some "t1", "note", .compare .eq, .string "it's (a) OR b", .null⟩,
    .condition ⟨some "t9", "gone", .isNull, .null, .null⟩,
    .group .and [
      .condition ⟨some "t1", "total", .between, .scalar (.int 1), .int 20⟩,
      .group .or [.condition ⟨none, "kind", .notIn, .list [.string "AND", .null], .null⟩],
      .group .or [.condition ⟨some "t9", "gone", .isNull, .null, .null⟩]]]

def orders : TableRef where
  id := "t1"
  name := "shop.orders"
  aliasName := some "o"
  selectedColumns := ["*"]

theorem ordinary_branching : ∀ c ∈ branching.toNode.conditions, c.Ordinary [orders] := by
  have reference : IsReference "o".toList := .name (by decide) (by decide)
  have known : ∀ t, findTableOf? [orders] (some "t1") = some t →
      IsReference t.reference.toList := by
    rintro t ⟨⟩
    exact reference
  simp only [branching, toNode, FilterNode.conditions, FilterNode.conditionsAll, List.append_nil,
    List.cons_append, List.nil_append, List.forall_mem_cons]
  refine ⟨⟨.name (by decide) (by decide), known, by decide, .inl ⟨_, rfl⟩⟩,
    ⟨.name (by decide) (by decide), by rintro _ ⟨⟩, by decide, .inl ⟨_, rfl⟩⟩,
    ⟨.name (by decide) (by decide), known, by decide, .inl ⟨_, rfl⟩⟩,
    ⟨.name (by decide) (by decide), by rintro _ ⟨⟩, by decide, .inr (.inr rfl)⟩,
    ⟨.name (by decide) (by decide), by rintro _ ⟨⟩, by decide, .inl ⟨_, rfl⟩⟩,
      List.forall_mem_nil _⟩

theorem writtenParts_branching : branching.writtenParts [orders] =
    ["o.note = 'it''s (a) OR b'",
      "(o.total BETWEEN 1 AND 20 AND (kind NOT IN ('AND', NULL)))"] := by
  simp only [writtenParts, branching, List.filterMap_cons, FilterNode.part?, FilterNode.sql?,
    FilterNode.partsSql]
  rfl

theorem unambiguous_branching :
    ∃ s, branching.write [orders] = .ok (some s) ∧
      Filter.splitOr s.toList =
        ["o.note = 'it''s (a) OR b'".toList,
          "(o.total BETWEEN 1 AND 20 AND (kind NOT IN ('AND', NULL)))".toList] ∧
      Structured s.toList (.join .or [.atom "o.note = 'it''s (a) OR b'".toList,
        .join .and [.atom "o.total BETWEEN 1 AND 20".toList,
          .atom "kind NOT IN ('AND', NULL)".toList]]) := by
  have written : branching.write [orders] = .ok (branching.sql? [orders]) :=
    writing_of_forall (by decide)
  obtain ⟨-, exact⟩ := (unambiguous branching [orders] ordinary_branching).2 _ written
  obtain ⟨s, hs, hparts, hformula⟩ :=
    exact (by rw [writtenParts_branching]; exact List.cons_ne_nil _ _)
  refine ⟨s, written.trans (congrArg _ hs), ?_, (hformula _).mpr ?_⟩
  · have : Filter.splitOr s.toList = (branching.writtenParts [orders]).map String.toList := hparts
    rw [this, writtenParts_branching]
    rfl
  · simp only [branching, toNode, FilterNode.formula?, FilterNode.formulas]
    rfl

/-- One comparison with a number. -/
def atTotal (n : Int) : FilterGroup where
  operator := .and
  children := [.condition ⟨none, "total", .compare .eq, .scalar (.int n), .null⟩]

theorem ordinary_atTotal (n : Int) : ∀ c ∈ (atTotal n).toNode.conditions, c.Ordinary [] := by
  have column : IsReference "total".toList := .name (by decide) (by decide)
  refine List.forall_mem_singleton.mpr ⟨column, nofun, ⟨nofun, nofun⟩, .inl ⟨_, rfl⟩⟩

/-- A filter of one ordinary condition has no text if its number is too long. -/
theorem overlong_total_not_written :
    (∀ c ∈ (atTotal (10 ^ Numeral.digitLimit : Nat)).toNode.conditions, c.Ordinary []) ∧
      (atTotal (10 ^ Numeral.digitLimit : Nat)).write [] = .error .numeralTooLong := by
  refine ⟨ordinary_atTotal _, writing_eq_error_iff.mpr ⟨⟨_, List.mem_cons_self, ?_⟩, rfl⟩⟩
  exact Numeral.not_isWritable_pow

end FilterGroup

end SqlCanvas
