import SqlCanvas.Proofs.Number.Numeral
import SqlCanvas.Proofs.Query.Writing

/-!
# What writing leaves out is what is reported

Writing and examining a query are two separate walks over it. They agree on every dangling
reference: a join or a condition is left out of the text exactly when its table is among the
findings, at every place of the query. They agree on missing tables too, without which nothing is
written. A number that is too long is no finding, and is the only other thing that keeps a query
from being written. `resolved` is the query without what is reported; it has the same text.
-/

namespace SqlCanvas

/-- What a finding says, without the way to the query it is about. -/
def Finding.core : Finding → Finding
  | .inCommonTable _ f => f.core
  | .inBranch _ _ f => f.core
  | f => f

@[simp] theorem Finding.core_wrap (s : NestingStep) (f : Finding) : (s.wrap f).core = f.core := by
  cases s <;> rfl

@[simp] theorem Place.core_report (p : Place) (f : Finding) : (p.report f).core = f.core := by
  obtain ⟨path, q⟩ := p
  induction path with
  | nil => rfl
  | cons s path ih => exact (Finding.core_wrap s _).trans ih

theorem findTable?_eq_none_iff {tables : List TableRef} {id : String} :
    findTable? tables id = none ↔ isKnownTable tables id = false := by
  rw [← Option.not_isSome_iff_eq_none, findTable?_isSome_iff, ← isKnownTable_iff,
    Bool.not_eq_true]

theorem Join.sql?_eq_none_iff {j : Join} {tables : List TableRef} :
    j.sql? tables = none ↔
      isKnownTable tables j.fromTableId = false ∨ isKnownTable tables j.toTableId = false := by
  rw [← findTable?_eq_none_iff, ← findTable?_eq_none_iff, Join.sql?]
  cases findTable? tables j.fromTableId <;> cases findTable? tables j.toTableId <;> simp

theorem Join.mem_findings {j : Join} {tables : List TableRef} {index : Nat} {f : Finding} :
    f ∈ j.findings tables index ↔
      (isKnownTable tables j.fromTableId = false ∧ f = .joinSource index) ∨
      (isKnownTable tables j.toTableId = false ∧ f = .joinTarget index) ∨
      (j.conditions = [] ∧ f = .joinWithoutConditions index) := by
  rw [Join.findings, List.mem_append, List.mem_append, or_assoc]
  refine or_congr ?_ (or_congr ?_ ?_)
  · cases isKnownTable tables j.fromTableId <;> simp
  · cases isKnownTable tables j.toTableId <;> simp
  · cases j.conditions <;> simp

theorem FilterCondition.sql?_eq_none_iff {c : FilterCondition} {tables : List TableRef} :
    c.sql? tables = none ↔ ∃ id, c.tableId = some id ∧ isKnownTable tables id = false := by
  simp only [← findTable?_eq_none_iff, FilterCondition.sql?, FilterCondition.columnSql?,
    Option.map_eq_none_iff]
  cases c.tableId <;> simp

theorem FilterCondition.filterTable_mem_findings {c : FilterCondition} {tables : List TableRef}
    {clause clause' : FilterClause} {column id : String} :
    .filterTable clause' column id ∈ c.findings tables clause ↔
      clause' = clause ∧ column = c.column ∧ c.tableId = some id ∧ isKnownTable tables id =
        false := by
  rw [FilterCondition.findings]
  cases h : c.tableId with
  | none => cases hr : c.isOpenRange <;> simp
  | some id' =>
    cases hk : isKnownTable tables id' with
    | true =>
      simp only [Option.filter_some, hk, Bool.not_true, Option.some.injEq]
      cases hr : c.isOpenRange <;> simp <;> rintro - - rfl <;> exact hk
    | false =>
      simp only [Option.filter_some, hk, Bool.not_false, if_true, List.mem_singleton,
        Finding.filterTable.injEq, Option.some.injEq]
      constructor
      · rintro ⟨rfl, rfl, rfl⟩
        exact ⟨rfl, rfl, rfl, hk⟩
      · rintro ⟨rfl, rfl, rfl, -⟩
        exact ⟨rfl, rfl, rfl⟩

/-- Conditions are reported by the names of their clause, column and operator only. -/
theorem FilterCondition.mem_findings {c : FilterCondition} {tables : List TableRef}
    {clause : FilterClause} {f : Finding} (h : f ∈ c.findings tables clause) :
    (∃ id, f = .filterTable clause c.column id) ∨ f = .openRange clause c.column c.operator := by
  rw [FilterCondition.findings] at h
  split at h
  · exact .inl ⟨_, List.mem_singleton.mp h⟩
  · split at h
    · exact .inr (List.mem_singleton.mp h)
    · cases h

mutual

theorem FilterNode.findings_eq (tables : List TableRef) (clause : FilterClause) : (n : FilterNode) →
    n.findings tables clause = n.conditions.flatMap (·.findings tables clause)
  | .condition c => by simp [FilterNode.findings, FilterNode.conditions]
  | .group _ children => FilterNode.findingsAll_eq tables clause children

theorem FilterNode.findingsAll_eq (tables : List TableRef) (clause : FilterClause) :
    (ns : List FilterNode) → FilterNode.findingsAll tables clause ns =
      (FilterNode.conditionsAll ns).flatMap (·.findings tables clause)
  | [] => rfl
  | n :: ns => by
    rw [FilterNode.findingsAll, FilterNode.conditionsAll, List.flatMap_append,
      FilterNode.findings_eq tables clause n, FilterNode.findingsAll_eq tables clause ns]

end

namespace Query

def filterFindings (q : Query) (clause : FilterClause) : List Finding :=
  (q.conditions clause).flatMap (·.findings q.tables clause)

def groupFindings (q : Query) : List Finding :=
  match q.groupBy with
  | some g => if g.columns.isEmpty then [.groupWithoutColumns] else []
  | none => []

theorem ownFindings_eq (q : Query) :
    q.ownFindings = (if q.tables.isEmpty then [.noTables] else []) ++
      (repeatedIds [] q.tables).map .duplicateTable ++
      (q.joins.mapIdx fun i j => j.findings q.tables (i + 1)).flatten ++
      q.filterFindings .where ++ (q.groupFindings ++ q.filterFindings .having) := by
  have groups (g : GroupClause) : g.findings q.tables =
      (if g.columns.isEmpty then [.groupWithoutColumns] else []) ++
        ((g.having.map (·.conditions)).getD []).flatMap (·.findings q.tables .having) := by
    simp only [GroupClause.findings]
    cases g.having <;> simp [FilterNode.findings_eq]
  rw [ownFindings, filterFindings, filterFindings, conditions, conditions, groupFindings]
  cases q.filters <;> cases q.groupBy <;> simp [FilterNode.findings_eq, groups]

theorem mem_joinFindings {q : Query} {f : Finding} :
    f ∈ (q.joins.mapIdx fun i j => j.findings q.tables (i + 1)).flatten ↔
      ∃ i, ∃ j : Join, q.joins[i]? = some j ∧ f ∈ j.findings q.tables (i + 1) := by
  simp only [List.mem_flatten, List.mem_mapIdx]
  constructor
  · rintro ⟨_, ⟨i, hi, rfl⟩, hf⟩
    exact ⟨i, _, List.getElem?_eq_getElem hi, hf⟩
  · rintro ⟨i, j, hj, hf⟩
    obtain ⟨hi, rfl⟩ := List.getElem?_eq_some_iff.mp hj
    exact ⟨_, ⟨i, hi, rfl⟩, hf⟩

theorem mem_filterFindings {q : Query} {clause : FilterClause} {f : Finding} :
    f ∈ q.filterFindings clause ↔ ∃ c ∈ q.conditions clause, f ∈ c.findings q.tables clause :=
  List.mem_flatMap

theorem eq_of_mem_groupFindings {q : Query} {f : Finding} (h : f ∈ q.groupFindings) :
    f = .groupWithoutColumns := by
  rw [groupFindings] at h
  split at h
  · split at h
    · exact List.mem_singleton.mp h
    · cases h
  · cases h

theorem mem_ownFindings {q : Query} {f : Finding} (h : f ∈ q.ownFindings) :
    (f = .noTables ∧ q.tables = []) ∨ (∃ id, f = .duplicateTable id) ∨
      (∃ i, ∃ j : Join, q.joins[i]? = some j ∧ f ∈ j.findings q.tables (i + 1)) ∨
      f = .groupWithoutColumns ∨
      ∃ clause, ∃ c ∈ q.conditions clause, f ∈ c.findings q.tables clause := by
  rw [ownFindings_eq] at h
  simp only [List.mem_append, mem_joinFindings, mem_filterFindings] at h
  rcases h with (((h | h) | h) | h) | h | h
  · cases ht : q.tables with
    | nil => exact .inl ⟨by simpa [ht] using h, rfl⟩
    | cons => simp [ht] at h
  · obtain ⟨id, -, rfl⟩ := List.mem_map.mp h
    exact .inr (.inl ⟨id, rfl⟩)
  · exact .inr (.inr (.inl h))
  · exact .inr (.inr (.inr (.inr ⟨_, h⟩)))
  · exact .inr (.inr (.inr (.inl (eq_of_mem_groupFindings h))))
  · exact .inr (.inr (.inr (.inr ⟨_, h⟩)))

theorem core_eq_self_of_mem_ownFindings {q : Query} {f : Finding} (h : f ∈ q.ownFindings) :
    f.core = f := by
  rcases mem_ownFindings h with ⟨rfl, -⟩ | ⟨id, rfl⟩ | ⟨i, j, -, hf⟩ | rfl | ⟨clause, c, -, hf⟩
  · rfl
  · rfl
  · rcases Join.mem_findings.mp hf with ⟨-, rfl⟩ | ⟨-, rfl⟩ | ⟨-, rfl⟩ <;> rfl
  · rfl
  · rcases FilterCondition.mem_findings hf with ⟨id, rfl⟩ | rfl <;> rfl

theorem noTables_mem_ownFindings_iff {q : Query} : .noTables ∈ q.ownFindings ↔ q.tables = [] := by
  constructor
  · intro h
    rcases mem_ownFindings h with ⟨-, h⟩ | ⟨id, h⟩ | ⟨i, j, -, hf⟩ | h | ⟨clause, c, -, hf⟩
    · exact h
    · cases h
    · rcases Join.mem_findings.mp hf with ⟨-, h⟩ | ⟨-, h⟩ | ⟨-, h⟩ <;> cases h
    · cases h
    · rcases FilterCondition.mem_findings hf with ⟨id, h⟩ | h <;> cases h
  · intro h
    simp [ownFindings, h]

theorem mem_ownFindings_of_join {q : Query} {i : Nat} {j : Join} (hj : q.joins[i]? = some j)
    {f : Finding} (hf : f = .joinSource (i + 1) ∨ f = .joinTarget (i + 1)) :
    f ∈ q.ownFindings ↔ f ∈ j.findings q.tables (i + 1) := by
  constructor
  · intro h
    rcases mem_ownFindings h with ⟨rfl, -⟩ | ⟨id, rfl⟩ | ⟨i', j', hj', hf'⟩ | rfl
      | ⟨clause, c, -, hf'⟩
    · simp at hf
    · simp at hf
    · have same : i' = i := by
        rcases Join.mem_findings.mp hf' with ⟨-, h⟩ | ⟨-, h⟩ | ⟨-, h⟩ <;>
          rcases hf with rfl | rfl <;> cases h <;> rfl
      subst same
      rw [hj] at hj'
      cases hj'
      exact hf'
    · simp at hf
    · rcases FilterCondition.mem_findings hf' with ⟨id, rfl⟩ | rfl <;> simp at hf
  · intro h
    rw [ownFindings_eq]
    have : f ∈ (q.joins.mapIdx fun i j => j.findings q.tables (i + 1)).flatten :=
      mem_joinFindings.mpr ⟨i, j, hj, h⟩
    simp [this]

theorem filterTable_mem_ownFindings_iff {q : Query} {clause : FilterClause} {column id : String} :
    .filterTable clause column id ∈ q.ownFindings ↔
      ∃ c ∈ q.conditions clause, column = c.column ∧ c.tableId = some id ∧
        isKnownTable q.tables id = false := by
  constructor
  · intro h
    rcases mem_ownFindings h with ⟨h, -⟩ | ⟨_, h⟩ | ⟨i, j, -, hf⟩ | h | ⟨clause', c, hc, hf⟩
    · cases h
    · cases h
    · rcases Join.mem_findings.mp hf with ⟨-, h⟩ | ⟨-, h⟩ | ⟨-, h⟩ <;> cases h
    · cases h
    · obtain ⟨rfl, h⟩ := FilterCondition.filterTable_mem_findings.mp hf
      exact ⟨c, hc, h⟩
  · rintro ⟨c, hc, h⟩
    have : .filterTable clause column id ∈ q.filterFindings clause :=
      mem_filterFindings.mpr ⟨c, hc, FilterCondition.filterTable_mem_findings.mpr ⟨rfl, h⟩⟩
    rw [ownFindings_eq]
    cases clause <;> simp [this]

theorem join_left_out_iff {q : Query} {i : Nat} {j : Join} (hj : q.joins[i]? = some j) :
    j.sql? q.tables = none ↔
      .joinSource (i + 1) ∈ q.ownFindings ∨ .joinTarget (i + 1) ∈ q.ownFindings := by
  rw [mem_ownFindings_of_join hj (.inl rfl), mem_ownFindings_of_join hj (.inr rfl),
    Join.sql?_eq_none_iff, Join.mem_findings, Join.mem_findings]
  simp

theorem condition_left_out_iff {q : Query} {clause : FilterClause} {c : FilterCondition}
    (hc : c ∈ q.conditions clause) :
    c.sql? q.tables = none ↔
      ∃ id, c.tableId = some id ∧ .filterTable clause c.column id ∈ q.ownFindings := by
  rw [FilterCondition.sql?_eq_none_iff]
  refine exists_congr fun id => and_congr_right fun hid => ?_
  rw [filterTable_mem_ownFindings_iff]
  constructor
  · intro h
    exact ⟨c, hc, rfl, hid, h⟩
  · rintro ⟨-, -, -, -, h⟩
    exact h

theorem noTables_reported_iff (q : Query) :
    (∃ f ∈ q.findings, f.core = .noTables) ↔ ∃ r, q.Reaches r ∧ r.tables = [] := by
  rw [findings_eq_flatMap_places]
  constructor
  · rintro ⟨f, hf, hcore⟩
    obtain ⟨p, hp, hf⟩ := List.mem_flatMap.mp hf
    obtain ⟨own, hown, rfl⟩ := List.mem_map.mp hf
    rw [Place.core_report, core_eq_self_of_mem_ownFindings hown] at hcore
    subst hcore
    exact ⟨p.query, exists_mem_places_iff.mp ⟨p, hp, rfl⟩, noTables_mem_ownFindings_iff.mp hown⟩
  · rintro ⟨r, hr, ht⟩
    obtain ⟨p, hp, rfl⟩ := exists_mem_places_iff.mpr hr
    refine ⟨p.report .noTables, List.mem_flatMap.mpr ⟨p, hp, ?_⟩, by simp [Finding.core]⟩
    exact List.mem_map_of_mem (noTables_mem_ownFindings_iff.mpr ht)

end Query

namespace FilterNode

mutual

/-- The node without the conditions on unknown tables; nothing for such a condition itself. -/
def resolved? (tables : List TableRef) : FilterNode → Option FilterNode
  | .condition c => if (c.sql? tables).isSome then some (.condition c) else none
  | .group operator children => some (.group operator (resolvedAll tables children))

def resolvedAll (tables : List TableRef) : List FilterNode → List FilterNode
  | [] => []
  | n :: ns => (n.resolved? tables).toList ++ resolvedAll tables ns

end

theorem partsSql_append (tables : List TableRef) (ms ns : List FilterNode) :
    partsSql tables (ms ++ ns) = partsSql tables ms ++ partsSql tables ns := by
  induction ms with
  | nil => simp [partsSql]
  | cons m ms ih => cases m <;> simp [partsSql, ih]

theorem partsSql_resolvedAll (tables : List TableRef) : (ns : List FilterNode) →
    partsSql tables (resolvedAll tables ns) = partsSql tables ns
  | [] => rfl
  | .condition c :: ns => by
    rw [resolvedAll, partsSql_append, partsSql_resolvedAll tables ns, partsSql, resolved?]
    cases h : c.sql? tables <;> simp [partsSql, h]
  | .group operator children :: ns => by
    rw [resolvedAll, partsSql_append, partsSql_resolvedAll tables ns, resolved?, partsSql]
    simp [partsSql, partsSql_resolvedAll tables children]

theorem bind_resolved? (tables : List TableRef) (n : FilterNode) :
    (n.resolved? tables).bind (·.sql? tables) = n.sql? tables := by
  cases n with
  | condition c => cases h : c.sql? tables <;> simp [resolved?, sql?, h]
  | group operator children => simp [resolved?, sql?, partsSql_resolvedAll]

end FilterNode

def FilterGroup.resolved (g : FilterGroup) (tables : List TableRef) : FilterGroup :=
  ⟨g.operator, FilterNode.resolvedAll tables g.children⟩

def GroupClause.resolved (g : GroupClause) (tables : List TableRef) : GroupClause :=
  { g with having := g.having.bind (·.resolved? tables) }

theorem FilterCondition.numerals_of_sql?_eq_none {c : FilterCondition} {tables : List TableRef}
    (h : c.sql? tables = none) : c.numerals tables = [] := by
  rw [FilterCondition.numerals, if_neg]
  rw [FilterCondition.sql?, Option.map_eq_none_iff] at h
  rw [h]
  exact Bool.false_ne_true

namespace FilterNode

theorem conditionsAll_append (ms ns : List FilterNode) :
    conditionsAll (ms ++ ns) = conditionsAll ms ++ conditionsAll ns := by
  induction ms with
  | nil => rfl
  | cons m ms ih => rw [List.cons_append, conditionsAll, conditionsAll, ih, List.append_assoc]

theorem conditionsAll_resolvedAll (tables : List TableRef) : (ns : List FilterNode) →
    conditionsAll (resolvedAll tables ns) = (conditionsAll ns).filter fun c =>
      (c.sql? tables).isSome
  | [] => rfl
  | .condition c :: ns => by
    rw [resolvedAll, conditionsAll_append, conditionsAll_resolvedAll tables ns, conditionsAll,
      List.filter_append, resolved?]
    cases h : c.sql? tables <;> simp [conditionsAll, conditions, h]
  | .group operator children :: ns => by
    rw [resolvedAll, conditionsAll_append, conditionsAll_resolvedAll tables ns, conditionsAll,
      List.filter_append, resolved?, conditions, ← conditionsAll_resolvedAll tables children]
    simp [conditionsAll, conditions]

theorem conditions_resolved? (tables : List TableRef) (n : FilterNode) :
    ((n.resolved? tables).map conditions).getD [] =
      n.conditions.filter fun c => (c.sql? tables).isSome := by
  cases n with
  | condition c => cases h : c.sql? tables <;> simp [resolved?, conditions, h]
  | group operator children => exact conditionsAll_resolvedAll tables children

end FilterNode

namespace Query

/-- The query without its own dangling joins and conditions. -/
def ownResolved (q : Query) : Query :=
  { q with
    joins := q.joins.filter fun j => (j.sql? q.tables).isSome
    filters := q.filters.map (·.resolved q.tables)
    groupBy := q.groupBy.map (·.resolved q.tables) }

theorem ownLines_ownResolved (q : Query) (d : Dialect) (anchor : TableRef) :
    q.ownResolved.ownLines d anchor = q.ownLines d anchor := by
  have joins : (q.joins.filter fun j => (j.sql? q.tables).isSome).filterMap (·.sql? q.tables) =
      q.joins.filterMap (·.sql? q.tables) := by
    rw [List.filterMap_filter]
    congr 1
    funext j
    cases j.sql? q.tables <;> rfl
  have filters : q.ownResolved.whereLine = q.whereLine := by
    simp only [whereLine, ownResolved]
    cases q.filters with
    | none => rfl
    | some g =>
      have := FilterNode.bind_resolved? q.tables g.toNode
      simp only [FilterGroup.toNode, FilterNode.resolved?, Option.bind_some] at this
      simp [FilterGroup.sql?, FilterGroup.resolved, FilterGroup.toNode, this]
  have groups : q.ownResolved.groupLines = q.groupLines := by
    simp only [groupLines, ownResolved]
    cases q.groupBy with
    | none => rfl
    | some g =>
      cases hh : g.having with
      | none => simp [GroupClause.lines, GroupClause.havingSql?, GroupClause.resolved, hh,
          GroupClause.columnsSql]
      | some n =>
        have := FilterNode.bind_resolved? q.tables n
        simp [GroupClause.lines, GroupClause.havingSql?, GroupClause.resolved, hh,
          GroupClause.columnsSql, this]
  rw [ownLines, ownLines, filters, groups]
  exact congrArg (fun lines => _ ++ lines ++ _ ++ _ ++ _ ++ _) joins

theorem conditions_ownResolved (q : Query) (clause : FilterClause) :
    q.ownResolved.conditions clause =
      (q.conditions clause).filter fun c => (c.sql? q.tables).isSome := by
  cases clause with
  | «where» =>
    rw [conditions, conditions, ownResolved]
    cases q.filters with
    | none => rfl
    | some g => exact g.toNode.conditions_resolved? q.tables
  | having =>
    rw [conditions, conditions, ownResolved]
    cases q.groupBy with
    | none => rfl
    | some g =>
      obtain ⟨columns, having⟩ := g
      cases having with
      | none => rfl
      | some n => exact n.conditions_resolved? q.tables

/-- The whole numbers in the conditions of a query by itself. -/
def conditionNumerals (q : Query) : List Int :=
  (q.conditions .where ++ q.conditions .having).flatMap (·.numerals q.tables)

theorem numerals_eq (q : Query) (d : Dialect) :
    q.numerals d = q.conditionNumerals ++ q.limitNumerals d := by
  rw [numerals, filterTrees, conditionNumerals, List.flatMap_append, List.flatMap_append,
    conditions, conditions]
  congr 2
  · cases q.filters <;> simp [FilterNode.numerals]
  · cases q.groupBy.bind (·.having) <;> simp [FilterNode.numerals]

/-- What is left out holds no number of the text. -/
theorem numerals_ownResolved (q : Query) (d : Dialect) :
    q.ownResolved.numerals d = q.numerals d := by
  have kept (cs : List FilterCondition) :
      (cs.filter fun c => (c.sql? q.tables).isSome).flatMap (·.numerals q.tables) =
        cs.flatMap (·.numerals q.tables) := by
    induction cs with
    | nil => rfl
    | cons c cs ih =>
      cases h : c.sql? q.tables with
      | none => simp [h, ih, FilterCondition.numerals_of_sql?_eq_none h]
      | some s => simp [h, ih]
  rw [numerals_eq, numerals_eq, conditionNumerals, conditionNumerals, conditions_ownResolved,
    conditions_ownResolved, ← List.filter_append]
  exact congrArg (· ++ _) (kept _)

mutual

/-- The query without dangling joins and conditions at any of its places. -/
def resolved : Query → Query
  | q@⟨_, _, _, _, _, _, _, _, _, _, _, ctes, unions⟩ =>
    { q.ownResolved with ctes := resolvedOptionalTables ctes, unions :=
      resolvedOptionalBranches unions }

def resolvedOptionalTables : Option (List (CommonTable Query)) → Option (List (CommonTable Query))
  | none => none
  | some ctes => some (resolvedTables ctes)

def resolvedTables : List (CommonTable Query) → List (CommonTable Query)
  | [] => []
  | ⟨name, query, recursive⟩ :: ctes => ⟨name, query.resolved, recursive⟩ :: resolvedTables ctes

def resolvedOptionalBranches : Option (List (SetBranch Query)) → Option (List (SetBranch Query))
  | none => none
  | some unions => some (resolvedBranches unions)

def resolvedBranches : List (SetBranch Query) → List (SetBranch Query)
  | [] => []
  | ⟨kind, query⟩ :: branches => ⟨kind, query.resolved⟩ :: resolvedBranches branches

end

theorem any_recursive_resolvedTables (ctes : List (CommonTable Query)) :
    (resolvedTables ctes).any (·.recursive) = ctes.any (·.recursive) := by
  induction ctes with
  | nil => rfl
  | cons c ctes ih => simp [resolvedTables, ih]

theorem tablesSql_resolved {d : Dialect} {ctes : List (CommonTable Query)}
    (h : ∀ c ∈ ctes, c.query.resolved.sql d = c.query.sql d) :
    tablesSql d (resolvedTables ctes) = tablesSql d ctes := by
  induction ctes with
  | nil => rfl
  | cons c ctes ih =>
    obtain ⟨hc, hctes⟩ := List.forall_mem_cons.mp h
    rw [resolvedTables, tablesSql, tablesSql, hc, ih hctes]

theorem branchesSql_resolved {d : Dialect} {branches : List (SetBranch Query)}
    (h : ∀ b ∈ branches, b.query.resolved.sql d = b.query.sql d) :
    branchesSql d (resolvedBranches branches) = branchesSql d branches := by
  induction branches with
  | nil => rfl
  | cons b branches ih =>
    obtain ⟨hb, hbranches⟩ := List.forall_mem_cons.mp h
    rw [resolvedBranches, branchesSql, branchesSql, hb, ih hbranches]

theorem resolved_eq (q : Query) :
    q.resolved =
      { q.ownResolved with
        ctes := resolvedOptionalTables q.ctes, unions := resolvedOptionalBranches q.unions } := by
  cases q
  rfl

theorem sql_resolved (d : Dialect) (q : Query) : q.resolved.sql d = q.sql d := by
  induction q using nestedInduction with
  | step q ih =>
    have tables : optionalTables d (resolvedOptionalTables q.ctes) = optionalTables d q.ctes := by
      cases hc : q.ctes with
      | none => rfl
      | some ctes =>
        rw [resolvedOptionalTables, optionalTables, optionalTables,
          tablesSql_resolved fun c hmem => ih _ (.commonTable hc hmem)]
        simp only [withKeyword, any_recursive_resolvedTables]
    have branches : optionalBranches d (resolvedOptionalBranches q.unions) =
        optionalBranches d q.unions := by
      cases hu : q.unions with
      | none => rfl
      | some unions => exact branchesSql_resolved fun b hmem => ih _ (.branch hu hmem)
    have own (anchor : TableRef) : q.resolved.ownLines d anchor = q.ownLines d anchor := by
      rw [resolved_eq]
      exact ownLines_ownResolved q d anchor
    have numerals : q.resolved.numerals d = q.numerals d := by
      rw [resolved_eq]
      exact numerals_ownResolved q d
    have parts : q.resolved.tables = q.tables ∧ q.resolved.ctes = resolvedOptionalTables q.ctes ∧
        q.resolved.unions = resolvedOptionalBranches q.unions := by
      rw [resolved_eq]
      exact ⟨rfl, rfl, rfl⟩
    rw [sql_eq, sql_eq q, parts.1, parts.2.1, parts.2.2, tables, branches]
    simp only [own, numerals]

theorem ownFinding_not_mem_of_isValid {q : Query} (valid : q.isValid = true) {p : Place}
    (hp : p ∈ q.places) (f : Finding) : f ∉ p.query.ownFindings := by
  intro hf
  have : p.report f ∈ q.findings := by
    rw [findings_eq_flatMap_places]
    exact List.mem_flatMap.mpr ⟨p, hp, List.mem_map_of_mem hf⟩
  rw [List.isEmpty_iff.mp valid] at this
  cases this

/-- Nothing is left out of a valid query. -/
theorem isSome_of_isValid {q : Query} (valid : q.isValid = true) {p : Place} (hp : p ∈ q.places) :
    (∀ j ∈ p.query.joins, (j.sql? p.query.tables).isSome) ∧
      ∀ clause, ∀ c ∈ p.query.conditions clause, (c.sql? p.query.tables).isSome := by
  have clean := ownFinding_not_mem_of_isValid valid hp
  constructor
  · intro j hj
    obtain ⟨i, hi⟩ := List.mem_iff_getElem?.mp hj
    apply Option.isSome_iff_ne_none.mpr
    rw [Ne, join_left_out_iff hi]
    rintro (h | h)
    · exact clean _ h
    · exact clean _ h
  · intro clause c hc
    apply Option.isSome_iff_ne_none.mpr
    rw [Ne, condition_left_out_iff hc]
    rintro ⟨id, -, h⟩
    exact clean _ h

theorem tables_ne_nil_of_isValid {q r : Query} (valid : q.isValid = true) (hr : q.Reaches r) :
    r.tables ≠ [] := by
  intro hnone
  obtain ⟨f, hf, -⟩ := (noTables_reported_iff q).mpr ⟨r, hr, hnone⟩
  rw [List.isEmpty_iff.mp valid] at hf
  cases hf

/-- A valid query can only fail for a number that is too long. -/
theorem error_numeralTooLong_iff {q : Query} {d : Dialect} (valid : q.isValid = true) :
    q.sql d = .error .numeralTooLong ↔ ¬ q.NumeralsWritable d := by
  constructor
  · exact not_numeralsWritable_of_error
  · intro long
    obtain ⟨e, he⟩ := (exists_error_sql_iff q d).mpr (.inr long)
    cases e with
    | numeralTooLong => exact he
    | noTables =>
      obtain ⟨r, hr, hnone⟩ := reaches_without_tables_of_error he
      exact absurd hnone (tables_ne_nil_of_isValid valid hr)

theorem exists_sql_iff_of_isValid {q : Query} {d : Dialect} (valid : q.isValid = true) :
    (∃ s, q.sql d = .ok s) ↔ q.NumeralsWritable d := by
  constructor
  · rintro ⟨s, hs⟩
    by_contra long
    cases hs.symm.trans ((error_numeralTooLong_iff valid).mpr long)
  · intro writable
    cases h : q.sql d with
    | ok s => exact ⟨s, rfl⟩
    | error e =>
      cases e with
      | numeralTooLong => exact absurd writable (not_numeralsWritable_of_error h)
      | noTables =>
        obtain ⟨r, hr, hnone⟩ := reaches_without_tables_of_error h
        exact absurd hnone (tables_ne_nil_of_isValid valid hr)

/-- Writing fails for a place without tables, which is reported, or for a number that is too long,
which is not; only the first is an error of its own kind. At every place a join is left out exactly
when one of its tables is reported, and a condition exactly when its table is. What is reported does
not change the text. Everything else stands in it, each part at a place of its own, so that a valid
query whose numbers are not too long is written in full. -/
theorem omissions_are_findings (q : Query) (d : Dialect) :
    ((∃ e, q.sql d = .error e) ↔ (∃ r, q.Reaches r ∧ r.tables = []) ∨ ¬ q.NumeralsWritable d) ∧
    (q.NumeralsWritable d → (q.sql d = .error .noTables ↔ ∃ r, q.Reaches r ∧ r.tables = [])) ∧
    (q.sql d = .error .noTables → ∃ r, q.Reaches r ∧ r.tables = []) ∧
    (q.sql d = .error .numeralTooLong → ¬ q.NumeralsWritable d) ∧
    ((∃ r, q.Reaches r ∧ r.tables = []) ↔ ∃ f ∈ q.findings, f.core = .noTables) ∧
    q.findings = q.places.flatMap Place.reports ∧
    (∀ r, q.Reaches r ↔ ∃ p ∈ q.places, p.query = r) ∧
    (∀ p ∈ q.places, ∀ i j, p.query.joins[i]? = some j →
      (j.sql? p.query.tables = none ↔
        .joinSource (i + 1) ∈ p.query.ownFindings ∨ .joinTarget (i + 1) ∈ p.query.ownFindings)) ∧
    (∀ p ∈ q.places, ∀ clause, ∀ c ∈ p.query.conditions clause,
      (c.sql? p.query.tables = none ↔
        ∃ id, c.tableId = some id ∧ .filterTable clause c.column id ∈ p.query.ownFindings)) ∧
    q.resolved.sql d = q.sql d ∧
    (∀ s, q.sql d = .ok s → StandIn q.parts s.toList) ∧
    q.parts.Perm (q.places.flatMap (·.query.ownParts)) ∧ (∀ part ∈ q.parts, part ≠ "") ∧
    (q.isValid = true → ((∃ s, q.sql d = .ok s) ↔ q.NumeralsWritable d) ∧ ∀ p ∈ q.places,
      (∀ j ∈ p.query.joins, (j.sql? p.query.tables).isSome) ∧
      ∀ clause, ∀ c ∈ p.query.conditions clause, (c.sql? p.query.tables).isSome) := by
  refine ⟨exists_error_sql_iff q d, error_noTables_iff, reaches_without_tables_of_error,
    not_numeralsWritable_of_error, (noTables_reported_iff q).symm, findings_eq_flatMap_places q,
    fun r => exists_mem_places_iff.symm, fun p _ i j hj => join_left_out_iff hj,
    fun p _ clause c hc => condition_left_out_iff hc, sql_resolved d q, fun s hs => standIn_sql hs,
    q.parts_perm, fun part hpart => ne_empty_of_mem_parts hpart, ?_⟩
  intro valid
  exact ⟨exists_sql_iff_of_isValid valid, fun p hp => isSome_of_isValid valid hp⟩

/-- All rows of a table up to a number of them, as an editor may ask for. -/
def page (rows : Nat) : Query :=
  { Query.empty with
    tables := [⟨"table_1", "t", none, ["*"]⟩]
    limit := some rows }

theorem isValid_page (rows : Nat) : (page rows).isValid = true :=
  rfl

theorem mem_numerals_page (rows : Nat) (d : Dialect) : (rows : Int) ∈ (page rows).numerals d := by
  apply List.mem_append_right
  cases d
  · exact List.mem_cons_self
  · exact List.mem_cons_self
  · exact List.mem_cons_self
  · exact List.mem_cons_of_mem _ List.mem_cons_self

/-- Nothing is found in a query that asks for `10 ^ 4300` rows, and it cannot be written. -/
theorem overlong_page_not_written :
    (page (10 ^ Numeral.digitLimit)).findings = [] ∧
      (page (10 ^ Numeral.digitLimit)).sql .postgresql = .error .numeralTooLong := by
  refine ⟨rfl, (error_numeralTooLong_iff (isValid_page _)).mpr fun writable => ?_⟩
  exact Numeral.not_isWritable_pow (writable _ .refl _ (mem_numerals_page _ _))

end Query

end SqlCanvas
