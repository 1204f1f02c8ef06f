import SqlCanvas.Proofs.Grammar.Plain
import SqlCanvas.Proofs.Grammar.Table
import SqlCanvas.Proofs.Query.Places
import SqlCanvas.Proofs.Statement.Naming

/-!
# Canonical queries

Queries that are held by their text: names are identifiers, every reference is to a table of the
query, the tables after the first are joined in order, and filters are conjunctions or alternatives
of them. The queries of a `WITH` clause and of set operations are canonical themselves, and in a
canonical query no operand of a set operation has set operations of its own.
-/

namespace SqlCanvas

open Text Nesting

/-- A name of a column, an alias or a common table. -/
def IsIdentifier (s : String) : Prop :=
  ∃ i : Ident, i.text = s.toList

/-- A name that can stand at the start of a condition. -/
def IsLabel (s : String) : Prop :=
  ∃ i : Ident, i.Plain ∧ i.text = s.toList

theorem IsLabel.isIdentifier {s : String} (h : IsLabel s) : IsIdentifier s :=
  h.imp fun _ h => h.2

theorem IsPlain.isLabel {s : String} (h : IsPlain s) : IsLabel s :=
  ⟨h.ident, h.plain_ident, rfl⟩

theorem IsPlain.isIdentifier {s : String} (h : IsPlain s) : IsIdentifier s :=
  h.isLabel.isIdentifier

/-- A call with nothing inside that could end it. -/
def IsCall (s : String) : Prop :=
  ∃ function inside, IsLabel function ∧ (∀ c ∈ inside.toList, isSpecial c = false) ∧
    s = function ++ "(" ++ inside ++ ")"

/-- The table is among the tables. -/
def Known (tables : List TableRef) (id : String) : Prop :=
  ∃ t ∈ tables, t.id = id

/-- A table whose columns can be written: under its alias, or under a name without a schema. -/
structure TableRef.Nameable (t : TableRef) : Prop where
  name : ∃ d : Dotted, d.rest.length ≤ 1 ∧ d.text = t.name.toList
  aliasName : ∀ a ∈ t.aliasName, IsLabel a
  bare : t.aliasName = none → IsLabel t.name

/-- A value that is read back from its text as it was. -/
inductive Scalar.IsLiteral : Scalar → Prop
  | null : IsLiteral .null
  | bool (b : Bool) : IsLiteral (.bool b)
  | int (n : Int) (h : (Numeral.ofNat n.natAbs).length ≤ Numeral.digitLimit) : IsLiteral (.int n)
  | string (s : String) : IsLiteral (.string s)

theorem Scalar.IsLiteral.isWritable {v : Scalar} (h : v.IsLiteral) :
    ∀ n ∈ v.numerals, Numeral.IsWritable n := by
  cases h with
  | int n h => exact List.forall_mem_singleton.mpr h
  | null | bool | string => exact List.forall_mem_nil _

/-- Comparisons and `LIKE` take any value, null tests none. -/
inductive FilterOperator.Accepts : FilterOperator → Scalar → Prop
  | compare (c : Comparison) {v : Scalar} (h : v.IsLiteral) : Accepts (.compare c) v
  | like {v : Scalar} (h : v.IsLiteral) : Accepts .like v
  | notLike {v : Scalar} (h : v.IsLiteral) : Accepts .notLike v
  | isNull : Accepts .isNull .null
  | isNotNull : Accepts .isNotNull .null

/-- A condition on a column of a known table, or on a call. -/
structure FilterCondition.Canonical (tables : List TableRef) (c : FilterCondition) : Prop where
  place : (∃ id, c.tableId = some id ∧ Known tables id ∧ IsIdentifier c.column) ∨
    (c.tableId = none ∧ IsCall c.column)
  fits : ∃ v, c.value = .scalar v ∧ c.operator.Accepts v
  value2 : c.value2 = .null

/-- One alternative: a condition or a group of two or more. -/
inductive FilterNode.Canonical (tables : List TableRef) : FilterNode → Prop
  | condition {c : FilterCondition} (h : c.Canonical tables) : Canonical tables (.condition c)
  | group {cs : List FilterCondition} (several : 2 ≤ cs.length) (h : ∀ c ∈ cs, c.Canonical tables) :
    Canonical tables (.group .and (cs.map .condition))

inductive FilterGroup.Canonical (tables : List TableRef) : FilterGroup → Prop
  | all {cs : List FilterCondition} (some : cs ≠ []) (h : ∀ c ∈ cs, c.Canonical tables) :
    Canonical tables ⟨.and, cs.map .condition⟩
  | any {nodes : List FilterNode} (several : 2 ≤ nodes.length) (h : ∀ n ∈ nodes,
    n.Canonical tables) : Canonical tables ⟨.or, nodes⟩

/-- A column of a known table that is named or grouped or sorted by. -/
def IsColumn (tables : List TableRef) (table : Option String) (column : String) : Prop :=
  (∃ id, table = some id ∧ Known tables id) ∧ IsIdentifier column

structure GroupClause.Canonical (tables : List TableRef) (g : GroupClause) : Prop where
  any : g.columns ≠ [] ∨ g.having.isSome
  columns : ∀ c ∈ g.columns, IsColumn tables c.tableId c.columnName
  having : ∀ n ∈ g.having, ∃ f : FilterGroup, n = f.toNode ∧ f.Canonical tables

/-- A number that is short enough to be read. -/
def IsReadable (n : Nat) : Prop :=
  (Numeral.ofNat n).length ≤ Numeral.digitLimit

/-- A query by itself is canonical. -/
structure Query.Flat (q : Query) : Prop where
  tables : q.tables ≠ []
  ids : (q.tables.map (·.id)).Nodup
  names : ∀ t ∈ q.tables, t.Nameable
  apart : ReferencesApart q.tables
  targets : q.joins.map (·.toTableId) = q.tables.tail.map (·.id)
  sources : ∀ k, ∀ j ∈ q.joins[k]?, Known (q.tables.take (k + 1)) j.fromTableId
  conditions : ∀ j ∈ q.joins, j.conditions ≠ [] ∧
    ∀ c ∈ j.conditions, IsIdentifier c.fromColumn ∧ IsIdentifier c.toColumn
  columns : ∀ c ∈ q.selectedColumns, Known q.tables c.tableId ∧ IsIdentifier c.columnName ∧
    (∀ a ∈ c.aliasName, IsIdentifier a) ∧ c.expression = none
  distinct : q.distinct = true → q.selectedColumns ≠ []
  filters : ∀ f ∈ q.filters, f.Canonical q.tables
  groupBy : ∀ g ∈ q.groupBy, g.Canonical q.tables
  orderBy : ∀ os ∈ q.orderBy, os ≠ [] ∧ ∀ o ∈ os, IsColumn q.tables o.tableId o.columnName
  limit : ∀ n ∈ q.limit, IsReadable n
  offset : ∀ n ∈ q.offset, IsReadable n ∧ q.limit.isSome

/-- A query that is canonical by itself, with names for its common tables. -/
structure Query.Regular (q : Query) : Prop where
  flat : q.Flat
  ctes : ∀ cs ∈ q.ctes, cs ≠ [] ∧ (∀ c ∈ cs, IsIdentifier c.name) ∧
    ∀ c ∈ cs, ∀ c' ∈ cs, c.recursive = c'.recursive
  unions : ∀ us ∈ q.unions, us ≠ []

/-- All queries in it are canonical by themselves, however set operations are nested. -/
def Query.Composed (q : Query) : Prop :=
  ∀ r, q.Reaches r → r.Regular

structure Query.Canonical (q : Query) : Prop where
  composed : q.Composed
  level : ∀ r, q.Reaches r → ∀ us ∈ r.unions, ∀ u ∈ us, u.query.unions = none

/-- The place of a table among the tables. -/
def position (tables : List TableRef) (id : String) : String :=
  toString (tables.findIdx (·.id == id))

namespace FilterNode

mutual

def mapTables (f : String → String) : FilterNode → FilterNode
  | .condition c => .condition { c with tableId := c.tableId.map f }
  | .group operator children => .group operator (mapAll f children)

def mapAll (f : String → String) : List FilterNode → List FilterNode
  | [] => []
  | n :: ns => mapTables f n :: mapAll f ns

end

end FilterNode

namespace Query

/-- A query by itself with other ids for its tables, and without what its text does not hold: the
ids of joins, the name, the description, the columns ticked in an editor, and an offset of zero. -/
def own (f : String → String) (q : Query) : Query where
  name := none
  description := none
  tables := q.tables.map fun t => { t with id := f t.id, selectedColumns := [] }
  joins := q.joins.map fun j =>
    { j with id := "", fromTableId := f j.fromTableId, toTableId := f j.toTableId }
  selectedColumns := q.selectedColumns.map fun c => { c with tableId := f c.tableId }
  filters := q.filters.map fun g => ⟨g.operator, FilterNode.mapAll f g.children⟩
  groupBy := q.groupBy.map fun g =>
    ⟨g.columns.map fun c => ⟨c.tableId.map f, c.columnName⟩, g.having.map (FilterNode.mapTables f)⟩
  orderBy := q.orderBy.map fun os => os.map fun o => { o with tableId := o.tableId.map f }
  limit := q.limit
  offset := q.offset.filter (· ≠ 0)
  distinct := q.distinct
  ctes := none
  unions := none

mutual

/-- A query with the places of its tables for their ids, here and in the queries inside it, so that
queries that differ in their ids only become the same. -/
def withoutIds : Query → Query
  | q@⟨_, _, _, _, _, _, _, _, _, _, _, ctes, unions⟩ =>
    { q.own (position q.tables) with
      ctes := withoutIdsTables ctes
      unions := withoutIdsBranches unions }

def withoutIdsTables : Option (List (CommonTable Query)) → Option (List (CommonTable Query))
  | none => none
  | some cs => some (withoutIdsEach cs)

def withoutIdsEach : List (CommonTable Query) → List (CommonTable Query)
  | [] => []
  | ⟨name, query, recursive⟩ :: cs => ⟨name, query.withoutIds, recursive⟩ :: withoutIdsEach cs

def withoutIdsBranches : Option (List (SetBranch Query)) → Option (List (SetBranch Query))
  | none => none
  | some us => some (withoutIdsAll us)

def withoutIdsAll : List (SetBranch Query) → List (SetBranch Query)
  | [] => []
  | ⟨kind, query⟩ :: us => ⟨kind, query.withoutIds⟩ :: withoutIdsAll us

end

end Query

end SqlCanvas
