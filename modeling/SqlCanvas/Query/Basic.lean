import SqlCanvas.Datum
import SqlCanvas.Query.Vocabulary

/-!
# Queries

The model behind a query canvas. Tables carry ids, and everything else refers to a table by its id;
nothing in the types keeps such a reference from dangling. A query may hold further queries: the
named tables of a `WITH` clause and the branches of set operations.
-/

namespace SqlCanvas

structure TableRef where
  id : String
  name : String
  aliasName : Option String
  /-- The columns an editor shows as ticked; `*` for all. -/
  selectedColumns : List String

/-- A string unless it is absent or empty. -/
def nonempty? : Option String → Option String
  | some s => if s = "" then none else some s
  | none => none

/-- The qualifier of this table's columns: its alias if it has one, else its name. -/
def TableRef.reference (t : TableRef) : String :=
  (nonempty? t.aliasName).getD t.name

structure JoinCondition where
  fromColumn : String
  toColumn : String
  operator : Comparison

structure Join where
  id : String
  fromTableId : String
  toTableId : String
  kind : JoinKind
  conditions : List JoinCondition

/-- What a condition compares with: one value, or a list of values. -/
inductive FilterValue where
  | scalar (value : Scalar)
  | list (values : List Scalar)
  deriving DecidableEq

namespace FilterValue

def null : FilterValue := .scalar .null

def string (s : String) : FilterValue := .scalar (.string s)

def toDatum : FilterValue → Datum
  | .scalar x => .scalar x
  | .list xs => .list (xs.map .scalar)

end FilterValue

/-- A predicate on one column. Without a table the column is written unqualified. -/
structure FilterCondition where
  tableId : Option String
  column : String
  operator : FilterOperator
  value : FilterValue
  /-- The upper end of a range. -/
  value2 : Scalar
  deriving DecidableEq

inductive FilterNode where
  | condition (c : FilterCondition)
  | group (operator : Connective) (children : List FilterNode)

structure FilterGroup where
  operator : Connective
  children : List FilterNode

def FilterGroup.toNode (g : FilterGroup) : FilterNode :=
  .group g.operator g.children

namespace FilterNode

mutual

/-- The conditions of a tree, from left to right. -/
def conditions : FilterNode → List FilterCondition
  | .condition c => [c]
  | .group _ children => conditionsAll children

def conditionsAll : List FilterNode → List FilterCondition
  | [] => []
  | n :: ns => n.conditions ++ conditionsAll ns

end

end FilterNode

structure SelectedColumn where
  tableId : String
  columnName : String
  aliasName : Option String
  aggregate : Option Aggregate
  /-- Text that stands for the column as it is. -/
  expression : Option String

structure GroupColumn where
  tableId : Option String
  columnName : String

structure GroupClause where
  columns : List GroupColumn
  having : Option FilterNode

structure OrderItem where
  tableId : Option String
  columnName : String
  direction : Direction

structure CommonTable (Q : Type) where
  name : String
  query : Q
  recursive : Bool

/-- A further operand of a set operation. -/
structure SetBranch (Q : Type) where
  kind : SetOperation
  query : Q

structure Query where
  name : Option String
  description : Option String
  tables : List TableRef
  joins : List Join
  selectedColumns : List SelectedColumn
  filters : Option FilterGroup
  groupBy : Option GroupClause
  orderBy : Option (List OrderItem)
  limit : Option Nat
  offset : Option Nat
  distinct : Bool
  ctes : Option (List (CommonTable Query))
  unions : Option (List (SetBranch Query))

def Query.empty : Query where
  name := none
  description := none
  tables := []
  joins := []
  selectedColumns := []
  filters := none
  groupBy := none
  orderBy := none
  limit := none
  offset := none
  distinct := false
  ctes := none
  unions := none

/-- The table with a given id; of several, the last. -/
def findTable? (tables : List TableRef) (id : String) : Option TableRef :=
  tables.reverse.find? (·.id == id)

def findTableOf? (tables : List TableRef) (id : Option String) : Option TableRef :=
  id.bind (findTable? tables)

theorem findTable?_isSome_iff {tables : List TableRef} {id : String} :
    (findTable? tables id).isSome ↔ ∃ t ∈ tables, t.id = id := by
  simp [findTable?, List.find?_isSome]

end SqlCanvas
