import SqlCanvas.Query.Basic
import SqlCanvas.Statement.Basic

/-!
# Models as documents

The document of a model: one record for each structure, with all fields present and absent values
null. Dates and times become strings, with `Z` for a time at UTC. A nested query is written with the
fields of a query only.
-/

namespace SqlCanvas

namespace Datum

def spelled {α : Type} [Vocabulary α] (a : α) : Datum :=
  string (Vocabulary.spelling a)

def optionalString : Option String → Datum :=
  option string

def optionalNat : Option Nat → Datum :=
  option fun n => int n

def listOf {α : Type} (write : α → Datum) (xs : List α) : Datum :=
  .list (xs.map write)

end Datum

open Datum

def Scalar.dump : Scalar → Datum
  | .date d => Datum.string (String.ofList d.iso)
  | .moment m => Datum.string (String.ofList m.isoUtc)
  | .clock c => Datum.string (String.ofList c.isoUtc)
  | x => .scalar x

def FilterValue.dump : FilterValue → Datum
  | .scalar x => x.dump
  | .list xs => listOf Scalar.dump xs

def TableRef.dump (t : TableRef) : Datum :=
  .record [("id", string t.id), ("name", string t.name), ("alias", optionalString t.aliasName),
    ("selectedColumns", strings t.selectedColumns)]

def JoinCondition.dump (c : JoinCondition) : Datum :=
  .record [("fromColumn", string c.fromColumn), ("toColumn", string c.toColumn),
    ("operator", spelled c.operator)]

def Join.dump (j : Join) : Datum :=
  .record [("id", string j.id), ("fromTableId", string j.fromTableId),
    ("toTableId", string j.toTableId), ("joinType", spelled j.kind),
    ("conditions", listOf JoinCondition.dump j.conditions)]

def FilterCondition.dump (c : FilterCondition) : Datum :=
  .record [("kind", string "condition"), ("tableId", optionalString c.tableId),
    ("column", string c.column), ("operator", spelled c.operator), ("value", c.value.dump),
    ("value2", c.value2.dump)]

def groupRecord (operator : Connective) (children : List Datum) : Datum :=
  .record [("kind", string "group"), ("operator", spelled operator), ("children", .list children)]

namespace FilterNode

mutual

def dump : FilterNode → Datum
  | .condition c => c.dump
  | .group operator children => groupRecord operator (dumpAll children)

def dumpAll : List FilterNode → List Datum
  | [] => []
  | n :: ns => n.dump :: dumpAll ns

end

end FilterNode

def FilterGroup.dump (g : FilterGroup) : Datum :=
  g.toNode.dump

def SelectedColumn.dump (c : SelectedColumn) : Datum :=
  .record [("tableId", string c.tableId), ("columnName", string c.columnName),
    ("alias", optionalString c.aliasName), ("aggregateFunction", option spelled c.aggregate),
    ("expression", optionalString c.expression)]

def GroupColumn.dump (c : GroupColumn) : Datum :=
  .record [("tableId", optionalString c.tableId), ("columnName", string c.columnName)]

def GroupClause.dump (g : GroupClause) : Datum :=
  .record [("columns", listOf GroupColumn.dump g.columns),
    ("having", option FilterNode.dump g.having)]

def OrderItem.dump (o : OrderItem) : Datum :=
  .record [("tableId", optionalString o.tableId), ("columnName", string o.columnName),
    ("direction", spelled o.direction)]

namespace Query

def commonTableRecord (name : String) (query : Datum) (recursive : Bool) : Datum :=
  .record [("name", string name), ("query", query), ("recursive", bool recursive)]

def branchRecord (kind : SetOperation) (query : Datum) : Datum :=
  .record [("kind", spelled kind), ("query", query)]

/-- The fields of a query, given the documents of its nested queries. -/
def fieldsWith (q : Query) (ctes unions : Datum) : List (String × Datum) :=
  [("name", optionalString q.name), ("description", optionalString q.description),
    ("tables", listOf TableRef.dump q.tables), ("joins", listOf Join.dump q.joins),
    ("selectedColumns", listOf SelectedColumn.dump q.selectedColumns),
    ("filters", option FilterGroup.dump q.filters),
    ("groupBy", option GroupClause.dump q.groupBy),
    ("orderBy", option (listOf OrderItem.dump) q.orderBy),
    ("limit", optionalNat q.limit), ("offset", optionalNat q.offset),
    ("distinct", bool q.distinct), ("ctes", ctes), ("unions", unions)]

mutual

def fields : Query → List (String × Datum)
  | q@⟨_, _, _, _, _, _, _, _, _, _, _, ctes, unions⟩ =>
    q.fieldsWith (dumpTables? ctes) (dumpBranches? unions)

def dumpTables? : Option (List (CommonTable Query)) → Datum
  | none => .null
  | some ctes => .list (dumpTables ctes)

def dumpTables : List (CommonTable Query) → List Datum
  | [] => []
  | ⟨name, query, recursive⟩ :: ctes =>
    commonTableRecord name (.record query.fields) recursive :: dumpTables ctes

def dumpBranches? : Option (List (SetBranch Query)) → Datum
  | none => .null
  | some unions => .list (dumpBranches unions)

def dumpBranches : List (SetBranch Query) → List Datum
  | [] => []
  | ⟨kind, query⟩ :: branches => branchRecord kind (.record query.fields) :: dumpBranches branches

end

def dump (q : Query) : Datum :=
  .record q.fields

end Query

def CommonTable.dump (t : CommonTable Query) : Datum :=
  Query.commonTableRecord t.name t.query.dump t.recursive

def SetBranch.dump (b : SetBranch Query) : Datum :=
  Query.branchRecord b.kind b.query.dump

def InsertFragment.dump (f : InsertFragment) : Datum :=
  .record [("table", string f.table), ("columns", strings f.columns),
    ("values", listOf strings f.values)]

def Assignment.dump (a : Assignment) : Datum :=
  .record [("column", string a.column), ("value", string a.value)]

def UpdateFragment.dump (f : UpdateFragment) : Datum :=
  .record [("table", string f.table), ("sets", listOf Assignment.dump f.sets)]

def DeleteFragment.dump (f : DeleteFragment) : Datum :=
  .record [("table", string f.table)]

def CreateTableFragment.dump (f : CreateTableFragment) : Datum :=
  .record [("name", string f.name), ("temporary", bool f.temporary),
    ("ifNotExists", bool f.ifNotExists), ("columnDefinitions", strings f.columnDefinitions),
    ("columnsRaw", string f.columnsRaw)]

def AlterTableFragment.dump (f : AlterTableFragment) : Datum :=
  .record [("table", string f.table), ("action", string f.action),
    ("definition", string f.definition)]

def DropTableFragment.dump (f : DropTableFragment) : Datum :=
  .record [("table", string f.table), ("ifExists", bool f.ifExists), ("cascade", bool f.cascade)]

def TruncateFragment.dump (f : TruncateFragment) : Datum :=
  .record [("table", string f.table)]

def Statement.dump (s : Statement) : Datum :=
  .record <| s.query.fields ++
    [("statementType", spelled s.kind), ("insertInto", option InsertFragment.dump s.insertInto),
      ("updateTable", option UpdateFragment.dump s.updateTable),
      ("deleteFrom", option DeleteFragment.dump s.deleteFrom),
      ("createTable", option CreateTableFragment.dump s.createTable),
      ("alterTable", option AlterTableFragment.dump s.alterTable),
      ("dropTable", option DropTableFragment.dump s.dropTable),
      ("truncateTable", option TruncateFragment.dump s.truncateTable)]

end SqlCanvas
