import SqlCanvas.Query.Basic

/-!
# Statements

What reading one SQL statement gives: its kind, the query behind it, and, for statements other than
`SELECT`, a fragment with the table and the raw texts of columns, values or definitions.
-/

namespace SqlCanvas

structure InsertFragment where
  table : String
  columns : List String
  values : List (List String)

structure Assignment where
  column : String
  value : String

structure UpdateFragment where
  table : String
  sets : List Assignment

structure DeleteFragment where
  table : String

structure CreateTableFragment where
  name : String
  temporary : Bool
  ifNotExists : Bool
  columnDefinitions : List String
  columnsRaw : String

structure AlterTableFragment where
  table : String
  action : String
  definition : String

structure DropTableFragment where
  table : String
  ifExists : Bool
  cascade : Bool

structure TruncateFragment where
  table : String

structure Statement where
  query : Query
  kind : StatementKind
  insertInto : Option InsertFragment
  updateTable : Option UpdateFragment
  deleteFrom : Option DeleteFragment
  createTable : Option CreateTableFragment
  alterTable : Option AlterTableFragment
  dropTable : Option DropTableFragment
  truncateTable : Option TruncateFragment

def Statement.ofQuery (kind : StatementKind) (query : Query) : Statement where
  query := query
  kind := kind
  insertInto := none
  updateTable := none
  deleteFrom := none
  createTable := none
  alterTable := none
  dropTable := none
  truncateTable := none

end SqlCanvas
