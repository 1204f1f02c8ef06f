import SqlCanvas.Query.Predicate
import SqlCanvas.Dialect

/-!
# Queries as SQL

The text of a query, one clause to a line. A join or condition that refers to an unknown table is
left out, and so is a group in which nothing is left. Writing fails for want of a table and for a
whole number that is too long, here or in a nested query: common tables are written first, then the
lines of the query by itself, and branches last.
-/

namespace SqlCanvas

def commaList (items : List String) : String :=
  ", ".intercalate items

def withAlias (text : String) (aliasName : Option String) : String :=
  match nonempty? aliasName with
  | some a => text ++ " AS " ++ a
  | none => text

def TableRef.sql (t : TableRef) : String :=
  withAlias t.name t.aliasName

def TableRef.column (t : TableRef) (column : String) : String :=
  t.reference ++ "." ++ column

def Aggregate.sql (a : Aggregate) (argument : String) : String :=
  match a with
  | .countDistinct => "COUNT(DISTINCT " ++ argument ++ ")"
  | a => Vocabulary.spelling a ++ "(" ++ argument ++ ")"

namespace SelectedColumn

/-- The column without its alias: its expression, or the bare name where the table is unknown. -/
def bodySql (c : SelectedColumn) (tables : List TableRef) : String :=
  match nonempty? c.expression, findTable? tables c.tableId, c.aggregate with
  | some e, _, _ => e
  | none, none, _ => c.columnName
  | none, some t, none => t.column c.columnName
  | none, some t, some a => a.sql (t.column c.columnName)

def sql (c : SelectedColumn) (tables : List TableRef) : String :=
  withAlias (c.bodySql tables) c.aliasName

end SelectedColumn

def JoinCondition.sql (c : JoinCondition) (source target : TableRef) : String :=
  source.column c.fromColumn ++ " " ++ Vocabulary.spelling c.operator ++ " " ++
    target.column c.toColumn

/-- The line of a join, unless one of its tables is unknown. -/
def Join.sql? (j : Join) (tables : List TableRef) : Option String := do
  let source ← findTable? tables j.fromTableId
  let target ← findTable? tables j.toTableId
  let on :=
    if j.conditions.isEmpty then ""
    else " ON " ++ " AND ".intercalate (j.conditions.map (·.sql source target))
  return Vocabulary.spelling j.kind ++ " JOIN " ++ target.sql ++ on

/-- The column of a condition, unless its table is unknown. -/
def FilterCondition.columnSql? (c : FilterCondition) (tables : List TableRef) : Option String :=
  match c.tableId with
  | none => some c.column
  | some id => (findTable? tables id).map (·.column c.column)

def FilterCondition.sql? (c : FilterCondition) (tables : List TableRef) : Option String :=
  (c.columnSql? tables).map fun column =>
    String.ofList <|
      writePredicate c.operator.shape column.toList (Vocabulary.spelling c.operator).toList
        c.value.toDatum (.scalar c.value2)

/-- The whole numbers in the text of a condition; none where it is left out. -/
def FilterCondition.numerals (c : FilterCondition) (tables : List TableRef) : List Int :=
  if (c.columnSql? tables).isSome then
    predicateNumerals c.operator.shape c.value.toDatum (.scalar c.value2)
  else []

/-- The parts of a group, joined by its connective; nothing for no parts. -/
def joinParts? (operator : Connective) (parts : List String) : Option String :=
  if parts.isEmpty then none
  else some ((" " ++ Vocabulary.spelling operator ++ " ").intercalate parts)

namespace FilterNode

mutual

/-- The text of a node, unless all below it is left out. -/
def sql? (tables : List TableRef) : FilterNode → Option String
  | .condition c => c.sql? tables
  | .group operator children => joinParts? operator (partsSql tables children)

/-- The texts of the nodes that are not left out; groups stand in parentheses. -/
def partsSql (tables : List TableRef) : List FilterNode → List String
  | [] => []
  | .condition c :: nodes => (c.sql? tables).toList ++ partsSql tables nodes
  | .group operator children :: nodes =>
    ((joinParts? operator (partsSql tables children)).map fun s => "(" ++ s ++ ")").toList ++
      partsSql tables nodes

end

def numerals (tables : List TableRef) (n : FilterNode) : List Int :=
  n.conditions.flatMap (·.numerals tables)

end FilterNode

def FilterGroup.sql? (g : FilterGroup) (tables : List TableRef) : Option String :=
  g.toNode.sql? tables

/-- The text of a group, if there is one, unless a number in it is too long. -/
def FilterGroup.write (g : FilterGroup) (tables : List TableRef) :
    Except GenerationError (Option String) :=
  writing (g.toNode.numerals tables) (g.sql? tables)

/-- A column with its table's qualifier where the table is known. -/
def qualifiedColumn (tables : List TableRef) (tableId : Option String) (column : String) : String :=
  match findTableOf? tables tableId with
  | some t => t.column column
  | none => column

namespace GroupClause

def columnsSql (g : GroupClause) (tables : List TableRef) : String :=
  commaList (g.columns.map fun c => qualifiedColumn tables c.tableId c.columnName)

def havingSql? (g : GroupClause) (tables : List TableRef) : Option String :=
  g.having.bind (·.sql? tables)

def lines (g : GroupClause) (tables : List TableRef) : List String :=
  (if g.columns.isEmpty then [] else ["GROUP BY " ++ g.columnsSql tables]) ++
    ((g.havingSql? tables).map ("HAVING " ++ ·)).toList

end GroupClause

def OrderItem.sql (o : OrderItem) (tables : List TableRef) : String :=
  qualifiedColumn tables o.tableId o.columnName ++ " " ++ Vocabulary.spelling o.direction

namespace Query

def selectLine (q : Query) : String :=
  if q.selectedColumns.isEmpty then "SELECT *"
  else
    (if q.distinct then "SELECT DISTINCT " else "SELECT ") ++
      commaList (q.selectedColumns.map (·.sql q.tables))

def whereLine (q : Query) : List String :=
  ((q.filters.bind (·.sql? q.tables)).map ("WHERE " ++ ·)).toList

def groupLines (q : Query) : List String :=
  match q.groupBy with
  | some g => g.lines q.tables
  | none => []

def orderLine (q : Query) : List String :=
  match q.orderBy.getD [] with
  | [] => []
  | items => ["ORDER BY " ++ commaList (items.map (·.sql q.tables))]

def limitLine (q : Query) (d : Dialect) : List String :=
  match q.limit with
  | some limit => [d.pagination limit (q.offset.map Int.ofNat)]
  | none => []

/-- The filter trees of a query by itself, in the order in which they are written. -/
def filterTrees (q : Query) : List FilterNode :=
  (q.filters.map (·.toNode)).toList ++ (q.groupBy.bind (·.having)).toList

def limitNumerals (q : Query) (d : Dialect) : List Int :=
  match q.limit with
  | some limit => d.numerals limit (q.offset.map Int.ofNat)
  | none => []

/-- The whole numbers in the lines of a query by itself, in order. -/
def numerals (q : Query) (d : Dialect) : List Int :=
  q.filterTrees.flatMap (·.numerals q.tables) ++ q.limitNumerals d

/-- The lines of a query by itself, from `SELECT` to the limit of rows, given its first table. -/
def ownLines (q : Query) (d : Dialect) (anchor : TableRef) : List String :=
  [q.selectLine, "FROM " ++ anchor.sql] ++ q.joins.filterMap (·.sql? q.tables) ++ q.whereLine ++
    q.groupLines ++ q.orderLine ++ q.limitLine d

def withKeyword (ctes : List (CommonTable Query)) : String :=
  if ctes.any (·.recursive) then "WITH RECURSIVE " else "WITH "

def commonTableSql (name body : String) : String :=
  name ++ " AS (\n" ++ body ++ "\n)"

mutual

/-- The SQL text of a query in a dialect. -/
def sql (d : Dialect) : Query → Except GenerationError String
  | q@⟨_, _, tables, _, _, _, _, _, _, _, _, ctes, unions⟩ =>
    match tables with
    | [] => .error .noTables
    | anchor :: _ => do
      let withLine ← optionalTables d ctes
      let ownLines ← writing (q.numerals d) (q.ownLines d anchor)
      let branchLines ← optionalBranches d unions
      return "\n".intercalate (withLine ++ ownLines ++ branchLines)

def optionalTables (d : Dialect) :
    Option (List (CommonTable Query)) → Except GenerationError (List String)
  | none => .ok []
  | some ctes => do
    let bodies ← tablesSql d ctes
    return if bodies.isEmpty then [] else [withKeyword ctes ++ ",\n".intercalate bodies]

def tablesSql (d : Dialect) : List (CommonTable Query) → Except GenerationError (List String)
  | [] => .ok []
  | ⟨name, query, _⟩ :: ctes => do
    let body ← query.sql d
    return commonTableSql name body :: (← tablesSql d ctes)

def optionalBranches (d : Dialect) :
    Option (List (SetBranch Query)) → Except GenerationError (List String)
  | none => .ok []
  | some unions => branchesSql d unions

def branchesSql (d : Dialect) : List (SetBranch Query) → Except GenerationError (List String)
  | [] => .ok []
  | ⟨kind, query⟩ :: branches => do
    let body ← query.sql d
    return Vocabulary.spelling kind :: body :: (← branchesSql d branches)

end

end Query

end SqlCanvas
