import SqlCanvas.Query.Basic

/-!
# Defects of queries

What is wrong with a query before it is written: dangling references, which writing would leave out
without a word, and missing parts. Common tables and branches are examined like the query itself,
and their findings name the way to them.
-/

namespace SqlCanvas

inductive FilterClause where
  | where | having
  deriving DecidableEq

def FilterClause.keyword : FilterClause → String
  | .where => "WHERE"
  | .having => "HAVING"

inductive Finding where
  | noTables
  | duplicateTable (id : String)
  /-- Joins are counted from one. -/
  | joinSource (index : Nat)
  | joinTarget (index : Nat)
  | joinWithoutConditions (index : Nat)
  | filterTable (clause : FilterClause) (column tableId : String)
  | openRange (clause : FilterClause) (column : String) (operator : FilterOperator)
  | groupWithoutColumns
  | inCommonTable (name : String) (finding : Finding)
  /-- Branches are counted from one. -/
  | inBranch (kind : SetOperation) (index : Nat) (finding : Finding)
  deriving DecidableEq

def Finding.message : Finding → String
  | .noTables => "Query must have at least one table"
  | .duplicateTable id => "Duplicate table id '" ++ id ++ "'"
  | .joinSource index => "Join " ++ toString index ++ ": Source table not found"
  | .joinTarget index => "Join " ++ toString index ++ ": Target table not found"
  | .joinWithoutConditions index => "Join " ++ toString index ++ ": No join conditions specified"
  | .filterTable clause column tableId =>
    clause.keyword ++ " filter on '" ++ column ++ "': table '" ++ tableId ++ "' not found"
  | .openRange clause column operator =>
    clause.keyword ++ " filter on '" ++ column ++ "': " ++ Vocabulary.spelling operator ++
      " requires two values"
  | .groupWithoutColumns => "GROUP BY specified but no columns selected"
  | .inCommonTable name finding => "CTE '" ++ name ++ "': " ++ finding.message
  | .inBranch kind index finding =>
    Vocabulary.spelling kind ++ " " ++ toString index ++ ": " ++ finding.message

def isKnownTable (tables : List TableRef) (id : String) : Bool :=
  tables.any (·.id == id)

theorem isKnownTable_iff {tables : List TableRef} {id : String} :
    isKnownTable tables id = true ↔ ∃ t ∈ tables, t.id = id := by
  simp [isKnownTable]

/-- The ids that some earlier table has already, in order. -/
def repeatedIds (seen : List String) : List TableRef → List String
  | [] => []
  | t :: ts => (if t.id ∈ seen then [t.id] else []) ++ repeatedIds (t.id :: seen) ts

def Join.findings (j : Join) (tables : List TableRef) (index : Nat) : List Finding :=
  (if isKnownTable tables j.fromTableId then [] else [.joinSource index]) ++
    (if isKnownTable tables j.toTableId then [] else [.joinTarget index]) ++
    if j.conditions.isEmpty then [.joinWithoutConditions index] else []

/-- A range needs both its ends. -/
def FilterCondition.isOpenRange (c : FilterCondition) : Bool :=
  (c.operator = .between || c.operator = .notBetween) &&
    (c.value = .null || c.value2 = .null)

def FilterCondition.findings (c : FilterCondition) (tables : List TableRef)
    (clause : FilterClause) : List Finding :=
  match c.tableId.filter (!isKnownTable tables ·) with
  | some id => [.filterTable clause c.column id]
  | none => if c.isOpenRange then [.openRange clause c.column c.operator] else []

namespace FilterNode

mutual

def findings (tables : List TableRef) (clause : FilterClause) : FilterNode → List Finding
  | .condition c => c.findings tables clause
  | .group _ children => findingsAll tables clause children

def findingsAll (tables : List TableRef) (clause : FilterClause) : List FilterNode → List Finding
  | [] => []
  | n :: ns => n.findings tables clause ++ findingsAll tables clause ns

end

end FilterNode

def GroupClause.findings (g : GroupClause) (tables : List TableRef) : List Finding :=
  (if g.columns.isEmpty then [.groupWithoutColumns] else []) ++
    match g.having with
    | some node => node.findings tables .having
    | none => []

namespace Query

/-- The defects of a query by itself. -/
def ownFindings (q : Query) : List Finding :=
  (if q.tables.isEmpty then [.noTables] else []) ++
    (repeatedIds [] q.tables).map .duplicateTable ++
    (q.joins.mapIdx fun i j => j.findings q.tables (i + 1)).flatten ++
    (match q.filters with
      | some g => g.toNode.findings q.tables .where
      | none => []) ++
    match q.groupBy with
    | some g => g.findings q.tables
    | none => []

mutual

/-- All defects of a query, those of nested queries behind its own. -/
def findings : Query → List Finding
  | q@⟨_, _, _, _, _, _, _, _, _, _, _, ctes, unions⟩ =>
    q.ownFindings ++ optionalTableFindings ctes ++ optionalBranchFindings unions

def optionalTableFindings : Option (List (CommonTable Query)) → List Finding
  | none => []
  | some ctes => tableFindings ctes

def tableFindings : List (CommonTable Query) → List Finding
  | [] => []
  | ⟨name, query, _⟩ :: ctes => query.findings.map (.inCommonTable name) ++ tableFindings ctes

def optionalBranchFindings : Option (List (SetBranch Query)) → List Finding
  | none => []
  | some unions => branchFindings 1 unions

def branchFindings (index : Nat) : List (SetBranch Query) → List Finding
  | [] => []
  | ⟨kind, query⟩ :: branches =>
    query.findings.map (.inBranch kind index) ++ branchFindings (index + 1) branches

end

def isValid (q : Query) : Bool :=
  q.findings.isEmpty

end Query

end SqlCanvas
