import SqlCanvas.IdSource
import SqlCanvas.Statement.Filter

/-!
# Reading a single SELECT

One `SELECT` without set operations: the table behind `FROM`, the joins up to the first trailing
clause, the selected columns, and the trailing clauses. Tables and joins get ids from a source; ids
once taken stay taken even when reading fails afterwards.
-/

namespace SqlCanvas

open Text Pattern

/-- Reading with a source of ids, whose state outlives an error. -/
abbrev Reading (σ α : Type) := ExceptT ReadError (StateM σ) α

namespace Reading

def nextId {σ : Type} (ids : IdSource σ) (stem : String) : Reading σ String :=
  fun s => let (id, s) := ids.next stem s; (.ok id, s)

def ofExcept {σ α : Type} (x : Except ReadError α) : Reading σ α :=
  fun s => (x, s)

end Reading

namespace Select

def optionalString (t : Option Text) : Option String :=
  t.map String.ofList

/-- A table behind `FROM`: its name under 1, its alias under 2. -/
def fromTable : Pattern :=
  .all [.boundary, word "FROM", blank, .capture 1 identifier, tableAlias 2]

def joinKinds : List Pattern :=
  [["LEFT", "OUTER"], ["LEFT", "ANTI"], ["LEFT", "SEMI"], ["RIGHT", "OUTER"], ["RIGHT", "ANTI"],
    ["RIGHT", "SEMI"], ["FULL", "OUTER"], ["INNER"], ["LEFT"], ["RIGHT"], ["FULL"], ["CROSS"],
    ["NATURAL"], ["SELF"]].map phrase

/-- A joined table: the kind of join under 1, the name under 2, the alias under 3. -/
def joinTable : Pattern :=
  .all [.maybe (.all [.boundary, .capture 1 (.oneOf joinKinds), blank]), .boundary, word "JOIN",
    blank, .capture 2 identifier, tableAlias 3]

def onClause : Pattern :=
  .all [.textStart, blanks, word "ON", blank, .capture 1 (.many anything), .textEnd]

/-- A comparison of two qualified columns, in five parts. -/
def joinPredicate : Pattern :=
  .all [.textStart, .capture 1 name, .exactly '.', .capture 2 name, blanks,
    .capture 3 (.oneOf (Filter.signs.map Filter.sign)), blanks,
    .capture 4 name, .exactly '.', .capture 5 name, .textEnd]

/-- A comparison in an `ON` clause with the tables of its sides, where they are known. -/
structure OnPredicate where
  left : Option String
  leftColumn : String
  operator : Comparison
  right : Option String
  rightColumn : String

namespace OnPredicate

def read? (lookup : Lookup) (t : Text) : Option OnPredicate := do
  let m ← joinPredicate.match? t.stripParens
  let operator ← Filter.comparison? (String.ofList (m.captured 3))
  return {
    left := lookup.find? (m.captured 1)
    leftColumn := String.ofList (m.captured 2)
    operator := operator
    right := lookup.find? (m.captured 4)
    rightColumn := String.ofList (m.captured 5) }

def swapped (p : OnPredicate) : OnPredicate where
  left := p.right
  leftColumn := p.rightColumn
  operator := p.operator.mirrored
  right := p.left
  rightColumn := p.leftColumn

/-- Turns a predicate that reads from the joined table to another one the other way round. -/
def oriented (p : OnPredicate) (joined : String) : OnPredicate :=
  if p.left = some joined ∧ p.right.isSome ∧ p.right ≠ some joined then p.swapped else p

def toCondition (p : OnPredicate) : JoinCondition where
  fromColumn := p.leftColumn
  toColumn := p.rightColumn
  operator := p.operator

end OnPredicate

/-- The table a join reads from: the left side of the first predicate that has one, where an unknown
left side stands for the anchor. -/
def sourceTable (anchor : Option String) : List OnPredicate → Option String
  | [] => none
  | p :: ps => ((nonempty? p.left).or anchor).or (sourceTable anchor ps)

def readOn (scope : Scope) (joined : String) (segment : Text) :
    List JoinCondition × Option String :=
  match onClause.match? segment with
  | none => ([], scope.anchor)
  | some m =>
    let parts := Filter.splitAnd (m.captured 1).stripParens
    let predicates := (parts.filterMap (OnPredicate.read? scope.lookup)).map (·.oriented joined)
    (predicates.map (·.toCondition),
      (nonempty? (sourceTable scope.anchor predicates)).or scope.anchor)

/-- Each joined table with the text up to the next one. -/
def joinSegments (t : Text) (stop : Nat) : List Occurrence → List (Occurrence × Text)
  | [] => []
  | [o] => [(o, t.slice o.stop stop)]
  | o :: next :: os => (o, t.slice o.stop next.start) :: joinSegments t stop (next :: os)

def newTable (id : String) (name : Text) (aliasName : Option Text) : TableRef where
  id := id
  name := String.ofList name
  aliasName := optionalString aliasName
  selectedColumns := []

/-- The tables and joins of a statement, and what its names stand for. -/
structure Sources where
  tables : List TableRef
  joins : List Join
  scope : Scope

variable {σ : Type} (ids : IdSource σ)

def readTable (sources : Sources) (name : Text) (aliasName : Option Text) :
    Reading σ (String × Sources) := do
  let id ← Reading.nextId ids "table"
  let lookup := sources.scope.lookup.register name aliasName id
  return (id, { sources with
    tables := sources.tables ++ [newTable id name aliasName]
    scope := { sources.scope with lookup := lookup } })

def readJoin (sources : Sources) (o : Occurrence) (segment : Text) : Reading σ Sources := do
  let (table, sources) ← readTable ids sources (o.captured 2) (o.capture? 3)
  let (conditions, source) := readOn sources.scope table segment
  let id ← Reading.nextId ids "join"
  let kind ← Reading.ofExcept <|
    match o.capture? 1 with
    | some keyword => readKeyword "Join" "join_type" keyword
    | none => .ok .inner
  let join : Join := {
    id := id
    fromTableId := source.getD ""
    toTableId := table
    kind := kind
    conditions := conditions }
  return { sources with joins := sources.joins ++ [join] }

def readJoins (sources : Sources) : List (Occurrence × Text) → Reading σ Sources
  | [] => return sources
  | (o, segment) :: segments => do
    let sources ← readJoin ids sources o segment
    readJoins sources segments

def readAnchor (o : Option Occurrence) : Reading σ Sources :=
  match o with
  | none => return ⟨[], [], .empty⟩
  | some o => do
    let (id, sources) ← readTable ids ⟨[], [], .empty⟩ (o.captured 1) (o.capture? 2)
    return { sources with scope := { sources.scope with anchor := some id } }

/-- `SELECT`, with `DISTINCT` under 1. -/
def selectHead : Pattern :=
  .all [.textStart, blanks, word "SELECT", blank,
    .maybe (.capture 1 (.seq (word "DISTINCT") blank))]

/-- Qualifier, column and alias under 1, 2 and 3. -/
def qualifiedItem : Pattern :=
  .all [.textStart, .capture 1 name, .exactly '.', .capture 2 name, columnAlias 3, .textEnd]

/-- Column and alias under 1 and 2. -/
def bareItem : Pattern :=
  .all [.textStart, .capture 1 name, columnAlias 2, .textEnd]

/-- Function, `DISTINCT`, qualifier, column and alias under 1 to 5. -/
def aggregateItem : Pattern :=
  .all [.textStart, .capture 1 (.oneOf (["COUNT", "SUM", "AVG", "MIN", "MAX"].map word)), blanks,
    .exactly '(', blanks, .maybe (.capture 2 (.seq (word "DISTINCT") blank)),
    .maybe (.seq (.capture 3 name) (.exactly '.')), .capture 4 name, blanks, .exactly ')',
    columnAlias 5, .textEnd]

/-- Expression and alias under 1 and 2. -/
def aliasedItem : Pattern :=
  .all [.textStart, .capture 1 (.few anything), blank, word "AS", blank, .capture 2 name, .textEnd]

/-- Whether an aggregate call can be held in the model: only `COUNT` has a distinct form. -/
def isModelled (m : Match) : Bool :=
  (m.capture? 2).isNone || canonicalKeyword (m.captured 1) == "COUNT"

def readAggregate (scope : Scope) (m : Match) : Except ReadError SelectedColumn := do
  let aggregate ←
    if (m.capture? 2).isSome then .ok .countDistinct
    else readKeyword "SelectedColumn" "aggregate_function" (m.captured 1)
  let table :=
    match m.capture? 3 with
    | some qualifier => scope.table qualifier
    | none => scope.anchor
  return {
    tableId := table.getD ""
    columnName := String.ofList (m.captured 4)
    aliasName := optionalString (m.capture? 5)
    aggregate := some aggregate
    expression := none }

/-- An item that is neither a column nor an aggregate call, kept as it is written. -/
def expressionColumn (scope : Scope) (item : Text) : SelectedColumn :=
  let (expression, aliasName) :=
    match aliasedItem.match? item with
    | some m => (m.captured 1, m.capture? 2)
    | none => (item, none)
  { tableId := scope.anchor.getD ""
    columnName := String.ofList (aliasName.getD expression)
    aliasName := optionalString aliasName
    aggregate := none
    expression := some (String.ofList expression) }

def readColumn (scope : Scope) (item : Text) : Except ReadError SelectedColumn :=
  match qualifiedItem.match? item with
  | some m =>
    .ok {
      tableId := (scope.table (m.captured 1)).getD ""
      columnName := String.ofList (m.captured 2)
      aliasName := optionalString (m.capture? 3)
      aggregate := none
      expression := none }
  | none =>
    match bareItem.match? item with
    | some m =>
      .ok {
        tableId := scope.anchor.getD ""
        columnName := String.ofList (m.captured 1)
        aliasName := optionalString (m.capture? 2)
        aggregate := none
        expression := none }
    | none =>
      match aggregateItem.match? item with
      | some m =>
        if isModelled m then readAggregate scope m else .ok (expressionColumn scope item)
      | none => .ok (expressionColumn scope item)

/-- The aliases of the selected columns, in lower case. -/
def aliasesOf (columns : List SelectedColumn) : List Text :=
  columns.filterMap fun c => (nonempty? c.aliasName).map fun a => lower a.toList

/-- The keyword of a trailing clause under 1. -/
def clauseKeyword : Pattern :=
  .all [.boundary,
    .capture 1 (.oneOf ([["WHERE"], ["GROUP", "BY"], ["HAVING"], ["ORDER", "BY"], ["LIMIT"],
      ["OFFSET"], ["FETCH"]].map phrase)),
    .boundary]

/-- The trailing clauses by keyword, and where the first of them starts. Each goes up to the next
keyword. -/
structure Clauses where
  bodies : List (String × Text)
  start : Nat

def clauseBodies (t : Text) : List Occurrence → List (String × Text)
  | [] => []
  | [o] => [(canonicalKeyword (o.captured 1), trim (t.drop o.stop))]
  | o :: next :: os =>
    (canonicalKeyword (o.captured 1), (t.slice o.stop next.start).trim) ::
      clauseBodies t (next :: os)

def splitClauses (t : Text) (start : Nat) : Clauses :=
  let found := t.topLevelIn clauseKeyword start t.length
  ⟨clauseBodies t found, (found.head?.map (·.start)).getD t.length⟩

def Clauses.body? (c : Clauses) (keyword : String) : Option Text :=
  (c.bodies.find? (·.1 == keyword)).map (·.2)

def readFilter? (scope : Scope) : Option Text → Except ReadError (Option FilterGroup)
  | none => .ok none
  | some t => do return some (← Filter.read scope t)

def groupColumn (scope : Scope) (aliases : List Text) (item : Text) : GroupColumn :=
  let (table, column) := scope.resolve aliases item
  ⟨table, String.ofList column⟩

def groupColumns (scope : Scope) (aliases : List Text) (t : Text) : List GroupColumn :=
  t.splitCommas.map (groupColumn scope aliases)

/-- There is a grouping where `GROUP BY` or `HAVING` is. -/
def grouping (columns : Option (List GroupColumn)) (having : Option FilterGroup) :
    Option GroupClause :=
  if columns.isSome || having.isSome then some ⟨columns.getD [], having.map (·.toNode)⟩ else none

/-- Reference and direction under 1 and 2. -/
def orderItem : Pattern :=
  .all [.textStart, .capture 1 (.few1 fun c => !isBlank c),
    .maybe (.seq blank (.capture 2 (.oneOf [word "ASC", word "DESC"]))),
    .maybe (.all [blank, word "NULLS", blank, .oneOf [word "FIRST", word "LAST"]]), .textEnd]

def readOrderItem? (scope : Scope) (aliases : List Text) (item : Text) : Option OrderItem := do
  let m ← orderItem.match? item
  let direction ←
    match m.capture? 2 with
    | some keyword => Vocabulary.read? (canonicalKeyword keyword)
    | none => some .ascending
  let (table, column) := scope.resolve aliases (m.captured 1)
  return ⟨table, String.ofList column, direction⟩

def orderItems (scope : Scope) (aliases : List Text) (t : Text) : List OrderItem :=
  t.splitCommas.filterMap (readOrderItem? scope aliases)

/-- One number, or two with a comma between them, under 1 and 2. -/
def limitNumbers : Pattern :=
  .all [.textStart, .capture 1 digits,
    .maybe (.all [blanks, .exactly ',', blanks, .capture 2 digits])]

def offsetNumber : Pattern :=
  .all [.textStart, .capture 1 digits]

def fetchNumber : Pattern :=
  .all [.textStart, .oneOf [word "NEXT", word "FIRST"], blank, .capture 1 digits]

structure RowLimits where
  limit : Option Nat
  offset : Option Nat

/-- With two numbers behind `LIMIT` the first one is the offset. -/
def readLimit (t : Text) : Except ReadError RowLimits :=
  match limitNumbers.match? t with
  | none => .ok ⟨none, none⟩
  | some m =>
    match m.capture? 2 with
    | some count => do
      let offset ← readWhole (m.captured 1)
      let limit ← readWhole count
      return ⟨some limit, some offset⟩
    | none => do
      let limit ← readWhole (m.captured 1)
      return ⟨some limit, none⟩

/-- The number a pattern marks at the start of a text. -/
def readNumber? (p : Pattern) (t : Text) : Except ReadError (Option Nat) :=
  match p.match? t with
  | none => .ok none
  | some m => do return some (← readWhole (m.captured 1))

/-- `OFFSET` overrides the offset in `LIMIT`; `FETCH` counts where there is no `LIMIT`. -/
def readRowLimits (clauses : Clauses) : Except ReadError RowLimits := do
  let limits ← readLimit ((clauses.body? "LIMIT").getD [])
  let offset ← readNumber? offsetNumber ((clauses.body? "OFFSET").getD [])
  let limits := { limits with offset := offset.or limits.offset }
  match limits.limit with
  | some _ => return limits
  | none =>
    let limit ← readNumber? fetchNumber ((clauses.body? "FETCH").getD [])
    return { limits with limit := limit }

/-- The text between `SELECT` and `FROM`, when both are there. -/
def columnsText? (t : Text) (head : Option Match) (anchor : Option Occurrence) : Option Text := do
  let head ← head
  let anchor ← anchor
  return (t.slice head.stop anchor.start).trim

/-- Everything but tables and joins, once these are known. -/
def readRest (t : Text) (anchor : Option Occurrence) (clauses : Clauses) (sources : Sources) :
    Except ReadError Query := do
  let scope := sources.scope
  let head := selectHead.match? t
  let columnsText := columnsText? t head anchor
  let isStar := columnsText == some ['*']
  let columns ←
    match columnsText with
    | some text => if isStar then .ok [] else text.splitCommas.mapM (readColumn scope)
    | none => .ok []
  let aliases := aliasesOf columns
  let tables :=
    if isStar then sources.tables.map fun table => { table with selectedColumns := ["*"] }
    else sources.tables
  let filters ← readFilter? scope (clauses.body? "WHERE")
  let groupBy := (clauses.body? "GROUP BY").map (groupColumns scope aliases)
  let having ← readFilter? scope (clauses.body? "HAVING")
  let orderBy := (clauses.body? "ORDER BY").map (orderItems scope aliases)
  let limits ← readRowLimits clauses
  return {
    Query.empty with
    tables := tables
    joins := sources.joins
    selectedColumns := columns
    filters := filters
    groupBy := grouping groupBy having
    orderBy := orderBy
    limit := limits.limit
    offset := limits.offset
    distinct := (head.bind (·.capture? 1)).isSome }

/-- Reads a `SELECT` that has no set operations at its top level. -/
def read (t : Text) : Reading σ Query := do
  let anchor := t.findTopLevel? fromTable
  let bodyStart := (anchor.map (·.stop)).getD 0
  let clauses := splitClauses t bodyStart
  let joinOccurrences := t.topLevelIn joinTable bodyStart clauses.start
  let sources ← readAnchor ids anchor
  let sources ← readJoins ids sources (joinSegments t clauses.start joinOccurrences)
  Reading.ofExcept (readRest t anchor clauses sources)

end Select

end SqlCanvas
