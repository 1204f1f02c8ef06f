import SqlCanvas.Statement.Basic
import SqlCanvas.Statement.Filter

/-!
# Reading changes

Statements other than `SELECT` are read coarsely: the table and the raw texts of what they insert,
set or define. Only the filter of an update or a deletion is taken apart, without a table to stand
on.
-/

namespace SqlCanvas.Change

open Text Pattern

def strings (ts : List Text) : List String :=
  ts.map String.ofList

/-- Table, columns and rows under 1, 2 and 3. -/
def insertion : Pattern :=
  .all [.textStart, blanks, word "INSERT", blank, word "INTO", blank, .capture 1 identifier, blanks,
    .maybe (.all [.exactly '(', .capture 2 (.many (· != ')')), .exactly ')']), blanks,
    .maybe (.all [word "VALUES", blanks, .capture 3 (.many anything)])]

/-- Table, assignments and filter under 1, 2 and 3. -/
def update : Pattern :=
  .all [.textStart, blanks, word "UPDATE", blank, .capture 1 identifier, blank, word "SET", blank,
    .capture 2 (.few anything),
    .maybe (.all [blank, word "WHERE", blank, .capture 3 (.many anything)]), .textEnd]

/-- Table and filter under 1 and 2. -/
def deletion : Pattern :=
  .all [.textStart, blanks, word "DELETE", blank, word "FROM", blank, .capture 1 identifier,
    .maybe (.all [blank, word "WHERE", blank, .capture 2 (.many anything)]), .textEnd]

/-- The marks `TEMPORARY` and `IF NOT EXISTS`, table and columns under 1 to 4. -/
def creation : Pattern :=
  .all [.textStart, blanks, word "CREATE", blank,
    .maybe (.capture 1 (.all [word "TEMP", .maybe (word "ORARY"), blank])), word "TABLE", blank,
    .maybe (.capture 2 (.seq (phrase ["IF", "NOT", "EXISTS"]) blank)), .capture 3 identifier,
    blanks, .exactly '(', .capture 4 (.many anything), .exactly ')']

/-- Table, action and definition under 1, 2 and 3. -/
def alteration : Pattern :=
  .all [.textStart, blanks, word "ALTER", blank, word "TABLE", blank, .capture 1 identifier, blank,
    .capture 2 (.oneOf (["ADD", "DROP", "MODIFY", "RENAME", "ALTER"].map word)), .boundary, blanks,
    .capture 3 (.many anything), .textEnd]

/-- The mark `IF EXISTS`, table and the mark `CASCADE` under 1, 2 and 3. -/
def removal : Pattern :=
  .all [.textStart, blanks, word "DROP", blank, word "TABLE", blank,
    .maybe (.capture 1 (.seq (phrase ["IF", "EXISTS"]) blank)), .capture 2 identifier,
    .maybe (.capture 3 (.seq blank (word "CASCADE")))]

/-- The table under 1. -/
def truncation : Pattern :=
  .all [.textStart, blanks, word "TRUNCATE", blank, .maybe (.seq (word "TABLE") blank),
    .capture 1 identifier]

def readInsert? (t : Text) : Option InsertFragment := do
  let m ← insertion.match? t
  let rows := (m.captured 3).splitCommas.map fun row => strings row.stripParens.splitCommas
  return ⟨String.ofList (m.captured 1), strings (m.captured 2).splitCommas, rows⟩

def readAssignment? (t : Text) : Option Assignment := do
  let (column, value) ← cutAtFirst? '=' t
  return ⟨String.ofList column.trim, String.ofList value.trim⟩

/-- The filter behind `WHERE`, if it is there and not empty. -/
def readFilter? (t : Option Text) : Except ReadError (Option FilterGroup) :=
  match t with
  | some (c :: t) => do return some (← Filter.read .empty (c :: t))
  | _ => .ok none

def readUpdate (t : Text) : Except ReadError (Option UpdateFragment × Option FilterGroup) :=
  match update.match? t with
  | none => .ok (none, none)
  | some m => do
    let sets := (m.captured 2).splitCommas.filterMap readAssignment?
    let filter ← readFilter? (m.capture? 3)
    return (some ⟨String.ofList (m.captured 1), sets⟩, filter)

def readDelete (t : Text) : Except ReadError (Option DeleteFragment × Option FilterGroup) :=
  match deletion.match? t with
  | none => .ok (none, none)
  | some m => do
    let filter ← readFilter? (m.capture? 2)
    return (some ⟨String.ofList (m.captured 1)⟩, filter)

def readCreate? (t : Text) : Option CreateTableFragment := do
  let m ← creation.match? t
  return {
    name := String.ofList (m.captured 3)
    temporary := (m.capture? 1).isSome
    ifNotExists := (m.capture? 2).isSome
    columnDefinitions := strings (m.captured 4).splitCommas
    columnsRaw := String.ofList (m.captured 4).trim }

def readAlter? (t : Text) : Option AlterTableFragment := do
  let m ← alteration.match? t
  return ⟨String.ofList (m.captured 1), String.ofList (upper (m.captured 2)),
    String.ofList (m.captured 3).trim⟩

def readDrop? (t : Text) : Option DropTableFragment := do
  let m ← removal.match? t
  return ⟨String.ofList (m.captured 2), (m.capture? 1).isSome, (m.capture? 3).isSome⟩

def readTruncate? (t : Text) : Option TruncateFragment := do
  let m ← truncation.match? t
  return ⟨String.ofList (m.captured 1)⟩

/-- Reads the body of a statement that is not a `SELECT`. -/
def read (kind : StatementKind) (t : Text) : Except ReadError Statement :=
  let plain := Statement.ofQuery kind .empty
  match kind with
  | .select => .ok plain
  | .insert => .ok { plain with insertInto := readInsert? t }
  | .update => do
    let (fragment, filter) ← readUpdate t
    return { plain with updateTable := fragment, query := { Query.empty with filters := filter } }
  | .delete => do
    let (fragment, filter) ← readDelete t
    return { plain with deleteFrom := fragment, query := { Query.empty with filters := filter } }
  | .create => .ok { plain with createTable := readCreate? t }
  | .alter => .ok { plain with alterTable := readAlter? t }
  | .drop => .ok { plain with dropTable := readDrop? t }
  | .truncate => .ok { plain with truncateTable := readTruncate? t }

end SqlCanvas.Change
