import SqlCanvas.Statement.Change
import SqlCanvas.Statement.Outline
import SqlCanvas.Statement.Select

/-!
# Reading statements

A statement is read along its outline: first the queries of its `WITH` clause, then its own body,
then the branches of its set operations. Ids are asked for in this order.
-/

namespace SqlCanvas

open Text

namespace Statement

def importedName : String := "Imported SQL Query"

def describe (kind : StatementKind) : String :=
  "Imported " ++ Vocabulary.spelling kind ++ " query from SQL"

/-- The kind of a statement from its first keyword in capital letters. -/
def readKind (keyword : Text) : Except ReadError StatementKind :=
  match Vocabulary.read? (String.ofList keyword) with
  | some kind => .ok kind
  | none => .error (.unknownStatement (String.ofList keyword))

/-- A query with the parts that every statement has. -/
def complete (kind : StatementKind) (ctes : List (CommonTable Query))
    (branches : List (SetBranch Query)) (q : Query) : Query :=
  { q with
    name := some importedName
    description := some (describe kind)
    ctes := if ctes.isEmpty then none else some ctes
    unions := if branches.isEmpty then none else some branches }

variable {σ : Type} (ids : IdSource σ)

mutual

/-- Reads the statement that an outline stands for. -/
def ofOutline : Outline → Reading σ Statement
  | .mk tables recursive keyword body branches => do
    let ctes ← readTables recursive tables
    let kind ← Reading.ofExcept (readKind keyword)
    match kind with
    | .select => do
      let query ← Select.read ids body
      let unions ← readBranches branches
      return .ofQuery .select (complete .select ctes unions query)
    | kind => do
      let statement ← Reading.ofExcept (Change.read kind body)
      return { statement with query := complete kind ctes [] statement.query }

def readTables (recursive : Bool) : List (Text × Outline) → Reading σ (List (CommonTable Query))
  | [] => return []
  | (name, outline) :: tables => do
    let statement ← ofOutline outline
    let rest ← readTables recursive tables
    return ⟨String.ofList name, statement.query, recursive⟩ :: rest

def readBranches : List (Text × Outline) → Reading σ (List (SetBranch Query))
  | [] => return []
  | (keyword, outline) :: branches => do
    let statement ← ofOutline outline
    let kind ← Reading.ofExcept (readKeyword "UnionClause" "kind" keyword)
    let rest ← readBranches branches
    return ⟨kind, statement.query⟩ :: rest

end

/-- Reads one statement, taking ids from a source in a given state. -/
def read (sql : Text) : Reading σ Statement :=
  ofOutline ids (.of sql)

/-- Reads statements one after another from one source of ids. -/
def readAll : List Text → σ → List (Except ReadError Statement)
  | [], _ => []
  | sql :: rest, s =>
    let (result, s) := (read ids sql).run s
    result :: readAll rest s

/-- Reads one statement with ids that count from `start`. -/
def parse (sql : String) (start : Int) : Except ReadError Statement :=
  ((read IdSource.sequential sql.toList).run (.fresh start)).1

end Statement

end SqlCanvas
