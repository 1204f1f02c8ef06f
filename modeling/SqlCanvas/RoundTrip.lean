import SqlCanvas.Equivalence.Difference
import SqlCanvas.Query.Finding
import SqlCanvas.Query.Sql
import SqlCanvas.Statement.Read

/-!
# Round trips

A text is lossless when it can be read into a query, written again, and the result is equivalent to
the text. Statements other than `SELECT` and queries without a table are reported before anything is
written. A nested query without a table makes the whole trip fail.
-/

namespace SqlCanvas

inductive TripError where
  | reading (e : ReadError)
  | writing (e : GenerationError)
  deriving DecidableEq

def TripError.message : TripError → String
  | .reading e => e.message
  | .writing e => e.message

inductive TripRemark where
  | notReconstructed (kind : StatementKind)
  | noTable
  | finding (f : Finding)
  deriving DecidableEq

def TripRemark.message : TripRemark → String
  | .notReconstructed kind =>
    Vocabulary.spelling kind ++ " statements are not reconstructed into the IR"
  | .noTable => "No FROM table could be extracted"
  | .finding f => f.message

structure TripReport where
  lossless : Bool
  regenerated : Option String
  differences : List Equivalence.Difference
  remarks : List TripRemark

namespace TripReport

def refused (remark : TripRemark) : TripReport :=
  ⟨false, none, [], [remark]⟩

/-- The report on a text and what was written for its query. -/
def compared (d : Dialect) (sql : String) (q : Query) (regenerated : String) : TripReport :=
  let differences := Equivalence.differences d sql.toList regenerated.toList
  ⟨differences.isEmpty && q.isValid, some regenerated, differences, q.findings.map .finding⟩

end TripReport

def checkRoundTrip (sql : String) (d : Dialect) : Except TripError TripReport :=
  match ((Statement.read IdSource.shared sql.toList).run 1).1 with
  | .error e => .error (.reading e)
  | .ok statement =>
    if statement.kind ≠ .select then .ok (.refused (.notReconstructed statement.kind))
    else if statement.query.tables.isEmpty then .ok (.refused .noTable)
    else
      match statement.query.sql d with
      | .error e => .error (.writing e)
      | .ok regenerated => .ok (.compared d sql statement.query regenerated)

end SqlCanvas
