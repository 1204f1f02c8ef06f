import SqlCanvas.Statement.Outline

/-!
# Lint

Remarks on SQL text that is not read into a model. Words are looked for in the whole text, in
literals and comments as well, so the lint depends on no more of the structure than the kind of
statement.
-/

namespace SqlCanvas

open Text Pattern

inductive Remark where
  | unknownKind
  | missingFrom
  | selectAll
  | noRowLimit
  /-- A change of all rows, by the keyword of the statement. -/
  | unfiltered (keyword : String)
  | insertWithoutSource
  | comments
  deriving DecidableEq

namespace Remark

/-- Errors make a text invalid, other remarks are warnings. -/
def isError : Remark → Bool
  | .unknownKind | .missingFrom | .insertWithoutSource => true
  | _ => false

def message : Remark → String
  | .unknownKind => "Unknown or unsupported SQL query type"
  | .missingFrom => "Missing FROM clause"
  | .selectAll =>
    "Using SELECT * may impact performance. Consider selecting specific columns."
  | .noRowLimit =>
    "Query does not have a LIMIT clause. This may return too many rows."
  | .unfiltered keyword =>
    keyword ++ " without WHERE clause will affect all rows. Use with caution."
  | .insertWithoutSource => "INSERT must have VALUES clause or SELECT statement"
  | .comments => "SQL contains comments which may indicate security issues"

end Remark

namespace Lint

/-- Whether one of the keywords is a word of the text. -/
def hasWord (keywords : List String) (t : Text) : Bool :=
  (Pattern.all [.boundary, .oneOf (keywords.map word), .boundary]).occursIn t

def selectStar : Pattern :=
  .all [.boundary, word "SELECT", blank, .maybe (.seq (word "DISTINCT") blank), .exactly '*']

def commentMarks : List String := ["--", "/*", "*/"]

def hasComment (t : Text) : Bool :=
  commentMarks.any fun mark => hasInfix mark.toList t

/-- The remarks of a condition that holds. -/
def remarkIf (holds : Bool) (r : Remark) : List Remark :=
  if holds then [r] else []

def kindRemarks (t : Text) : Option String → List Remark
  | none => [.unknownKind]
  | some "SELECT" =>
    remarkIf (!hasWord ["FROM"] t) .missingFrom ++
      remarkIf (selectStar.occursIn t) .selectAll ++
      remarkIf (!hasWord ["LIMIT", "TOP", "FETCH"] t) .noRowLimit
  | some "UPDATE" => remarkIf (!hasWord ["WHERE"] t) (.unfiltered "UPDATE")
  | some "DELETE" => remarkIf (!hasWord ["WHERE"] t) (.unfiltered "DELETE")
  | some "INSERT" => remarkIf (!hasWord ["VALUES", "SELECT"] t) .insertWithoutSource
  | some _ => []

def remarks (sql : Text) : List Remark :=
  let text := sql.trim
  kindRemarks text ((classify text).map String.ofList) ++ remarkIf (hasComment text) .comments

def errors (sql : Text) : List Remark :=
  (remarks sql).filter (·.isError)

def warnings (sql : Text) : List Remark :=
  (remarks sql).filter (!·.isError)

end Lint

end SqlCanvas
