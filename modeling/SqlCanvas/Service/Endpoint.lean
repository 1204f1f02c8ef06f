import SqlCanvas.Document.Dump
import SqlCanvas.Document.Load
import SqlCanvas.Lint
import SqlCanvas.RoundTrip
import SqlCanvas.Service.Settings

/-!
# Endpoints

The requests a service answers. A request is a document; one that has not the form an endpoint asks
for is refused with its faults, one that asks for something impossible is refused with a status and
one line of detail. Failures of reading or writing SQL are part of a successful answer, except for
round trips.
-/

namespace SqlCanvas

open Check

inductive Reply where
  | answer (body : Datum)
  /-- The request has not the form asked for. -/
  | malformed (faults : List Fault)
  | refused (status : Nat) (detail : String)

namespace Service

def requireSql (sql : String) : Except Reply Unit :=
  if (Text.trim sql.toList).isEmpty then .error (.refused 400 "SQL query is required") else .ok ()

/-- The dialect a request names, or the default where it names none. Case does not matter. -/
def resolveDialect (settings : Settings) (name : Option String) : Except Reply Dialect :=
  let wanted := (nonempty? name).getD settings.defaultDialect
  match Dialect.ofName? (String.ofList (Text.lower wanted.toList)) with
  | some d => .ok d
  | none => .error (.refused 400 ("Unsupported dialect: " ++ name.getD "None"))

def anyRecord : Datum → Checked Datum
  | .record r => .ok (.record r)
  | _ => .fault "Input should be a valid dictionary"

structure SqlRequest where
  sql : String
  dialect : Option String

structure QueryRequest where
  ir : Datum
  dialect : Option String

def sqlRequest (kind : String) : Datum → Checked SqlRequest :=
  model kind fun r => (fun sql => ⟨sql, none⟩) <$> required r "sql" string

def sqlDialectRequest (kind : String) : Datum → Checked SqlRequest :=
  model kind fun r => .mk <$> required r "sql" string <*> optional r "dialect" string

def queryRequest (kind : String) : Datum → Checked QueryRequest :=
  model kind fun r => (fun ir => ⟨ir, none⟩) <$> required r "ir" anyRecord

def queryDialectRequest (kind : String) : Datum → Checked QueryRequest :=
  model kind fun r => .mk <$> required r "ir" anyRecord <*> optional r "dialect" string

/-- A request in the form asked for, or the refusal. -/
def accept {α : Type} : Checked α → Except Reply α
  | .ok a => .ok a
  | .faulty faults => .error (.malformed faults)

/-- The outcome of reading or writing SQL: a result under a name, or an error. -/
def outcome (name : String) : Except String Datum → Datum
  | .ok result => .record [("success", .bool true), (name, result), ("error", .null)]
  | .error e => .record [("success", .bool false), (name, .null), ("error", .string e)]

def readSql (body : Datum) : Except Reply Datum := do
  let request ← accept (sqlRequest "SqlToIRRequest" body)
  requireSql request.sql
  match ((Statement.read IdSource.shared request.sql.toList).run 1).1 with
  | .ok statement => return outcome "ir" (.ok statement.dump)
  | .error e => return outcome "ir" (.error ("Failed to parse SQL: " ++ e.message))

def faultLine (faults : List Fault) : String :=
  "; ".intercalate (faults.map Fault.text)

def writeQuery (d : Dialect) (ir : Datum) : Except String Datum :=
  match Query.load ir with
  | .faulty faults => .error ("Invalid IR: " ++ faultLine faults)
  | .ok q =>
    match q.sql d with
    | .ok sql => .ok (.string sql)
    | .error e => .error ("Failed to generate SQL: " ++ e.message)

def writeSql (settings : Settings) (body : Datum) : Except Reply Datum := do
  let request ← accept (queryDialectRequest "IRToSqlRequest" body)
  let d ← resolveDialect settings request.dialect
  return outcome "sql" (writeQuery d request.ir)

def verdict (errors : List String) : Datum :=
  .record [("valid", .bool errors.isEmpty), ("errors", .strings errors)]

def checkQuery (body : Datum) : Except Reply Datum := do
  let request ← accept (queryRequest "ValidateIRRequest" body)
  match Query.load request.ir with
  | .faulty faults => return verdict (faults.map Fault.text)
  | .ok q => return verdict (q.findings.map Finding.message)

def lintReport (sql : Text) : Datum :=
  let errors := Lint.errors sql
  .record [("isValid", .bool errors.isEmpty), ("errors", .strings (errors.map Remark.message)),
    ("warnings", .strings ((Lint.warnings sql).map Remark.message))]

def lintSql (body : Datum) : Except Reply Datum := do
  let request ← accept (sqlRequest "ValidateSqlRequest" body)
  requireSql request.sql
  return lintReport request.sql.toList

def tripReport (r : TripReport) : Datum :=
  .record [("lossless", .bool r.lossless),
    ("regenerated_sql", Datum.option .string r.regenerated),
    ("differences", .strings (r.differences.map Equivalence.Difference.message)),
    ("errors", .strings (r.remarks.map TripRemark.message))]

def roundTrip (settings : Settings) (body : Datum) : Except Reply Datum := do
  let request ← accept (sqlDialectRequest "RoundTripRequest" body)
  requireSql request.sql
  let d ← resolveDialect settings request.dialect
  match checkRoundTrip request.sql d with
  | .ok report => return tripReport report
  | .error e => throw (.refused 500 e.message)

def greeting : Datum :=
  .record [("message", .string "Visual Query Translator API"), ("status", .string "running")]

def health : Datum :=
  .record [("status", .string "healthy")]

end Service

inductive Endpoint where
  | greeting | health | readSql | writeSql | checkQuery | lintSql | roundTrip
  deriving DecidableEq

namespace Endpoint

def all : List Endpoint :=
  [.greeting, .health, .readSql, .writeSql, .checkQuery, .lintSql, .roundTrip]

def path : Endpoint → String
  | .greeting => "/"
  | .health => "/health"
  | .readSql => "/api/sql-to-ir"
  | .writeSql => "/api/ir-to-sql"
  | .checkQuery => "/api/validate-ir"
  | .lintSql => "/api/validate-sql"
  | .roundTrip => "/api/round-trip"

def ofPath? (path : String) : Option Endpoint :=
  all.find? (·.path == path)

def handle (settings : Settings) (e : Endpoint) (body : Datum) : Except Reply Datum :=
  match e with
  | .greeting => .ok Service.greeting
  | .health => .ok Service.health
  | .readSql => Service.readSql body
  | .writeSql => Service.writeSql settings body
  | .checkQuery => Service.checkQuery body
  | .lintSql => Service.lintSql body
  | .roundTrip => Service.roundTrip settings body

def reply (settings : Settings) (e : Endpoint) (body : Datum) : Reply :=
  match e.handle settings body with
  | .ok body => .answer body
  | .error reply => reply

end Endpoint

end SqlCanvas
