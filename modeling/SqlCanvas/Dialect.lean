import SqlCanvas.Datum
import SqlCanvas.Query.Error

/-!
# Dialects

The dialects of SQL that can be written. They differ in how the number of rows is limited. A dialect
is known by its exact name.
-/

namespace SqlCanvas

inductive Dialect where
  | postgresql | mysql | sqlite | sqlserver
  deriving DecidableEq

namespace Dialect

def all : List Dialect := [.postgresql, .mysql, .sqlite, .sqlserver]

def name : Dialect → String
  | .postgresql => "postgresql"
  | .mysql => "mysql"
  | .sqlite => "sqlite"
  | .sqlserver => "sqlserver"

def ofName? (s : String) : Option Dialect :=
  all.find? (·.name == s)

/-- A name that no dialect has. -/
structure Unknown where
  name : String
  deriving DecidableEq

def Unknown.message (u : Unknown) : String :=
  String.ofList (quoteText u.name.toList) ++ " is not a valid Dialect"

def read (s : String) : Except Unknown Dialect :=
  match ofName? s with
  | some d => .ok d
  | none => .error ⟨s⟩

theorem ofName?_name (d : Dialect) : ofName? d.name = some d := by
  cases d <;> rfl

theorem name_of_ofName? {s : String} {d : Dialect} (h : ofName? s = some d) : d.name = s := by
  simpa using List.find?_some h

/-- The name under which readers of SQL know the dialect. -/
def readerName : Dialect → String
  | .postgresql => "postgres"
  | .mysql => "mysql"
  | .sqlite => "sqlite"
  | .sqlserver => "tsql"

def intText (n : Int) : String :=
  String.ofList (Numeral.ofInt n)

/-- The clause that limits the rows. Only SQL Server writes an offset of zero. -/
def pagination (d : Dialect) (limit : Int) (offset : Option Int) : String :=
  match d with
  | .sqlserver =>
    "OFFSET " ++ intText (offset.getD 0) ++ " ROWS FETCH NEXT " ++ intText limit ++ " ROWS ONLY"
  | _ =>
    "LIMIT " ++ intText limit ++
      match offset with
      | some m => if 0 < m then " OFFSET " ++ intText m else ""
      | none => ""

/-- The whole numbers in that clause, in order. -/
def numerals (d : Dialect) (limit : Int) (offset : Option Int) : List Int :=
  match d with
  | .sqlserver => [offset.getD 0, limit]
  | _ => limit :: (offset.filter (0 < ·)).toList

/-- The clause, unless a number in it is too long. -/
def paginate (d : Dialect) (limit : Int) (offset : Option Int) : Except GenerationError String :=
  writing (d.numerals limit offset) (d.pagination limit offset)

end Dialect

end SqlCanvas
