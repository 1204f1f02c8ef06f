import SqlCanvas.Text.LetterCase

/-!
# Settings

What a service takes from its environment. A variable that is absent or empty has a default, except
that an empty debug flag is simply not `true`.
-/

namespace SqlCanvas

open Text

structure Settings where
  /-- The name of the dialect for requests that name none, in small letters. -/
  defaultDialect : String
  /-- The origins from which requests are accepted. -/
  origins : List String
  logLevel : String
  debug : Bool
  deriving DecidableEq

/-- Variables by name. -/
abbrev Environment := List (String × String)

namespace Environment

def get? (env : Environment) (name : String) : Option String :=
  (env.find? (·.1 == name)).map (·.2)

/-- The value of a variable, or the default where it is absent or empty. -/
def valueOr (env : Environment) (name default : String) : Text :=
  match env.get? name with
  | some value => if value = "" then default.toList else value.toList
  | none => default.toList

end Environment

def Settings.read (env : Environment) : Settings where
  defaultDialect :=
    String.ofList (lower (env.valueOr "VISUAL_QUERY_DEFAULT_DIALECT" "postgresql"))
  origins :=
    (((splitOn ',' (env.valueOr "CORS_ORIGINS" "http://localhost:3000")).map trim).filter
      (!·.isEmpty)).map String.ofList
  logLevel := String.ofList (upper (env.valueOr "LOG_LEVEL" "INFO"))
  debug := lower ((env.get? "DEBUG_SQL_IR").getD "False").toList == "true".toList

end SqlCanvas
