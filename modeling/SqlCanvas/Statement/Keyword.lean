import SqlCanvas.Pattern.Basic

/-!
# Names in statements

The patterns shared by the readers of all statements: a table's name, which may have a schema in
front, and the alias behind it, which may not be one of the words that go on with the statement.
-/

namespace SqlCanvas.Pattern

/-- A name, or two names with a point between them. -/
def identifier : Pattern :=
  .seq name (.maybe (.seq (.exactly '.') name))

/-- Words that may stand behind a table's name and are not its alias. -/
def continuations : List String :=
  ["WHERE", "ON", "USING", "JOIN", "INNER", "LEFT", "RIGHT", "FULL", "CROSS", "NATURAL", "SELF",
    "OUTER", "GROUP", "ORDER", "HAVING", "LIMIT", "OFFSET", "FETCH", "UNION", "INTERSECT", "EXCEPT",
    "WINDOW", "SET", "VALUES"]

/-- `AS` and a name, or a name alone, marked under `slot`. -/
def aliasName (slot : Nat) : Pattern :=
  .seq (.maybe (.seq (word "AS") blank)) (.capture slot name)

def columnAlias (slot : Nat) : Pattern :=
  .maybe (.seq blank (aliasName slot))

def tableAlias (slot : Nat) : Pattern :=
  .maybe (.all [blank, .maybe (.seq (word "AS") blank),
    .notAhead (.seq (.oneOf (continuations.map word)) .boundary), .capture slot name])

end SqlCanvas.Pattern
